import ShardIndex.Proofs.Calls

/-!
# Hours in words

The bounds of a span of hours are signed words, and at the ends of their range the hour after the
last one, the difference of the bounds and the time at which an hour begins would not fit.  A cursor
gives the hours from one bound to the other and is at its end without asking for one more
(`HourCursor.exists_gives`); the distance of the bounds fits an unsigned word, and the number of the
hours is held inside its range (`HourSpan.count_mk`); times are held inside theirs, which keeps them
in order (`hourStart_mono`).

The main result is `hours_of_words`, with what follows for the announcements of a refresh.
-/

namespace ShardIndex

/-! ## The hours between two bounds -/

lemma length_hoursBetween (first last : Int) :
    (hoursBetween first last).length = (last - first + 1).toNat := by
  rw [hoursBetween, List.length_map, List.length_range]

lemma pairwise_hoursBetween (first last : Int) : (hoursBetween first last).Pairwise (· < ·) :=
  List.pairwise_map.2 (List.pairwise_lt_range.imp fun h => by omega)

lemma hoursBetween_of_lt {first last : Int} (h : last < first) : hoursBetween first last = [] :=
  List.eq_nil_of_length_eq_zero (by rw [length_hoursBetween]; omega)

lemma hoursBetween_of_le {first last : Int} (h : first ≤ last) :
    hoursBetween first last = first :: hoursBetween (first + 1) last := by
  have hlength : (last - first + 1).toNat = (last - (first + 1) + 1).toNat + 1 := by omega
  rw [hoursBetween, hlength, List.range_succ_eq_map, List.map_cons, List.map_map, hoursBetween]
  congr 1
  · exact Int.add_zero first
  · refine List.map_congr_left fun i _ => ?_
    show first + ((i + 1 : Nat) : Int) = first + 1 + i
    omega

/-! ## Counting up -/

namespace HourCursor

/-- What a cursor gives from here to its end. -/
inductive Gives : HourCursor → List Int64 → Prop
  | finished {c : HourCursor} : c.turn = .finished → Gives c []
  | hour {c rest : HourCursor} {h : Int64} {l : List Int64} :
      c.turn = .hour h rest → Gives rest l → Gives c (h :: l)

/-- Taking some hours is beginning with what there is. -/
lemma take_of_gives {c : HourCursor} {l : List Int64} (h : c.Gives l) (n : Nat) :
    c.take n = l.take n := by
  induction h generalizing n with
  | finished hturn =>
    cases n with
    | zero => rfl
    | succ n => rw [take, hturn, List.take_nil]
  | hour hturn _ ih =>
    cases n with
    | zero => rfl
    | succ n => rw [take, hturn, List.take_succ_cons, ← ih]

/-- A word that is not the greatest has a next one. -/
lemma toInt_add_one {h last : Int64} (hlast : h < last) : (h + 1).toInt = h.toInt + 1 := by
  rw [Int64.lt_iff_toInt_lt] at hlast
  have low := h.le_toInt
  have high := last.toInt_lt
  rw [Int64.toInt_add, Int64.toInt_one]
  exact Int.bmod_eq_of_le (by omega) (by omega)

lemma turn_of_lt {next last : Int64} (h : next < last) :
    (HourCursor.mk next last false).turn = .hour next ⟨next + 1, last, false⟩ := by
  have inside : next ≠ Int64.maxValue := by
    rintro rfl
    have high := last.toInt_lt
    rw [Int64.lt_iff_toInt_lt, Int64.toInt_maxValue] at h
    omega
  have ascending : ¬ last < next := by
    rw [Int64.lt_iff_toInt_lt] at h ⊢
    omega
  simp [turn, h, inside, ascending]

/-- From a first hour to a last one a cursor gives the hours between them, and no step on the way
overflows. -/
theorem exists_gives {next last : Int64} (h : next ≤ last) :
    ∃ l, (HourCursor.mk next last false).Gives l ∧
      l.map Int64.toInt = hoursBetween next.toInt last.toInt := by
  induction hn : (last.toInt - next.toInt).toNat generalizing next with
  | zero =>
    rw [Int64.le_iff_toInt_le] at h
    obtain rfl : next = last := Int64.toInt_inj.1 (by omega)
    have hturn : (HourCursor.mk next next false).turn = .hour next ⟨next, next, true⟩ := by
      simp [turn]
    refine ⟨[next], .hour hturn (.finished rfl), ?_⟩
    rw [hoursBetween_of_le (Int.le_refl _), hoursBetween_of_lt (by omega)]
    rfl
  | succ n ih =>
    have hlt : next < last := Int64.lt_iff_toInt_lt.2 (by omega)
    have hnext := toInt_add_one hlt
    have hle : next + 1 ≤ last := by
      rw [Int64.le_iff_toInt_le]
      omega
    obtain ⟨l, gives, hl⟩ := ih hle (by omega)
    refine ⟨next :: l, .hour (turn_of_lt hlt) gives, ?_⟩
    rw [List.map_cons, hl, hnext]
    exact (hoursBetween_of_le (by omega)).symm

end HourCursor

/-! ## Hours that are words -/

section Words

variable {first last : Int64} {l : List Int64}

lemma mem_of_map_toInt_eq (h : l.map Int64.toInt = hoursBetween first.toInt last.toInt)
    (hour : Int64) : hour ∈ l ↔ first ≤ hour ∧ hour ≤ last := by
  rw [Int64.le_iff_toInt_le, Int64.le_iff_toInt_le, ← mem_hoursBetween, ← h]
  exact (List.mem_map_of_injective fun _ _ => Int64.toInt_inj.1).symm

lemma pairwise_of_map_toInt_eq (h : l.map Int64.toInt = hoursBetween first.toInt last.toInt) :
    l.Pairwise (· < ·) := by
  have ascending := pairwise_hoursBetween first.toInt last.toInt
  rw [← h, List.pairwise_map] at ascending
  exact ascending.imp Int64.lt_iff_toInt_lt.2

lemma hourStart_mono {hour hour' : Int} (h : hour ≤ hour') : hourStart hour ≤ hourStart hour' :=
  clip_mono (Int.mul_le_mul_of_nonneg_right h (by decide))

/-- When an hour begins, reckoned in words. -/
lemma toInt_mulWithin_millisPerHour (hour : Int64) :
    (Word.mulWithin hour 3600000).toInt = hourStart hour.toInt :=
  Word.toInt_mulWithin hour 3600000

namespace HourSpan

lemma ofBounds_eq_ok {first last : Int} {s : HourSpan} (h : ofBounds first last = .ok s) :
    ∃ hle, s = ⟨first, last, hle⟩ := by
  by_cases hle : first ≤ last
  · rw [ofBounds_of_le hle] at h
    exact ⟨hle, (Except.ok.inj h).symm⟩
  · rw [ofBounds_of_not_le hle] at h
    cases h

lemma cursor_mk (h : first.toInt ≤ last.toInt) :
    (HourSpan.mk first.toInt last.toInt h).cursor = ⟨first, last, false⟩ := by
  rw [cursor, Int64.ofInt_toInt, Int64.ofInt_toInt]

/-- There is one hour more than the bounds are apart, which may be one too many to report. -/
lemma count_mk (h : first.toInt ≤ last.toInt) :
    (HourSpan.mk first.toInt last.toInt h).count =
      min (hoursBetween first.toInt last.toInt).length (UInt64.size - 1) := by
  have one : (1 : UInt64).toNat = 1 := rfl
  rw [count, Int64.ofInt_toInt, Int64.ofInt_toInt, Word.toNat_addUpTo, Word.toNat_distance, one,
    length_hoursBetween, UInt64.size]
  omega

end HourSpan

end Words

/-! ## What a refresh announces -/

namespace Bootstrap

open Identity

/-- Once the writing is over only complete content is announced. -/
lemma Conclusion.exists_of_announced_mem {complete : Option Int} {result : Except Failure Nat}
    {tail : List Action} (h : Conclusion complete result tail) {event : Event}
    (hevent : .announced event ∈ tail) : ∃ t, complete = some t ∧ event = ⟨.synced, t⟩ := by
  cases h with
  | unwritten e => cases hevent
  | uncommitted e => simp at hevent
  | unshown e =>
    cases complete with
    | none => simp at hevent
    | some t => exact ⟨t, rfl, by simpa using hevent⟩
  | shown n =>
    cases complete with
    | none => simp at hevent
    | some t => exact ⟨t, rfl, by simpa using hevent⟩

variable {σ ρ ι : Type} [ColumnStore σ] [Resolver ρ] [Index ι] {settings : Settings}
  {schemas : Schema.Registry} {store : σ} {shard : Shard} {schedule : List Choice} {w : World ρ ι}

/-- What a call announces: that content is being refreshed, and that it is complete. -/
lemma announced_cases {strategy : Strategy} {event : Event}
    (h : .announced event ∈ (strategy.run settings schemas store shard schedule w).2.since w) :
    strategy.IsOrdered ∧ (event = ⟨.refreshing, strategy.opensAt settings⟩ ∨
      ∃ t, strategy.completesAt settings = some t ∧ event = ⟨.synced, t⟩) := by
  by_cases hordered : strategy.IsOrdered
  · obtain ⟨written, tales, j, tail, course⟩ :=
      exists_course hordered settings schemas store shard schedule w
    refine ⟨hordered, ?_⟩
    rw [course.evolves.since_eq] at h
    rcases List.mem_append.1 h with h | h
    · rcases List.mem_append.1 h with h | h
      · exact Or.inl (Action.announced.inj (List.mem_singleton.1 h))
      · exact absurd rfl ((course.account.writes _ h).ne_announced event)
    · exact Or.inr (course.conclusion.exists_of_announced_mem h)
  · -- without a plan nothing is done at all
    obtain ⟨first, last, hplan⟩ :=
      Strategy.exists_plan_eq_error settings schemas store shard hordered
    rw [Strategy.run, hplan, World.Evolves.refl.since_eq] at h
    cases h

/-- What a refresh announces keeps the order of its hours. -/
lemma le_of_announced {first last : Int} {parallelism : Option Nat} {t t' : Int}
    (hopened : .announced ⟨.refreshing, t⟩ ∈ ((Strategy.refresh first last parallelism).run
      settings schemas store shard schedule w).2.since w)
    (hclosed : .announced ⟨.synced, t'⟩ ∈ ((Strategy.refresh first last parallelism).run
      settings schemas store shard schedule w).2.since w) : t ≤ t' := by
  obtain ⟨hordered, hopening⟩ := announced_cases hopened
  obtain ⟨-, hclosing⟩ := announced_cases hclosed
  have ht : t = hourStart first := by
    rcases hopening with h | ⟨u, -, h⟩
    · exact (Event.mk.inj h).2
    · cases (Event.mk.inj h).1
  have ht' : t' = hourStart last := by
    rcases hclosing with h | ⟨u, hu, h⟩
    · cases (Event.mk.inj h).1
    · exact (Event.mk.inj h).2.trans (Option.some.inj hu).symm
  rw [ht, ht']
  exact hourStart_mono hordered

end Bootstrap

open Bootstrap Identity

/-- **Hours at the ends of the range.**  Let the bounds be any two signed words.  There is a span
between them exactly if the first is not beyond the last.  Then a cursor counts up from the first
to the last without overflow and gives every hour between them once, ascending; these are the hours
of the span, and those whose streams a refresh reads.  The count that is reported is their number,
held inside the unsigned words.  The times of the span are the products of its bounds with the
milliseconds of an hour, held inside the signed words, and they come in the order of the bounds; so
no refresh, however it ends, announces content as complete up to a time before the one from which
it has announced it as being refreshed. -/
theorem hours_of_words (first last : Int64) :
    ((∃ s, HourSpan.ofBounds first.toInt last.toInt = .ok s) ↔ first ≤ last) ∧
    (∀ s, HourSpan.ofBounds first.toInt last.toInt = .ok s →
      (∃ l, s.cursor = ⟨first, last, false⟩ ∧ s.cursor.Gives l ∧
        l.Pairwise (· < ·) ∧ (∀ hour, hour ∈ l ↔ first ≤ hour ∧ hour ≤ last) ∧
        s.hours = l.map Int64.toInt ∧ (∀ n, s.firstHours n = (l.take n).map Int64.toInt) ∧
        (∀ updatedIn, (Feed.ofHours s updatedIn).streams =
          l.map fun hour => updatedIn hour.toInt) ∧
        s.count = min l.length (UInt64.size - 1)) ∧
      s.startTime = max Int64.minValue.toInt (min (first.toInt * 3600000) Int64.maxValue.toInt) ∧
      s.endTime = max Int64.minValue.toInt (min (last.toInt * 3600000) Int64.maxValue.toInt) ∧
      s.startTime = (Word.mulWithin first 3600000).toInt ∧
      s.endTime = (Word.mulWithin last 3600000).toInt ∧
      s.startTime ≤ s.endTime) ∧
    ∀ {σ ρ ι : Type} [ColumnStore σ] [Resolver ρ] [Index ι] (parallelism : Option Nat)
      (settings : Settings) (schemas : Schema.Registry) (store : σ) (shard : Shard)
      (schedule : List Choice) (w : World ρ ι),
      let call := (Strategy.refresh first.toInt last.toInt parallelism).run settings schemas store
        shard schedule w
      ∀ t t', .announced ⟨.refreshing, t⟩ ∈ call.2.since w →
        .announced ⟨.synced, t'⟩ ∈ call.2.since w → t ≤ t' := by
  refine ⟨?_, fun s hs => ?_, fun parallelism settings schemas store shard schedule w t t' =>
    le_of_announced⟩
  · rw [Int64.le_iff_toInt_le]
    constructor
    · rintro ⟨s, hs⟩
      obtain ⟨hle, -⟩ := HourSpan.ofBounds_eq_ok hs
      exact hle
    · exact fun hle => ⟨_, HourSpan.ofBounds_of_le hle⟩
  · obtain ⟨hle, rfl⟩ := HourSpan.ofBounds_eq_ok hs
    obtain ⟨l, gives, hl⟩ := HourCursor.exists_gives (Int64.le_iff_toInt_le.2 hle)
    have hcursor := HourSpan.cursor_mk hle
    have hhours : (HourSpan.mk first.toInt last.toInt hle).hours = l.map Int64.toInt := hl.symm
    refine ⟨⟨l, hcursor, ?_, pairwise_of_map_toInt_eq hl, mem_of_map_toInt_eq hl, hhours,
      fun n => ?_, fun updatedIn => ?_, ?_⟩, rfl, rfl, (toInt_mulWithin_millisPerHour first).symm,
      (toInt_mulWithin_millisPerHour last).symm, hourStart_mono hle⟩
    · rw [hcursor]
      exact gives
    · rw [HourSpan.firstHours, hcursor, HourCursor.take_of_gives gives]
    · rw [Feed.streams_ofHours, hhours, List.map_map]
      rfl
    · rw [HourSpan.count_mk hle, ← hl, List.length_map]

/-- The span of all hours has one more than can be reported, and its times stop at both ends. -/
theorem hours_of_words_all :
    ∃ s, HourSpan.ofBounds Int64.minValue.toInt Int64.maxValue.toInt = .ok s ∧
      s.hours.length = UInt64.size ∧ s.count = UInt64.size - 1 ∧
      s.startTime = Int64.minValue.toInt ∧ s.endTime = Int64.maxValue.toInt := by
  obtain ⟨hiff, hspan, -⟩ := hours_of_words Int64.minValue Int64.maxValue
  obtain ⟨s, hs⟩ := hiff.2 (by decide)
  obtain ⟨⟨l, -, -, -, -, hhours, -, -, hcount⟩, hstart, hend, -⟩ := hspan s hs
  obtain ⟨hle, rfl⟩ := HourSpan.ofBounds_eq_ok hs
  have length : (HourSpan.mk _ _ hle).hours.length = UInt64.size := length_hoursBetween _ _
  have same : l.length = UInt64.size := by rw [← length, hhours, List.length_map]
  refine ⟨_, hs, length, ?_, hstart, hend⟩
  rw [hcount, same]
  exact Nat.min_eq_right (Nat.sub_le _ _)

end ShardIndex
