import ShardIndex.Proofs.Refresh

/-!
# Refreshes one after another

A refresh merges into an index what some hours hold, and merging takes the least window around
everything.  So after refreshes that end well only the hours that any of them had count, neither
their order nor how often an hour came.  For a single key this is `Absorbs`, which composes
(`Absorbs.trans`) and looks at the merged records as a set (`Absorbs.unique`); a run of refreshes
absorbs what all its hours hold (`Refreshes.absorbs`).

The main result is `contents_of_refreshes`.
-/

namespace ShardIndex

/-! ## Windows around windows -/

/-- What is least among some numbers and the least of others is the least of all. -/
lemma isLeast_union_of_insert {β : Type} [Preorder β] {a b : β} {S T : Set β} (h : IsLeast S a)
    (h' : IsLeast (insert a T) b) : IsLeast (S ∪ T) b := by
  constructor
  · rcases h'.1 with rfl | hb
    · exact Or.inl h.1
    · exact Or.inr hb
  · rintro t (ht | ht)
    · exact (h'.2 (Set.mem_insert a T)).trans (h.2 ht)
    · exact h'.2 (Set.mem_insert_of_mem a ht)

namespace Entry.Spans

variable {e e' : Entry} {before : Option Entry} {records records' : List Record}

lemma trans (h : e.Spans before records) (h' : e'.Spans (some e) records') :
    e'.Spans before (records ++ records') := by
  obtain ⟨hstart, hstop⟩ := h
  obtain ⟨hstart', hstop'⟩ := h'
  have split (p : Prop) (f : Record → Int) (t : Int) :
      (p ∨ ∃ r ∈ records ++ records', f r = t) ↔
        (p ∨ ∃ r ∈ records, f r = t) ∨ ∃ r ∈ records', f r = t := by
    simp only [List.mem_append, or_and_right, exists_or, or_assoc]
  have middle (g : Entry → Int) (f : Record → Int) :
      {t | (∃ b ∈ some e, g b = t) ∨ ∃ r ∈ records', f r = t} =
        insert (g e) {t | ∃ r ∈ records', f r = t} := by
    ext t
    simp [eq_comm]
  rw [middle] at hstart' hstop'
  constructor
  · simp only [split]
    exact isLeast_union_of_insert hstart hstart'
  · simp only [split]
    -- the greatest is the least in the opposite order
    exact @isLeast_union_of_insert Intᵒᵈ _ _ _ _ _ hstop hstop'

/-- An entry is known by its id and what it spans. -/
lemma unique (h : e.Spans before records) (h' : e'.Spans before records') (hid : e.id = e'.id)
    (hmem : ∀ r, r ∈ records ↔ r ∈ records') : e = e' := by
  have same : e'.Spans before records := by
    refine h'.congr (fun t => ?_) fun t => ?_
    · simp only [hmem]
    · simp only [hmem]
  obtain ⟨id, startTime, endTime⟩ := e
  obtain ⟨id', startTime', endTime'⟩ := e'
  have hstart : startTime = startTime' := h.start.unique same.start
  have hstop : endTime = endTime' := h.stop.unique same.stop
  obtain rfl : id = id' := hid
  rw [hstart, hstop]

end Entry.Spans

/-- What a key holds before and after some records are merged into it under an id. -/
structure Absorbs (before : Option Entry) (records : List Record) (id : PartId)
    (after : Option Entry) : Prop where
  /-- Without records nothing changes. -/
  unchanged : records = [] → after = before
  /-- The least window around everything has the id. -/
  merged : records ≠ [] → ∃ e, after = some e ∧ e.id = id ∧ e.Spans before records

namespace Absorbs

variable {before middle after after' : Option Entry} {records records' : List Record} {id : PartId}

lemma refl (before : Option Entry) (id : PartId) : Absorbs before [] id before :=
  ⟨fun _ => rfl, fun hne => absurd rfl hne⟩

lemma trans (h : Absorbs before records id middle) (h' : Absorbs middle records' id after) :
    Absorbs before (records ++ records') id after := by
  by_cases hnil' : records' = []
  · rwa [hnil', List.append_nil, h'.unchanged hnil']
  · obtain ⟨e', he', hid', hspans'⟩ := h'.merged hnil'
    refine ⟨fun hnil => absurd (List.append_eq_nil_iff.1 hnil).2 hnil', fun _ => ?_⟩
    refine ⟨e', he', hid', ?_⟩
    by_cases hnil : records = []
    · rw [hnil, List.nil_append, ← h.unchanged hnil]
      exact hspans'
    · obtain ⟨e, rfl, -, hspans⟩ := h.merged hnil
      exact hspans.trans hspans'

/-- The order of the records does not count, and neither does how often one comes. -/
lemma unique (h : Absorbs before records id after) (h' : Absorbs before records' id after')
    (hmem : ∀ r, r ∈ records ↔ r ∈ records') : after = after' := by
  by_cases hnil : records = []
  · have hnil' : records' = [] := by
      refine List.eq_nil_iff_forall_not_mem.2 fun r hr => ?_
      rw [← hmem, hnil] at hr
      cases hr
    rw [h.unchanged hnil, h'.unchanged hnil']
  · have hnil' : records' ≠ [] := by
      obtain ⟨r, hr⟩ := List.exists_mem_of_ne_nil _ hnil
      exact List.ne_nil_of_mem ((hmem r).1 hr)
    obtain ⟨e, rfl, hid, hspans⟩ := h.merged hnil
    obtain ⟨e', rfl, hid', hspans'⟩ := h'.merged hnil'
    rw [hspans.unique hspans' (hid.trans hid'.symm) hmem]

/-- Records that were merged already change nothing. -/
lemma eq_of_subset (h : Absorbs before records id middle) (h' : Absorbs middle records' id after)
    (hsub : records' ⊆ records) : after = middle := by
  refine (h.trans h').unique h fun r => ?_
  rw [List.mem_append]
  exact ⟨fun hr => hr.elim (fun hr => hr) fun hr => hsub hr, Or.inl⟩

end Absorbs

namespace Bootstrap

open Identity

section Runs

variable {σ ρ ι : Type} [ColumnStore σ] [Resolver ρ] [Index ι]
variable {schemas : Schema.Registry} {store : σ} {shard : Shard}

/-! ## Runs of refreshes -/

/-- The worlds that refreshes lead to, one after another, which all end well.  Each has its own
hours, from a first to a last one, its own settings, number of tasks and schedule. -/
inductive Refreshes (schemas : Schema.Registry) (store : σ) (shard : Shard) (w : World ρ ι) :
    List (Int × Int) → World ρ ι → Prop
  /-- There was none. -/
  | none : Refreshes schemas store shard w [] w
  /-- There was one more. -/
  | concat {spans : List (Int × Int)} {w' w'' : World ρ ι} {first last : Int}
      {settings : Settings} {parallelism : Option Nat} {schedule : List Choice} {n : Nat} :
      Refreshes schemas store shard w spans w' →
      (Strategy.refresh first last parallelism).run settings schemas store shard schedule w' =
        (.ok n, w'') →
      Refreshes schemas store shard w (spans ++ [(first, last)]) w''

/-- Whether an hour is one of those of some refreshes. -/
def Covers (spans : List (Int × Int)) (hour : Int) : Prop :=
  ∃ span ∈ spans, span.1 ≤ hour ∧ hour ≤ span.2

lemma not_covers_nil (hour : Int) : ¬ Covers [] hour := by
  simp [Covers]

lemma covers_cons {first last hour : Int} {spans : List (Int × Int)} :
    Covers ((first, last) :: spans) hour ↔ (first ≤ hour ∧ hour ≤ last) ∨ Covers spans hour := by
  simp [Covers]

namespace Refreshes

variable {w w' w'' : World ρ ι} {spans spans' : List (Int × Int)} {f : Key → PartId}

lemma trans (h : Refreshes schemas store shard w spans w')
    (h' : Refreshes schemas store shard w' spans' w'') :
    Refreshes schemas store shard w (spans ++ spans') w'' := by
  induction h' with
  | none => rwa [List.append_nil]
  | concat _ hrun ih =>
    rw [← List.append_assoc]
    exact ih.concat hrun

/-- Hours in the wrong order end no refresh well. -/
lemma ordered (h : Refreshes schemas store shard w spans w') :
    ∀ span ∈ spans, span.1 ≤ span.2 := by
  induction h with
  | none => simp
  | concat _ hrun ih =>
    intro span hspan
    rcases List.mem_append.1 hspan with hspan | hspan
    · exact ih span hspan
    · rw [List.mem_singleton.1 hspan]
      exact (exists_course_of_refresh hrun).1

lemma isByKey (h : Refreshes schemas store shard w spans w')
    (hf : Resolver.IsByKey w.resolver f) : Resolver.IsByKey w'.resolver f := by
  induction h with
  | none => exact hf
  | concat _ hrun ih =>
    obtain ⟨-, tales, j, tail, course⟩ := exists_course_of_refresh hrun
    exact course.evolves.isByKey ih

end Refreshes

/-! ## What they absorb -/

lemma mem_deliveredFor_iff {first last : Int} {key : Key} {r : Record} :
    r ∈ deliveredFor schemas store shard first last key ↔
      (∃ hour, (first ≤ hour ∧ hour ≤ last) ∧
        r ∈ (ColumnStore.updatedIn store shard hour).records) ∧
        schemas.downsampleKey r.key = some key := by
  simp only [deliveredFor, delivered, List.mem_filter, List.mem_flatMap, mem_hoursBetween,
    decide_eq_true_eq]

/-- The records that some refreshes find for a key are those of the hours that they cover. -/
lemma mem_flatMap_deliveredFor_iff {spans : List (Int × Int)} {key : Key} {r : Record} :
    r ∈ spans.flatMap (fun span => deliveredFor schemas store shard span.1 span.2 key) ↔
      ∃ hour, Covers spans hour ∧ r ∈ (ColumnStore.updatedIn store shard hour).records ∧
        schemas.downsampleKey r.key = some key := by
  simp only [List.mem_flatMap, mem_deliveredFor_iff, Covers]
  constructor
  · rintro ⟨span, hspan, ⟨hour, hhour, hr⟩, hkey⟩
    exact ⟨hour, ⟨span, hspan, hhour⟩, hr, hkey⟩
  · rintro ⟨hour, ⟨span, hspan, hhour⟩, hr, hkey⟩
    exact ⟨span, hspan, ⟨hour, hhour, hr⟩, hkey⟩

variable [LawfulIndex ι]

/-- A refresh that ends well absorbs under each key the records that are downsampled to it, if all
answers for the key gave one id. -/
lemma Course.absorbs {first last : Int} {settings : Settings} {parallelism : Option Nat} {n : Nat}
    {w w' : World ρ ι} {tales : List Tale} {j tail : List Action}
    (h : Course .upsert (hourStart first) (some (hourStart last))
      ((Strategy.refresh first last parallelism).streams settings schemas store shard) (.ok n)
      w w' (.ok n) tales j tail) {key : Key} {id : PartId}
    (hid : ∀ r m, r.key = key → .consulted r (.id m) ∈ j → m = id) :
    Absorbs (LawfulIndex.current? w.index key)
      (deliveredFor schemas store shard first last key) id
      (LawfulIndex.current? w'.index key) := by
  obtain ⟨hnone, hsome⟩ := h.entry_of_refresh key
  rw [h.current?_of_ok]
  refine ⟨hnone, fun hne => ?_⟩
  obtain ⟨e, he, hspans, r, hr, ha⟩ := hsome hne
  exact ⟨e, he, hid r e.id hr ha, hspans⟩

/-- Calls that end well leave the same if they leave the same for the next write of each key. -/
lemma contents_eq_of_current? {x y : ι}
    (hx : LawfulIndex.current? x = (LawfulIndex.committed x).get?)
    (hy : LawfulIndex.current? y = (LawfulIndex.committed y).get?)
    (hreader : LawfulIndex.reader x = LawfulIndex.committed x)
    (hreader' : LawfulIndex.reader y = LawfulIndex.committed y)
    (heq : ∀ key, LawfulIndex.current? x key = LawfulIndex.current? y key) :
    LawfulIndex.committed x = LawfulIndex.committed y ∧
      LawfulIndex.reader x = LawfulIndex.reader y := by
  have same : LawfulIndex.committed x = LawfulIndex.committed y :=
    Table.ext_get? fun key => by rw [← hx, ← hy, heq]
  exact ⟨same, by rw [hreader, hreader', same]⟩

namespace Refreshes

variable {w w' w'' : World ρ ι} {spans spans' : List (Int × Int)} {f : Key → PartId}

/-- Refreshes that end well absorb what all their hours hold. -/
theorem absorbs (h : Refreshes schemas store shard w spans w')
    (hf : Resolver.IsByKey w.resolver f) (key : Key) :
    Absorbs (LawfulIndex.current? w.index key)
      (spans.flatMap fun span => deliveredFor schemas store shard span.1 span.2 key) (f key)
      (LawfulIndex.current? w'.index key) := by
  induction h with
  | none => exact .refl _ _
  | concat hbefore hrun ih =>
    obtain ⟨-, tales, j, tail, course⟩ := exists_course_of_refresh hrun
    rw [List.flatMap_append, List.flatMap_singleton]
    refine ih.trans (course.absorbs fun r m hr ha => ?_)
    rw [← hr]
    exact course.evolves.eq_of_isByKey (hbefore.isByKey hf)
      (List.mem_append_left _ (List.mem_append_right _ ha))

/-- After a refresh that ends well everything is committed, and readers see it. -/
lemma contents (h : Refreshes schemas store shard w spans w') (hne : spans ≠ []) :
    LawfulIndex.current? w'.index = (LawfulIndex.committed w'.index).get? ∧
      LawfulIndex.reader w'.index = LawfulIndex.committed w'.index := by
  cases h with
  | none => exact absurd rfl hne
  | concat _ hrun =>
    obtain ⟨-, tales, j, tail, course⟩ := exists_course_of_refresh hrun
    exact ⟨course.current?_of_ok, course.contents_of_ok.2⟩

/-- Two runs of refreshes from one world leave the same if they cover the same hours. -/
theorem contents_eq_of_covers (hf : Resolver.IsByKey w.resolver f)
    (h : Refreshes schemas store shard w spans w') (hne : spans ≠ [])
    (h' : Refreshes schemas store shard w spans' w'') (hne' : spans' ≠ [])
    (hcovers : ∀ hour, Covers spans hour ↔ Covers spans' hour) :
    LawfulIndex.committed w'.index = LawfulIndex.committed w''.index ∧
      LawfulIndex.reader w'.index = LawfulIndex.reader w''.index := by
  obtain ⟨hcurrent, hreader⟩ := h.contents hne
  obtain ⟨hcurrent', hreader'⟩ := h'.contents hne'
  refine contents_eq_of_current? hcurrent hcurrent' hreader hreader' fun key => ?_
  refine (h.absorbs hf key).unique (h'.absorbs hf key) fun r => ?_
  simp only [mem_flatMap_deliveredFor_iff, hcovers]

/-- A refresh of hours that were all refreshed before leaves everything as it was. -/
theorem contents_eq_of_covered (hf : Resolver.IsByKey w.resolver f)
    (h : Refreshes schemas store shard w spans w') {first last : Int}
    (h' : Refreshes schemas store shard w' [(first, last)] w'')
    (hcovered : ∀ hour, first ≤ hour → hour ≤ last → Covers spans hour) :
    LawfulIndex.committed w''.index = LawfulIndex.committed w'.index ∧
      LawfulIndex.reader w''.index = LawfulIndex.reader w'.index := by
  have hordered : first ≤ last := h'.ordered _ (List.mem_singleton_self _)
  have hne : spans ≠ [] := by
    obtain ⟨span, hspan, -⟩ := hcovered first le_rfl hordered
    exact List.ne_nil_of_mem hspan
  have hne' : spans ++ [(first, last)] ≠ [] :=
    List.append_ne_nil_of_right_ne_nil _ (List.cons_ne_nil _ _)
  refine contents_eq_of_covers hf (h.trans h') hne' h hne fun hour => ⟨?_, ?_⟩
  · rintro ⟨span, hspan, hhour⟩
    rcases List.mem_append.1 hspan with hspan | hspan
    · exact ⟨span, hspan, hhour⟩
    · rw [List.mem_singleton.1 hspan] at hhour
      exact hcovered hour hhour.1 hhour.2
  · rintro ⟨span, hspan, hhour⟩
    exact ⟨span, List.mem_append_left _ hspan, hhour⟩

end Refreshes

end Runs

/-! ## Refreshes with one assignment -/

section Assignments

variable {σ ι : Type} [ColumnStore σ] [Index ι] {schemas : Schema.Registry} {store : σ}
  {shard : Shard} {first last : Int}

/-- After a call that ends well the keys of all its records have ids. -/
lemma Course.isSome_of_mem {mode : WriteMode} {opens : Int} {complete : Option Int}
    {streams : List RecordStream} {result : Except Failure Nat} {n : Nat} {w w' : World Keyed ι}
    {tales : List Tale} {j tail : List Action}
    (h : Course mode opens complete streams result w w' (.ok n) tales j tail) {r : Record}
    (hr : r ∈ RecordStream.recordsOf streams) : (w'.resolver.ids.get? r.key).isSome := by
  obtain ⟨news, -, -, hgiven⟩ := h.exists_news
  obtain ⟨m, ha⟩ := h.account.exists_id_of_mem hr
  rw [hgiven r m ha]
  rfl

variable [LawfulIndex ι] {settings settings' : Settings} {parallelism parallelism' : Option Nat}
  {schedule schedule' : List Choice} {n n' : Nat} {w w' w'' : World Keyed ι}

/-- The same refresh again, with the assignment that the first one has left, gives no new id and
changes no entry. -/
theorem eq_of_refresh_again
    (h : (Strategy.refresh first last parallelism).run settings schemas store shard schedule w =
      (.ok n, w'))
    (h' : (Strategy.refresh first last parallelism').run settings' schemas store shard schedule'
      w' = (.ok n', w'')) :
    w''.resolver.ids = w'.resolver.ids ∧
      LawfulIndex.committed w''.index = LawfulIndex.committed w'.index ∧
      LawfulIndex.reader w''.index = LawfulIndex.reader w'.index := by
  obtain ⟨-, tales, j, tail, course⟩ := exists_course_of_refresh h
  obtain ⟨-, tales', j', tail', course'⟩ := exists_course_of_refresh h'
  obtain ⟨news, -, -, hgiven⟩ := course.exists_news
  obtain ⟨news', grows', hnews', hgiven'⟩ := course'.exists_news
  -- the second call meets only keys of records of the first, and these have ids
  have hids : w''.resolver.ids = w'.resolver.ids := by
    refine Table.ext_get? fun key => grows'.get?_of_notMem fun hmem => ?_
    obtain ⟨⟨r, hr, rfl⟩, hunknown⟩ := (hnews' key).1 hmem
    rw [recordsOf_streams, ← recordsOf_streams _ _ _ _ _ settings parallelism] at hr
    have hknown := course.isSome_of_mem hr
    rw [hunknown] at hknown
    cases hknown
  refine ⟨hids, ?_⟩
  refine contents_eq_of_current? course'.current?_of_ok course.current?_of_ok
    course'.contents_of_ok.2 course.contents_of_ok.2 fun key => ?_
  -- in both calls all answers for the key gave the id that it has in the end
  let id := (w'.resolver.ids.get? key).getD 0
  have first : Absorbs (LawfulIndex.current? w.index key) _ id
      (LawfulIndex.current? w'.index key) :=
    course.absorbs fun r m hr ha => by simp [id, ← hr, hgiven r m ha]
  have again : Absorbs (LawfulIndex.current? w'.index key) _ id
      (LawfulIndex.current? w''.index key) :=
    course'.absorbs fun r m hr ha => by simp [id, ← hr, ← hids, hgiven' r m ha]
  exact first.eq_of_subset again (List.Subset.refl _)

end Assignments

/-- **Refreshes compose.**  If the resolver gives ids by key, a refresh of the hours from `a` to `b`
and one of the hours from `c` to `d`, which begins no earlier, ends no earlier and leaves no hour
out between them, have together the effect of one refresh from `a` to `d`, whichever of them comes
first; and after any refreshes one more of hours that they have covered changes nothing.  With an
assignment that is kept from call to call, the same refresh again changes nothing.

All of these may have any settings, number of tasks and schedule, and the index may be of either
kind and in any state. -/
theorem contents_of_refreshes {σ : Type} [ColumnStore σ] (schemas : Schema.Registry) (store : σ)
    (shard : Shard) :
    (∀ {ρ : Type} [Resolver ρ] (f : Key → PartId) (w : World ρ AnyIndex),
      Resolver.IsByKey w.resolver f →
      (∀ (a b c d : Int), a ≤ c → c ≤ b + 1 → b ≤ d → ∀ w₁ w₂ w' : World ρ AnyIndex,
        Refreshes schemas store shard w [(a, b), (c, d)] w₁ →
        Refreshes schemas store shard w [(c, d), (a, b)] w₂ →
        Refreshes schemas store shard w [(a, d)] w' →
        (w₁.index.committed = w'.index.committed ∧ w₁.index.reader = w'.index.reader) ∧
        (w₂.index.committed = w'.index.committed ∧ w₂.index.reader = w'.index.reader)) ∧
      ∀ (spans : List (Int × Int)) (c d : Int) (w₁ w₂ : World ρ AnyIndex),
        Refreshes schemas store shard w spans w₁ →
        Refreshes schemas store shard w₁ [(c, d)] w₂ →
        (∀ hour, c ≤ hour → hour ≤ d → Covers spans hour) →
        w₂.index.committed = w₁.index.committed ∧ w₂.index.reader = w₁.index.reader) ∧
    (∀ (w w₁ w₂ : World Keyed AnyIndex) (first last : Int) (settings settings' : Settings)
        (parallelism parallelism' : Option Nat) (schedule schedule' : List Choice) (n n' : Nat),
      (Strategy.refresh first last parallelism).run settings schemas store shard schedule w =
        (.ok n, w₁) →
      (Strategy.refresh first last parallelism').run settings' schemas store shard schedule' w₁ =
        (.ok n', w₂) →
      w₂.resolver.ids = w₁.resolver.ids ∧ w₂.index.committed = w₁.index.committed ∧
        w₂.index.reader = w₁.index.reader) := by
  refine ⟨fun f w hf => ⟨fun a b c d hac hcb hbd w₁ w₂ w' h₁ h₂ h' => ?_,
    fun spans c d w₁ w₂ h₁ h₂ hcovered => h₁.contents_eq_of_covered hf h₂ hcovered⟩,
    fun w w₁ w₂ first last settings settings' parallelism parallelism' schedule schedule' n n'
      h h' => eq_of_refresh_again h h'⟩
  refine ⟨Refreshes.contents_eq_of_covers hf h₁ (by simp) h' (by simp) fun hour => ?_,
    Refreshes.contents_eq_of_covers hf h₂ (by simp) h' (by simp) fun hour => ?_⟩
  · simp only [covers_cons, not_covers_nil, or_false]
    omega
  · simp only [covers_cons, not_covers_nil, or_false]
    omega

/-- A refresh of some hours of two records of one series. -/
def twoHoursRefresh {ρ : Type} [Resolver ρ] (first last : Int) (w : World ρ AnyIndex) :
    Except Failure Nat × World ρ AnyIndex :=
  (Strategy.refresh first last (some 2)).run ⟨1, 0⟩ ⟨[⟨"gauge", some "ds-gauge"⟩]⟩ twoHours
    ⟨"metrics", 0⟩ [] w

lemma refreshes_twoHours {ρ : Type} [Resolver ρ] {w : World ρ AnyIndex} {first last : Int} {n : Nat}
    (h : (twoHoursRefresh first last w).1 = .ok n) :
    Refreshes ⟨[⟨"gauge", some "ds-gauge"⟩]⟩ twoHours ⟨"metrics", 0⟩ w [(first, last)]
      (twoHoursRefresh first last w).2 :=
  .concat .none (Prod.ext h rfl)

/-- A refresh of both hours makes one entry.  The first hour and then the second leave the same, and
so do the second and then the first; the second hour once more changes nothing, and with an
assignment neither do both hours once more. -/
theorem contents_of_refreshes_twoHours :
    let w : World Rule AnyIndex := ⟨Rule.length, .volatile {}, []⟩
    let both := (twoHoursRefresh 5 6 w).2
    let assigned := (twoHoursRefresh 5 6 (⟨Keyed.fresh, .durable {}, []⟩ : World Keyed AnyIndex)).2
    both.index.committed.get? [166, 238, 1] = some ⟨3, 5, 20⟩ ∧
    (twoHoursRefresh 6 6 (twoHoursRefresh 5 5 w).2).2.index.committed = both.index.committed ∧
    (twoHoursRefresh 5 5 (twoHoursRefresh 6 6 w).2).2.index.committed = both.index.committed ∧
    (twoHoursRefresh 6 6 both).2.index.committed = both.index.committed ∧
    assigned.index.committed.get? [166, 238, 1] = some ⟨0, 5, 20⟩ ∧
    (twoHoursRefresh 5 6 assigned).2.index.committed = assigned.index.committed := by
  intro w both assigned
  have first : (twoHoursRefresh 5 5 w).1 = .ok 1 := by decide +kernel
  have second : (twoHoursRefresh 6 6 w).1 = .ok 1 := by decide +kernel
  have afterFirst : (twoHoursRefresh 6 6 (twoHoursRefresh 5 5 w).2).1 = .ok 1 := by decide +kernel
  have afterSecond : (twoHoursRefresh 5 5 (twoHoursRefresh 6 6 w).2).1 = .ok 1 := by decide +kernel
  have together : (twoHoursRefresh 5 6 w).1 = .ok 2 := by decide +kernel
  have again : (twoHoursRefresh 6 6 both).1 = .ok 1 := by decide +kernel
  have known : (twoHoursRefresh 5 6 (⟨Keyed.fresh, .durable {}, []⟩ : World Keyed AnyIndex)).1 =
      .ok 2 := by decide +kernel
  have knownAgain : (twoHoursRefresh 5 6 assigned).1 = .ok 2 := by decide +kernel
  obtain ⟨ruled, kept⟩ :=
    contents_of_refreshes ⟨[⟨"gauge", some "ds-gauge"⟩]⟩ twoHours ⟨"metrics", 0⟩
  obtain ⟨joined, covered⟩ := ruled List.length w (Rule.isByKey List.length)
  obtain ⟨⟨hfirst, -⟩, ⟨hsecond, -⟩⟩ := joined 5 5 6 6 (by decide) (by decide) (by decide) _ _ _
    ((refreshes_twoHours first).trans (refreshes_twoHours afterFirst))
    ((refreshes_twoHours second).trans (refreshes_twoHours afterSecond))
    (refreshes_twoHours together)
  obtain ⟨hagain, -⟩ := covered [(5, 6)] 6 6 both _ (refreshes_twoHours together)
    (refreshes_twoHours again) fun hour h h' => ⟨(5, 6), by simp, by omega, by omega⟩
  obtain ⟨-, hkept, -⟩ := kept _ assigned _ 5 6 ⟨1, 0⟩ ⟨1, 0⟩ (some 2) (some 2) [] [] 2 2
    (Prod.ext known rfl) (Prod.ext knownAgain rfl)
  exact ⟨by decide +kernel, hfirst, hsecond, hagain, by decide +kernel, hkept⟩

end Bootstrap

end ShardIndex
