import ShardIndex.Index.Monitored
import ShardIndex.Proofs.Crew
import ShardIndex.Source.Log

/-!
# The calls made on an index

Whatever the strategy, the source, the resolver, the index and the schedule, the calls that a
call of a strategy makes on its index come in one order: it announces that content is being
refreshed, writes, commits, announces that content is complete, and refreshes the readers; what
fails first is the last of it, apart from writes of other tasks.  `Conclusion` lists the ways in
which it can end once the writing is over.

The main results are `journal_run`, the whole of this order, and `synced_mem_journal_iff`: a call
that fails has announced complete content exactly if all it failed at was the refresh of the
readers.
-/

namespace ShardIndex

open RecordStream

/-- The hours from a first to a last one; none if they come in the wrong order. -/
def hoursBetween (first last : Int) : List Int :=
  (List.range (last - first + 1).toNat).map fun i : Nat => first + i

lemma mem_hoursBetween {first last hour : Int} :
    hour ∈ hoursBetween first last ↔ first ≤ hour ∧ hour ≤ last := by
  rw [hoursBetween, List.mem_map]
  constructor
  · rintro ⟨i, hi, rfl⟩
    rw [List.mem_range] at hi
    omega
  · rintro ⟨hfirst, hlast⟩
    refine ⟨(hour - first).toNat, List.mem_range.2 ?_, ?_⟩ <;> omega

namespace Bootstrap

open Identity

/-! ## What a strategy is to do -/

namespace Strategy

/-- How a strategy writes. -/
def mode : Strategy → WriteMode
  | .raw => .add
  | .downsample _ _ _ => .add
  | .refresh _ _ _ => .upsert

/-- Whether the hours of a strategy, if it has any, come in the right order. -/
def IsOrdered : Strategy → Prop
  | .raw => True
  | .downsample _ _ _ => True
  | .refresh firstHour lastHour _ => firstHour ≤ lastHour

/-- The time from which on content is announced as being refreshed. -/
def opensAt (settings : Settings) : Strategy → Int
  | .raw => settings.now
  | .downsample checkpoint retention _ => effectiveCheckpoint checkpoint settings.now retention
  | .refresh firstHour _ _ => hourStart firstHour

/-- The time up to which content is announced as complete, if that is for the call to do. -/
def completesAt (settings : Settings) : Strategy → Option Int
  | .raw => some settings.now
  | .downsample _ _ _ => none
  | .refresh _ lastHour _ => some (hourStart lastHour)

variable {σ : Type} [ColumnStore σ]

/-- The streams whose records a strategy is to write. -/
def streams (settings : Settings) (schemas : Schema.Registry) (store : σ) (shard : Shard) :
    Strategy → List RecordStream
  | .raw => [ColumnStore.scan store shard]
  | .downsample checkpoint retention _ =>
    [(ColumnStore.scan store shard).filterMap fun r =>
      if effectiveCheckpoint checkpoint settings.now retention < r.endTime then some r else none]
  | .refresh firstHour lastHour _ =>
    (hoursBetween firstHour lastHour).map fun hour =>
      (ColumnStore.updatedIn store shard hour).filterMap schemas.downsampleRecord

end Strategy

/-- The streams of a writing. -/
def Writing.streams : Writing → List RecordStream
  | .inOrder s => [s]
  | .byCrew _ feed => feed.streams

/-- Whether a writing can have a task in flight, if it needs one. -/
def Writing.HasRoom : Writing → Prop
  | .inOrder _ => True
  | .byCrew limit _ => 0 < limit

lemma Settings.limit_pos (settings : Settings) (requested : Option Nat) :
    0 < settings.limit requested :=
  Nat.le_max_right _ _

section Plans

variable {σ : Type} [ColumnStore σ] (settings : Settings) (schemas : Schema.Registry) (store : σ)
  (shard : Shard)

/-- A strategy whose hours come in the right order has a plan, and the plan does what the strategy
is to do. -/
lemma Strategy.exists_plan {strategy : Strategy} (h : strategy.IsOrdered) :
    ∃ p, strategy.plan settings schemas store shard = .ok p ∧ p.mode = strategy.mode ∧
      p.opening = ⟨.refreshing, strategy.opensAt settings⟩ ∧
      p.closing = (strategy.completesAt settings).map (Event.mk .synced) ∧ p.writing.HasRoom ∧
      p.writing.streams = strategy.streams settings schemas store shard := by
  cases strategy with
  | raw => exact ⟨_, rfl, rfl, rfl, rfl, trivial, rfl⟩
  | downsample checkpoint retention parallelism =>
    exact ⟨_, rfl, rfl, rfl, rfl, settings.limit_pos parallelism, rfl⟩
  | refresh firstHour lastHour parallelism =>
    simp only [Strategy.plan, HourSpan.ofBounds_of_le h]
    exact ⟨_, rfl, rfl, rfl, rfl, settings.limit_pos parallelism, Feed.streams_ofHours _ _⟩

lemma Strategy.exists_plan_eq_error {strategy : Strategy} (h : ¬ strategy.IsOrdered) :
    ∃ first last, strategy.plan settings schemas store shard =
      .error (.hoursReversed first last) := by
  cases strategy with
  | raw => exact absurd trivial h
  | downsample checkpoint retention parallelism => exact absurd trivial h
  | refresh firstHour lastHour parallelism =>
    simp only [Strategy.plan, HourSpan.ofBounds_of_not_le h]
    exact ⟨_, _, rfl⟩

end Plans

/-! ## The order of calls -/

/-- The ways in which a call ends when its writing is over: what it returns, and what it still
asks of the index. -/
inductive Conclusion (complete : Option Int) : Except Failure Nat → List Action → Prop
  /-- Not all records were written. -/
  | unwritten (e : Failure) : Conclusion complete (.error e) []
  /-- The commit failed. -/
  | uncommitted (e : Failure) :
      Conclusion complete (.error e) [.requested .commit (some e)]
  /-- The refresh of the readers failed. -/
  | unshown (e : Failure) :
      Conclusion complete (.error e)
        (.requested .commit none :: (complete.toList.map fun t => .announced ⟨.synced, t⟩) ++
          [.requested .refreshReaders (some e)])
  /-- Nothing failed. -/
  | shown (n : Nat) :
      Conclusion complete (.ok n)
        (.requested .commit none :: (complete.toList.map fun t => .announced ⟨.synced, t⟩) ++
          [.requested .refreshReaders none])

variable {ρ ι : Type} [Resolver ρ] [Index ι]

namespace Plan

lemma exists_account_write {p : Plan} (hroom : p.writing.HasRoom) (schedule : List Choice)
    (w : World ρ ι) :
    ∃ j tales, w.Evolves j (p.write schedule w).2 ∧
      Account p.mode (recordsOf p.writing.streams) (failuresOf p.writing.streams)
        (p.write schedule w).1 tales j := by
  obtain ⟨opening, mode, writing, closing⟩ := p
  cases writing with
  | inOrder s =>
    obtain ⟨j, tales, outcome, evolves, houtcome, account⟩ :=
      World.exists_account_writeInOrder mode s.failure s.records 0 w
    have hmap : outcome.map (0 + ·) = outcome := by
      cases outcome with
      | ok n => exact congrArg Except.ok (Nat.zero_add n)
      | error e => rfl
    have hrecords : recordsOf [s] = s.records := List.append_nil _
    have hfailures : failuresOf [s] = s.failure.toList := by
      rw [failuresOf]
      cases h : s.failure <;> simp [h]
    refine ⟨j, tales, evolves, ?_⟩
    show Account mode (recordsOf [s]) (failuresOf [s])
      (World.writeInOrder mode s.failure s.records 0 w).1 tales j
    rw [houtcome, hmap, hrecords, hfailures]
    exact account
  | byCrew limit feed => exact Crew.exists_account_writeAll hroom mode schedule feed w

lemma exists_conclusion_conclude {p : Plan} {complete : Option Int}
    (hclosing : p.closing = complete.map (Event.mk .synced)) (count : Nat) (w : World ρ ι) :
    ∃ tail, w.Evolves tail (p.conclude count w).2 ∧
      Conclusion complete (p.conclude count w).1 tail ∧ tail ≠ [] ∧
      ∀ n, (p.conclude count w).1 = .ok n → n = count := by
  have committed := (World.Evolves.refl (w := w)).request .commit
  rw [conclude]
  split
  · rename_i e w₁ hw₁
    rw [hw₁] at committed
    exact ⟨_, committed, .uncommitted e, List.cons_ne_nil _ _, fun n hn => by cases hn⟩
  · rename_i w₁ hw₁
    rw [hw₁] at committed
    have announced : w.Evolves
        (.requested .commit none :: complete.toList.map fun t => .announced ⟨.synced, t⟩)
        (p.closing.elim w₁ w₁.announce) := by
      rw [hclosing]
      cases complete with
      | none => exact committed
      | some t => exact committed.announce ⟨.synced, t⟩
    have refreshed := announced.request .refreshReaders
    dsimp only
    split
    · rename_i e w₂ hw₂
      rw [hw₂] at refreshed
      exact ⟨_, refreshed, .unshown e, List.cons_ne_nil _ _, fun n hn => by cases hn⟩
    · rename_i w₂ hw₂
      rw [hw₂] at refreshed
      exact ⟨_, refreshed, .shown count, List.cons_ne_nil _ _, fun n hn => (Except.ok.inj hn).symm⟩

/-- What a plan does after its writing, which is something if the writing has ended well. -/
lemma exists_conclusion {p : Plan} {complete : Option Int}
    (hclosing : p.closing = complete.map (Event.mk .synced)) (schedule : List Choice)
    (w : World ρ ι) :
    ∃ tail, (p.write schedule (w.announce p.opening)).2.Evolves tail (p.run schedule w).2 ∧
      Conclusion complete (p.run schedule w).1 tail ∧
      (tail ≠ [] ↔ ∃ n, (p.write schedule (w.announce p.opening)).1 = .ok n) ∧
      ∀ n, (p.run schedule w).1 = .ok n →
        (p.write schedule (w.announce p.opening)).1 = .ok n := by
  rw [run]
  split
  · rename_i e w₁ hw₁
    rw [hw₁]
    refine ⟨[], .refl, .unwritten e, ⟨fun hne => absurd rfl hne, ?_⟩, fun n hn => by cases hn⟩
    rintro ⟨n, hn⟩
    cases hn
  · rename_i count w₁ hw₁
    rw [hw₁]
    obtain ⟨tail, concluded, conclusion, hne, hcount⟩ := exists_conclusion_conclude hclosing count w₁
    exact ⟨tail, concluded, conclusion, ⟨fun _ => ⟨count, rfl⟩, fun _ => hne⟩,
      fun n hn => by rw [hcount n hn]⟩

end Plan

/-- The course of a call from one world to another: it announces that content is being refreshed,
writes, and comes to a conclusion. -/
structure Course (mode : WriteMode) (opens : Int) (complete : Option Int)
    (streams : List RecordStream) (result : Except Failure Nat) (w w' : World ρ ι)
    (written : Except Failure Nat) (tales : List Tale) (j tail : List Action) : Prop where
  /-- The order of what was done. -/
  evolves : w.Evolves ([.announced ⟨.refreshing, opens⟩] ++ j ++ tail) w'
  /-- What the writing has done. -/
  account : Account mode (recordsOf streams) (failuresOf streams) written tales j
  /-- What came after it. -/
  conclusion : Conclusion complete result tail
  /-- Nothing comes after a writing that has failed. -/
  tail_ne_nil_iff : tail ≠ [] ↔ ∃ n, written = .ok n
  /-- A call that ends well returns the count of its writing. -/
  count : ∀ n, result = .ok n → written = .ok n

lemma Conclusion.views_eq_nil {complete : Option Int} {result : Except Failure Nat}
    {tail : List Action} (h : Conclusion complete result tail) :
    consulted tail = [] ∧ granted tail = [] ∧ written tail = [] := by
  cases h with
  | unwritten => exact ⟨rfl, rfl, rfl⟩
  | uncommitted => exact ⟨rfl, rfl, rfl⟩
  | unshown => cases complete <;> exact ⟨rfl, rfl, rfl⟩
  | shown => cases complete <;> exact ⟨rfl, rfl, rfl⟩

namespace Course

variable {mode : WriteMode} {opens : Int} {complete : Option Int} {streams : List RecordStream}
  {result written? : Except Failure Nat} {w w' : World ρ ι} {tales : List Tale}
  {j tail : List Action}

/-- Of what a call does, the writing alone asks the resolver and writes. -/
lemma views_eq (h : Course mode opens complete streams result w w' written? tales j tail) :
    consulted ([.announced ⟨.refreshing, opens⟩] ++ j ++ tail) = consulted j ∧
      granted ([.announced ⟨.refreshing, opens⟩] ++ j ++ tail) = granted j ∧
      written ([.announced ⟨.refreshing, opens⟩] ++ j ++ tail) = written j := by
  obtain ⟨hconsulted, hgranted, hwritten⟩ := h.conclusion.views_eq_nil
  rw [consulted_append, granted_append, written_append, hconsulted, hgranted, hwritten]
  simp only [List.append_nil, consulted_append, granted_append, written_append]
  exact ⟨rfl, rfl, rfl⟩

lemma consulted_subperm (h : Course mode opens complete streams result w w' written? tales j tail) :
    (consulted ([.announced ⟨.refreshing, opens⟩] ++ j ++ tail)).Subperm (recordsOf streams) := by
  rw [h.views_eq.1]
  exact h.account.consulted_subperm

/-- A call in which nothing fails ends well, with the number of the records. -/
lemma eq_ok_of_forall_not_fails
    (h : Course mode opens complete streams result w w' written? tales j tail)
    (hfailures : failuresOf streams = [])
    (hfine : ∀ a ∈ [.announced ⟨.refreshing, opens⟩] ++ j ++ tail, ¬ a.Fails) :
    result = .ok (recordsOf streams).length := by
  have written : ∃ n, written? = .ok n := h.account.isOk_iff.2
    ⟨hfailures, fun a ha => hfine a (List.mem_append_left _ (List.mem_append_right _ ha))⟩
  have ending : ∀ a ∈ tail, ¬ a.Fails := fun a ha => hfine a (List.mem_append_right _ ha)
  have conclusion := h.conclusion
  cases conclusion with
  | unwritten e => exact absurd rfl (h.tail_ne_nil_iff.2 written)
  | uncommitted e => exact absurd (Option.some_ne_none e) (ending _ (List.mem_singleton_self _))
  | unshown e =>
    have refused := ending _ (List.mem_append_right _ (List.mem_singleton_self _))
    exact absurd (Option.some_ne_none e) refused
  | shown n =>
    obtain rfl := h.count n rfl
    rw [h.account.length_eq]

end Course

variable {σ : Type} [ColumnStore σ]

/-- Every call whose hours come in the right order takes its course. -/
theorem exists_course {strategy : Strategy} (h : strategy.IsOrdered) (settings : Settings)
    (schemas : Schema.Registry) (store : σ) (shard : Shard) (schedule : List Choice)
    (w : World ρ ι) :
    ∃ written tales j tail,
      Course strategy.mode (strategy.opensAt settings) (strategy.completesAt settings)
        (strategy.streams settings schemas store shard)
        (strategy.run settings schemas store shard schedule w).1 w
        (strategy.run settings schemas store shard schedule w).2 written tales j tail := by
  obtain ⟨p, hp, hmode, hopening, hclosing, hroom, hstreams⟩ :=
    Strategy.exists_plan settings schemas store shard h
  -- what was announced, what was written, and what came after are put together in this order
  have opened := (World.Evolves.refl (w := w)).announce p.opening
  obtain ⟨j, tales, evolves, account⟩ :=
    Plan.exists_account_write hroom schedule (w.announce p.opening)
  rw [hmode, hstreams] at account
  obtain ⟨tail, concluded, conclusion, hne, hcount⟩ := Plan.exists_conclusion hclosing schedule w
  simp only [Strategy.run, hp]
  refine ⟨_, tales, j, tail, ?_, account, conclusion, hne, hcount⟩
  rw [← hopening]
  exact (opened.trans evolves).trans concluded

/-- **The order of calls.**  A call whose hours come in the wrong order fails without a single
action.  Any other call first announces that content is being refreshed; then it only asks the
resolver and writes in its one mode, never writing a row that was not granted; then, if no stream
has broken off and no answer or write has failed, and only then, it comes to what is left to do:
at that point every record was asked about and written, once each, and the rest happens as
`Conclusion` has it.  A call that ends well returns the number of the records. -/
theorem journal_run (strategy : Strategy) (settings : Settings) (schemas : Schema.Registry)
    (store : σ) (shard : Shard) (schedule : List Choice) (w : World ρ ι) :
    let call := strategy.run settings schemas store shard schedule w
    let streams := strategy.streams settings schemas store shard
    (¬ strategy.IsOrdered → ∃ first last, call = (.error (.hoursReversed first last), w)) ∧
    (strategy.IsOrdered → ∃ j tail,
      w.Evolves (.announced ⟨.refreshing, strategy.opensAt settings⟩ :: (j ++ tail)) call.2 ∧
      call.2.journal =
        w.journal ++ .announced ⟨.refreshing, strategy.opensAt settings⟩ :: (j ++ tail) ∧
      (∀ a ∈ j, a.Writes strategy.mode) ∧ Covered j ∧
      (consulted j).Subperm (recordsOf streams) ∧
      Conclusion (strategy.completesAt settings) call.1 tail ∧
      (tail ≠ [] ↔ failuresOf streams = [] ∧ ∀ a ∈ j, ¬ a.Fails) ∧
      (tail ≠ [] → (consulted j).Perm (recordsOf streams) ∧
        ((written j).map Record.ofRow).Perm (recordsOf streams)) ∧
      ∀ n, call.1 = .ok n → n = (recordsOf streams).length) := by
  intro call streams
  refine ⟨fun h => ?_, fun h => ?_⟩
  · obtain ⟨first, last, hplan⟩ := Strategy.exists_plan_eq_error settings schemas store shard h
    refine ⟨first, last, ?_⟩
    show strategy.run settings schemas store shard schedule w = _
    rw [Strategy.run, hplan]
  · obtain ⟨result, tales, j, tail, course⟩ :=
      exists_course h settings schemas store shard schedule w
    have evolves := course.evolves
    rw [List.append_assoc, List.singleton_append] at evolves
    refine ⟨j, tail, evolves, evolves.journal, course.account.writes, course.account.covered,
      course.account.consulted_subperm, course.conclusion,
      course.tail_ne_nil_iff.trans course.account.isOk_iff, fun hne => ?_, fun n hn => ?_⟩
    · obtain ⟨n, rfl⟩ := course.tail_ne_nil_iff.1 hne
      exact ⟨course.account.consulted_perm, course.account.written_perm⟩
    · obtain rfl := course.count n hn
      exact course.account.length_eq.symm

/-- A refresh from a later hour to an earlier one announces nothing. -/
theorem journal_run_of_hours_reversed :
    ¬ ∃ t j, (Strategy.run (.refresh 2 1 none) ⟨1, 0⟩ .empty (⟨[]⟩ : RecordLog) ⟨"metrics", 0⟩ []
      (⟨Counter.fresh, VolatileIndex.empty, []⟩ : World Counter VolatileIndex)).2.journal =
      .announced ⟨.refreshing, t⟩ :: j := by
  rintro ⟨t, j, hj⟩
  cases hj

/-! ## What a failed call has announced -/

lemma Action.Writes.ne_announced {mode : WriteMode} {a : Action} (h : a.Writes mode) (e : Event) :
    a ≠ .announced e := by
  rintro rfl
  exact h

lemma Action.Writes.ne_refreshReaders {mode : WriteMode} {a : Action} (h : a.Writes mode)
    (outcome : Option Failure) : a ≠ .requested .refreshReaders outcome := by
  rintro rfl
  exact h

/-- In a conclusion with a failure, complete content was announced exactly if it was the refresh
of the readers that failed. -/
lemma Conclusion.synced_mem_iff {complete : Option Int} {e : Failure} {tail : List Action}
    (h : Conclusion complete (.error e) tail) :
    (∃ t, .announced ⟨.synced, t⟩ ∈ tail) ↔
      complete.isSome ∧ .requested .refreshReaders (some e) ∈ tail := by
  cases h with
  | unwritten => simp
  | uncommitted => simp
  | unshown => cases complete <;> simp

/-- **What a failed call has announced.**  A call that fails has announced complete content
exactly if it is one that announces it at all, and has failed at the refresh of the readers. -/
theorem synced_mem_journal_iff {strategy : Strategy} {settings : Settings}
    {schemas : Schema.Registry} {store : σ} {shard : Shard} {schedule : List Choice}
    {w : World ρ ι} {e : Failure}
    (h : (strategy.run settings schemas store shard schedule w).1 = .error e) :
    ∃ j, (strategy.run settings schemas store shard schedule w).2.journal = w.journal ++ j ∧
      ((∃ t, .announced ⟨.synced, t⟩ ∈ j) ↔
        (strategy.completesAt settings).isSome ∧ .requested .refreshReaders (some e) ∈ j) := by
  by_cases hordered : strategy.IsOrdered
  · obtain ⟨result, tales, j, tail, course⟩ :=
      exists_course hordered settings schemas store shard schedule w
    refine ⟨_, course.evolves.journal, ?_⟩
    have conclusion := course.conclusion
    rw [h] at conclusion
    have announced (t : Int) :
        .announced ⟨.synced, t⟩ ∈
            [.announced ⟨.refreshing, strategy.opensAt settings⟩] ++ j ++ tail ↔
          Action.announced ⟨.synced, t⟩ ∈ tail := by
      have : Action.announced ⟨.synced, t⟩ ∉ j := fun hj =>
        (course.account.writes _ hj).ne_announced _ rfl
      simp [this]
    have refreshed :
        .requested .refreshReaders (some e) ∈
            [.announced ⟨.refreshing, strategy.opensAt settings⟩] ++ j ++ tail ↔
          Action.requested .refreshReaders (some e) ∈ tail := by
      have : Action.requested .refreshReaders (some e) ∉ j := fun hj =>
        (course.account.writes _ hj).ne_refreshReaders _ rfl
      simp [this]
    simp only [announced, refreshed]
    exact conclusion.synced_mem_iff
  · obtain ⟨first, last, hplan⟩ :=
      Strategy.exists_plan_eq_error settings schemas store shard hordered
    refine ⟨[], ?_, by simp⟩
    rw [Strategy.run, hplan, List.append_nil]

/-- A call for one record, on an index whose readers cannot be refreshed. -/
def unshownCall : Except Failure Nat × World Counter (Monitored VolatileIndex) :=
  Strategy.run .raw ⟨1, 1000⟩ .empty (⟨[⟨⟨"metrics", 0⟩, ⟨[170], 10, 20⟩, 0⟩]⟩ : RecordLog)
    ⟨"metrics", 0⟩ []
    ⟨Counter.fresh, Monitored.arm ⟨VolatileIndex.empty, [], []⟩ ⟨"refresh", 0, "readers gone"⟩, []⟩

/-- It fails, and content was announced as complete before. -/
theorem synced_mem_unshownCall :
    unshownCall.1 = .error (.index "readers gone") ∧
      .announced ⟨.synced, 1000⟩ ∈ unshownCall.2.journal := by
  decide

/-- It has announced complete content because that was the last thing to fail. -/
theorem synced_mem_unshownCall_iff :
    unshownCall.1 = .error (.index "readers gone") ∧
      ∃ j, unshownCall.2.journal = [] ++ j ∧
        ((∃ t, .announced ⟨.synced, t⟩ ∈ j) ↔ (Strategy.completesAt ⟨1, 1000⟩ .raw).isSome ∧
          .requested .refreshReaders (some (.index "readers gone")) ∈ j) :=
  have failed : unshownCall.1 = .error (.index "readers gone") := by decide
  ⟨failed, synced_mem_journal_iff failed⟩

end Bootstrap

end ShardIndex
