import ShardIndex.Proofs.Atomic
import ShardIndex.Proofs.Contents

/-!
# What a failed call leaves

A call may fail while tasks are in flight, and some of their writes may have landed by then.  It
leaves these, and nothing else: as long as nothing is committed, nothing can be seen from outside
(`Evolves.unseen`), the entries change by the rows that have landed (`Evolves.current?_eq_landed`),
and each of these is the row of a record that was delivered (`Plan.exists_tales_write`).  The main
result is `contents_of_uncommitted`.
-/

namespace ShardIndex

namespace Bootstrap

open Identity RecordStream

/-! ## Rows that have landed -/

/-- The row that was written, if the write ended well. -/
def Action.land? : Action → Option (Key × Entry)
  | .requested (.write _ key e) none => some (key, e)
  | _ => none

/-- The rows whose writes ended well. -/
def landed (j : List Action) : List (Key × Entry) := j.filterMap Action.land?

@[simp] lemma landed_append (j j' : List Action) : landed (j ++ j') = landed j ++ landed j' :=
  List.filterMap_append

lemma Story.landed_sublist {mode : WriteMode} {r : Record} {p : Progress} {l : List Action}
    (h : Story mode r p l) : ((landed l).map Record.ofRow).Sublist [r] := by
  cases h with
  | wrote n outcome =>
    cases outcome with
    | none => exact List.Sublist.refl _
    | some e => exact List.nil_sublist _
  | _ => exact List.nil_sublist _

/-- Tasks have landed rows of their own records only. -/
lemma Tale.landed_sublist_records {mode : WriteMode} {tales : List Tale}
    (h : ∀ t ∈ tales, t.IsTrue mode) :
    ((landed (deedsOf tales)).map Record.ofRow).Sublist (records tales) := by
  induction tales with
  | nil => exact List.Sublist.refl _
  | cons t l ih =>
    rw [deedsOf_cons, landed_append, List.map_append]
    exact (Story.landed_sublist (h t List.mem_cons_self)).append
      (ih fun t ht => h t (List.mem_cons_of_mem _ ht))

/-! ## Worlds before a commit -/

namespace Action

/-- Whether the action may show something to the outside. -/
def Publishes : Action → Prop
  | .requested .commit none => True
  | .requested .refreshReaders _ => True
  | _ => False

/-- Whether the action, if it is a write, is one in some mode. -/
def IsIn (mode : WriteMode) : Action → Prop
  | .requested (.write m _ _) _ => m = mode
  | _ => True

lemma Writes.not_publishes {mode : WriteMode} {a : Action} (h : a.Writes mode) :
    ¬ a.Publishes := by
  rintro hpublishes
  unfold Publishes at hpublishes
  split at hpublishes
  · exact h
  · exact h
  · exact hpublishes

lemma Writes.isIn {mode : WriteMode} {a : Action} (h : a.Writes mode) : a.IsIn mode := by
  unfold IsIn
  split
  · exact h
  · trivial

end Action

namespace World

variable {ρ ι : Type} [Resolver ρ] [Index ι] [AtomicIndex ι]
variable {w w' : World ρ ι} {a : Action} {j : List Action}

lemma Acts.unseen (h : w.Acts a w') (ha : ¬ a.Publishes) :
    LawfulIndex.committed w'.index = LawfulIndex.committed w.index ∧
      LawfulIndex.reader w'.index = LawfulIndex.reader w.index ∧
      AtomicIndex.tally w'.index = AtomicIndex.tally w.index := by
  cases h with
  | consult r => exact ⟨rfl, rfl, rfl⟩
  | announce e =>
    exact ⟨LawfulIndex.committed_announce _ e, AtomicIndex.unseen_announce _ e⟩
  | request r =>
    cases r with
    | write mode key e =>
      exact ⟨LawfulIndex.committed_write rfl, AtomicIndex.unseen_write rfl⟩
    | refreshReaders => exact absurd trivial ha
    | commit =>
      cases ho : (w.request .commit).1 with
      | none =>
        rw [ho] at ha
        exact absurd trivial ha
      | some e =>
        have failed : Index.perform w.index .commit = (some e, (w.request .commit).2.index) :=
          Prod.ext ho rfl
        exact ⟨LawfulIndex.committed_commit_failed failed, AtomicIndex.unseen_commit_failed failed⟩

/-- As long as nothing is committed nothing can be seen. -/
lemma Evolves.unseen (h : w.Evolves j w') (hj : ∀ a ∈ j, ¬ a.Publishes) :
    LawfulIndex.committed w'.index = LawfulIndex.committed w.index ∧
      LawfulIndex.reader w'.index = LawfulIndex.reader w.index ∧
      AtomicIndex.tally w'.index = AtomicIndex.tally w.index := by
  induction h with
  | refl => exact ⟨rfl, rfl, rfl⟩
  | concat _ hact ih =>
    obtain ⟨hcommitted, hreader, htally⟩ := ih fun a ha => hj a (List.mem_append_left _ ha)
    obtain ⟨hcommitted', hreader', htally'⟩ :=
      hact.unseen (hj _ (List.mem_append_right _ (List.mem_singleton_self _)))
    exact ⟨hcommitted'.trans hcommitted, hreader'.trans hreader, htally'.trans htally⟩

lemma Acts.current?_eq_landed {mode : WriteMode} (h : w.Acts a w') (ha : a.IsIn mode) (key : Key) :
    LawfulIndex.current? w'.index key =
      entryAfter mode key (LawfulIndex.current? w.index key) (landed [a]) := by
  cases h with
  | consult r => rfl
  | announce e => exact congrFun (LawfulIndex.current?_announce _ e) key
  | request r =>
    cases r with
    | commit => exact congrFun (LawfulIndex.current?_commit rfl) key
    | refreshReaders => exact congrFun (LawfulIndex.current?_refreshReaders rfl) key
    | write m k e =>
      obtain rfl : m = mode := ha
      cases ho : (w.request (.write m k e)).1 with
      | none =>
        have hwrite : Index.perform w.index (.write m k e) =
            (none, (w.request (.write m k e)).2.index) := Prod.ext ho rfl
        rw [LawfulIndex.current?_write hwrite key]
        show _ = if k = key then _ else _
        by_cases hk : key = k
        · rw [if_pos hk, if_pos hk.symm, hk]
        · rw [if_neg hk, if_neg (Ne.symm hk)]
      | some cause =>
        have hwrite : Index.perform w.index (.write m k e) =
            (some cause, (w.request (.write m k e)).2.index) := Prod.ext ho rfl
        exact congrFun (AtomicIndex.current?_write_failed hwrite) key

/-- The entry of a key changes by the rows for it that have landed. -/
lemma Evolves.current?_eq_landed {mode : WriteMode} (h : w.Evolves j w')
    (hj : ∀ a ∈ j, a.IsIn mode) (key : Key) :
    LawfulIndex.current? w'.index key =
      entryAfter mode key (LawfulIndex.current? w.index key) (landed j) := by
  induction h with
  | refl => rfl
  | concat _ hact ih =>
    rw [hact.current?_eq_landed (hj _ (List.mem_append_right _ (List.mem_singleton_self _))),
      ih fun a ha => hj a (List.mem_append_left _ ha), landed_append, entryAfter_append]

end World

lemma World.Acts.eq_request {ρ ι : Type} [Resolver ρ] [Index ι] {w w' : World ρ ι} {r : Request}
    {o : Option Failure} (h : w.Acts (.requested r o) w') : w' = (w.request r).2 := by
  generalize ha : Action.requested r o = a at h
  cases h with
  | consult | announce => cases ha
  | request =>
    obtain ⟨rfl, -⟩ := Action.requested.inj ha
    rfl

/-! ## What was delivered -/

variable {ρ ι : Type} [Resolver ρ] [Index ι]

namespace World

/-- What is left of some records that are written one after another. -/
def unread (mode : WriteMode) : List Record → World ρ ι → List Record
  | [], _ => []
  | r :: rest, w =>
    match w.writeRecord mode r with
    | (some _, _) => rest
    | (none, w) => unread mode rest w

/-- Records that are written one after another make tales of those that are not left. -/
lemma exists_tales_writeInOrder (mode : WriteMode) (failure : Option Failure)
    (records : List Record) (count : Nat) (w : World ρ ι) :
    ∃ j tales, w.Evolves j (writeInOrder mode failure records count w).2 ∧
      (∀ t ∈ tales, t.IsTrue mode) ∧ j = Tale.deedsOf tales ∧
      Tale.records tales ++ unread mode records w = records := by
  induction records generalizing count w with
  | nil =>
    refine ⟨[], [], ?_, List.forall_mem_nil _, rfl, rfl⟩
    cases failure <;> exact .refl
  | cons r rest ih =>
    obtain ⟨l, hl, story⟩ := exists_story_writeRecord mode r w
    rcases hw : w.writeRecord mode r with ⟨_ | e, w₁⟩
    · rw [hw] at hl story
      obtain ⟨j, tales, evolves, isTrue, rfl, hrecords⟩ := ih (count + 1) w₁
      simp only [writeInOrder, unread, hw]
      refine ⟨_, ⟨⟨r, .finished none⟩, l⟩ :: tales, hl.trans evolves,
        List.forall_mem_cons.2 ⟨story, isTrue⟩, rfl, ?_⟩
      exact congrArg (r :: ·) hrecords
    · rw [hw] at hl story
      simp only [writeInOrder, unread, hw]
      exact ⟨l, [⟨⟨r, .finished (some e)⟩, l⟩], hl, List.forall_mem_singleton.2 story,
        (List.append_nil l).symm, rfl⟩

end World

namespace Plan

/-- The records that a plan has not taken from its streams when its writing is over. -/
def undelivered (p : Plan) (schedule : List Choice) (w : World ρ ι) : List Record :=
  match p.writing with
  | .inOrder s => World.unread p.mode s.records w
  | .byCrew limit feed => (Crew.finish p.mode limit schedule feed w).feed.records

/-- However the records of a plan are written, each task has a record that was delivered. -/
lemma exists_tales_write {p : Plan} (hroom : p.writing.HasRoom) (schedule : List Choice)
    (w : World ρ ι) :
    ∃ j tales, w.Evolves j (p.write schedule w).2 ∧ (∀ t ∈ tales, t.IsTrue p.mode) ∧
      j.Perm (Tale.deedsOf tales) ∧
      (Tale.records tales ++ p.undelivered schedule w).Perm (recordsOf p.writing.streams) := by
  obtain ⟨opening, mode, writing, closing⟩ := p
  cases writing with
  | inOrder s =>
    obtain ⟨j, tales, evolves, isTrue, hj, hrecords⟩ :=
      World.exists_tales_writeInOrder mode s.failure s.records 0 w
    refine ⟨j, tales, evolves, isTrue, List.Perm.of_eq hj, List.Perm.of_eq ?_⟩
    exact hrecords.trans (List.append_nil s.records).symm
  | byCrew limit feed =>
    have reached : Crew.Reachable mode limit (Crew.start feed w)
      (Crew.finish mode limit schedule feed w) := Crew.reachable_finish schedule feed w
    obtain ⟨left, present, j, ledger⟩ := Crew.exists_ledger reached
    obtain rfl : present = [] :=
      List.map_eq_nil_iff.1 (ledger.tasks.trans (Crew.tasks_finish hroom schedule feed w))
    have isTrue := ledger.isTrue
    have perm := ledger.perm
    have records := ledger.records
    rw [List.append_nil] at isTrue perm records
    exact ⟨j, left, ledger.evolves, isTrue, perm, records.symm⟩

end Plan

/-! ## Calls that fail before their commit -/

/-- What a call leaves of some streams that commits nothing: rows of delivered records, of which
nothing can be seen. -/
structure Leaves [AtomicIndex ι] (mode : WriteMode) (streams : List RecordStream)
    (rows : List (Key × Entry)) (w w' : World ρ ι) : Prop where
  committed : LawfulIndex.committed w'.index = LawfulIndex.committed w.index
  reader : LawfulIndex.reader w'.index = LawfulIndex.reader w.index
  tally : AtomicIndex.tally w'.index = AtomicIndex.tally w.index
  /-- The rows are found by the next write of their keys. -/
  current?_eq : ∀ key, LawfulIndex.current? w'.index key =
    entryAfter mode key (LawfulIndex.current? w.index key) rows
  /-- There is a record for each of the rows. -/
  subperm : (rows.map Record.ofRow).Subperm (recordsOf streams)

section Failed

variable {σ : Type} [ColumnStore σ] {strategy : Strategy} {settings : Settings}
  {schemas : Schema.Registry} {store : σ} {shard : Shard} {schedule : List Choice}
  {w w' : World ρ ι} {e : Failure} {p : Plan}

/-- A plan that fails before its commit has written and, at most, tried to commit. -/
lemma Plan.exists_tail_of_uncommitted {complete : Option Int}
    (hclosing : p.closing = complete.map (Event.mk .synced))
    (hcall : p.run schedule w = (.error e, w')) {j : List Action}
    (hj : (w.announce p.opening).Evolves j (p.write schedule (w.announce p.opening)).2)
    (huncommitted : .requested .commit none ∉ w'.since w) :
    ∃ tail, w.Evolves (.announced p.opening :: j ++ tail) w' ∧
      (tail = [] ∧ w' = (p.write schedule (w.announce p.opening)).2 ∨
        ∃ cause, tail = [.requested .commit (some cause)] ∧
          w' = ((p.write schedule (w.announce p.opening)).2.request .commit).2) := by
  have opened := (World.Evolves.refl (w := w)).announce p.opening
  obtain ⟨tail, concluded, conclusion, -⟩ := exists_conclusion hclosing schedule w
  rw [hcall] at concluded conclusion
  have evolves : w.Evolves (.announced p.opening :: j ++ tail) w' :=
    (opened.trans hj).trans concluded
  refine ⟨tail, evolves, ?_⟩
  cases conclusion with
  | unwritten => exact Or.inl ⟨rfl, concluded.eq_of_nil⟩
  | uncommitted =>
    obtain ⟨w₂, hact, hend⟩ := World.Evolves.exists_of_cons concluded
    obtain rfl := hend.eq_of_nil
    exact Or.inr ⟨e, rfl, hact.eq_request⟩
  | unshown =>
    -- the commit that has ended well stands in the journal
    refine absurd ?_ huncommitted
    rw [evolves.since_eq]
    exact List.mem_append_right _ List.mem_cons_self

lemma Plan.leaves_of_uncommitted [AtomicIndex ι] {complete : Option Int}
    (hclosing : p.closing = complete.map (Event.mk .synced)) (hroom : p.writing.HasRoom)
    (hcall : p.run schedule w = (.error e, w'))
    (huncommitted : .requested .commit none ∉ w'.since w) :
    Leaves p.mode p.writing.streams (landed (w'.since w)) w w' ∧
      (∃ delivered,
        (delivered ++ p.undelivered schedule (w.announce p.opening)).Perm
          (recordsOf p.writing.streams) ∧
        ((landed (w'.since w)).map Record.ofRow).Subperm delivered) ∧
      (w' = (p.write schedule (w.announce p.opening)).2 ∨
        w' = ((p.write schedule (w.announce p.opening)).2.request .commit).2) := by
  obtain ⟨j, tales, hj, isTrue, perm, hdelivered⟩ :=
    exists_tales_write hroom schedule (w.announce p.opening)
  obtain ⟨tail, evolves, htail⟩ := exists_tail_of_uncommitted hclosing hcall hj huncommitted
  have writes : ∀ a ∈ j, a.Writes p.mode := by
    intro a ha
    obtain ⟨t, ht, hat⟩ := List.mem_flatMap.1 (perm.mem_iff.1 ha)
    exact Story.writes (isTrue t ht) a hat
  have quiet : ∀ a ∈ tail, ¬ a.Publishes ∧ a.IsIn p.mode := by
    rintro a ha
    rcases htail with ⟨rfl, -⟩ | ⟨cause, rfl, -⟩
    · cases ha
    · rw [List.mem_singleton.1 ha]
      exact ⟨id, trivial⟩
  have hidden : ∀ a ∈ .announced p.opening :: j ++ tail, ¬ a.Publishes ∧ a.IsIn p.mode := by
    intro a ha
    rcases List.mem_append.1 ha with ha | ha
    · rcases List.mem_cons.1 ha with rfl | ha
      · exact ⟨id, trivial⟩
      · exact ⟨(writes a ha).not_publishes, (writes a ha).isIn⟩
    · exact quiet a ha
  have hlanded : landed (w'.since w) = landed j := by
    rw [evolves.since_eq, landed_append]
    have none : landed tail = [] := by
      rcases htail with ⟨rfl, -⟩ | ⟨cause, rfl, -⟩ <;> rfl
    rw [none, List.append_nil]
    rfl
  have subperm : ((landed (w'.since w)).map Record.ofRow).Subperm (Tale.records tales) := by
    rw [hlanded]
    exact ((perm.filterMap _).map _).subperm.trans (Tale.landed_sublist_records isTrue).subperm
  obtain ⟨committed, reader, tally⟩ := evolves.unseen fun a ha => (hidden a ha).1
  refine ⟨⟨committed, reader, tally, fun key => ?_, ?_⟩, ⟨_, hdelivered, subperm⟩, ?_⟩
  · have changes := evolves.current?_eq_landed (fun a ha => (hidden a ha).2) key
    rwa [← evolves.since_eq] at changes
  · exact subperm.trans ((List.sublist_append_left _ _).subperm.trans hdelivered.subperm)
  · rcases htail with ⟨-, hw'⟩ | ⟨cause, -, hw'⟩
    · exact Or.inl hw'
    · exact Or.inr hw'

/-- What a call leaves that fails before its commit. -/
lemma leaves_of_uncommitted [AtomicIndex ι] (hordered : strategy.IsOrdered)
    (hcall : strategy.run settings schemas store shard schedule w = (.error e, w'))
    (huncommitted : .requested .commit none ∉ w'.since w) :
    Leaves strategy.mode (strategy.streams settings schemas store shard) (landed (w'.since w))
      w w' := by
  obtain ⟨p, hp, hmode, -, hclosing, hroom, hstreams⟩ :=
    Strategy.exists_plan settings schemas store shard hordered
  rw [Strategy.run, hp] at hcall
  rw [← hmode, ← hstreams]
  exact (Plan.leaves_of_uncommitted hclosing hroom hcall huncommitted).1

/-- **What a failed call leaves.**  A call that fails before a commit has succeeded, wherever it
fails and under any schedule, leaves what is committed, what readers see and the tally of the
index as they were.  The entries change by the rows that have landed; each of these is the row of a
record that was delivered, one for each.  A call whose hours come in the wrong order leaves the
world as it was.

If the call has a crew, then in the state in which the crew is when the call returns no task is in
flight and nothing more can happen; the world that the call leaves is that of the crew, but for a
commit that was tried. -/
theorem contents_of_uncommitted [AtomicIndex ι]
    (hcall : strategy.run settings schemas store shard schedule w = (.error e, w'))
    (huncommitted : .requested .commit none ∉ w'.since w) :
    LawfulIndex.committed w'.index = LawfulIndex.committed w.index ∧
    LawfulIndex.reader w'.index = LawfulIndex.reader w.index ∧
    AtomicIndex.tally w'.index = AtomicIndex.tally w.index ∧
    (∀ key, LawfulIndex.current? w'.index key =
      entryAfter strategy.mode key (LawfulIndex.current? w.index key) (landed (w'.since w))) ∧
    (¬ strategy.IsOrdered → w' = w) ∧
    ∀ p, strategy.plan settings schemas store shard = .ok p →
      (∃ delivered,
        (delivered ++ p.undelivered schedule (w.announce p.opening)).Perm
          (recordsOf (strategy.streams settings schemas store shard)) ∧
        ((landed (w'.since w)).map Record.ofRow).Subperm delivered) ∧
      ∀ limit feed, p.writing = .byCrew limit feed →
        let crew := Crew.finish p.mode limit schedule feed (w.announce p.opening)
        crew.tasks = [] ∧ (∀ choice, crew.step p.mode limit choice = none) ∧
          (w' = crew.world ∨ w' = (crew.world.request .commit).2) := by
  by_cases hordered : strategy.IsOrdered
  · obtain ⟨p, hp, hmode, -, hclosing, hroom, hstreams⟩ :=
      Strategy.exists_plan settings schemas store shard hordered
    rw [Strategy.run, hp] at hcall
    obtain ⟨leaves, hdelivered, hworld⟩ :=
      Plan.leaves_of_uncommitted hclosing hroom hcall huncommitted
    rw [hstreams] at hdelivered
    refine ⟨leaves.committed, leaves.reader, leaves.tally, hmode ▸ leaves.current?_eq,
      fun hnot => absurd hordered hnot, fun p' hp' => ?_⟩
    obtain rfl : p = p' := Except.ok.inj (hp.symm.trans hp')
    refine ⟨hdelivered, fun limit feed hwriting => ?_⟩
    rw [hwriting] at hroom
    rw [Plan.write, hwriting] at hworld
    exact ⟨Crew.tasks_finish hroom schedule feed _,
      Crew.step_eq_none_of_isOver (Crew.isOver_finish hroom schedule feed _), hworld⟩
  · obtain ⟨first, last, hplan⟩ :=
      Strategy.exists_plan_eq_error settings schemas store shard hordered
    rw [Strategy.run, hplan] at hcall
    obtain ⟨-, rfl⟩ := Prod.mk.inj hcall
    have nothing : landed (w.since w) = [] := by rw [World.Evolves.refl.since_eq]; rfl
    rw [nothing]
    refine ⟨rfl, rfl, rfl, fun key => rfl, fun _ => rfl, fun p hp => ?_⟩
    cases hplan.symm.trans hp

end Failed

/-- Three records of one shard. -/
def threeRecords : RecordLog :=
  ⟨[⟨⟨"metrics", 0⟩, ⟨[170], 10, 20⟩, 0⟩, ⟨⟨"metrics", 0⟩, ⟨[171], 10, 2000⟩, 0⟩,
    ⟨⟨"metrics", 0⟩, ⟨[172], 5, 1500⟩, 0⟩]⟩

/-- An index with an entry for the first of them, and a resolver that breaks down on the second. -/
def brokenWorld : World Rule AnyIndex :=
  ⟨Rule.table (.ofList [([170], 3)]) [[171]],
    .durable (.openOn (.ofList [([170], ⟨0, 1, 1⟩)])), []⟩

/-- A rebuilding by two tasks.  The first is through when the second breaks down. -/
def brokenCall : Except Failure Nat × World Rule AnyIndex :=
  (Strategy.downsample none 9000 (some 2)).run ⟨1, 3000⟩ .empty threeRecords ⟨"metrics", 0⟩
    [.pull 0, .pull 0, .advance 0, .advance 0, .advance 1] brokenWorld

/-- The row of the first record has landed and is found by the next write, but nobody sees it. -/
theorem contents_of_uncommitted_brokenCall :
    brokenCall.1 = .error .task ∧
      landed (brokenCall.2.since brokenWorld) = [([170], ⟨3, 10, 20⟩)] ∧
      brokenCall.2.index.current? [170] = some ⟨3, 10, 20⟩ ∧
      brokenCall.2.index.committed = brokenWorld.index.committed ∧
      brokenCall.2.index.reader.get? [170] = some ⟨0, 1, 1⟩ := by
  have failed : brokenCall.1 = .error .task := by decide +kernel
  have called : brokenCall = (.error .task, brokenCall.2) := Prod.ext failed rfl
  have hlanded : landed (brokenCall.2.since brokenWorld) = [([170], ⟨3, 10, 20⟩)] := by
    decide +kernel
  obtain ⟨committed, reader, -, changes, -⟩ :=
    contents_of_uncommitted called (by decide +kernel)
  rw [hlanded] at changes
  have before : brokenWorld.index.reader.get? [170] = some ⟨0, 1, 1⟩ := by decide +kernel
  exact ⟨failed, hlanded, changes [170], committed, (congrArg (·.get? [170]) reader).trans before⟩

end Bootstrap

end ShardIndex
