import ShardIndex.Proofs.Allotment
import ShardIndex.Proofs.EitherStore
import ShardIndex.Proofs.Leftovers
import ShardIndex.Proofs.Views

/-!
# How far a rebuilding gets

A raw rebuilding takes the records one after another: it asks the resolver about a record and writes
its row before it asks about the next one.  So whatever happens the records divide into those that
have landed, each with an id, and those that are left, and what comes after the turns of the first
is a `Halt`: the stream is at its end, or it breaks off there, or the first of those left was not
resolved or not written (`World.exists_landed_writeInOrder`).

A `Landing` says this of a whole call, with what it leaves in the index and what it returns.  Every
raw rebuilding has one, and if its ids are counted out they are those of the stream positions
(`landing_of_raw`).
-/

namespace ShardIndex

namespace Bootstrap

open Identity

/-! ## Records in turn -/

/-- What is done for a record that gets an id and is written. -/
def turn (mode : WriteMode) (x : Record × PartId) : List Action :=
  [.consulted x.1 (.id x.2), .requested (.write mode x.1.key (x.1.entry x.2)) none]

/-- What is done for some records, one after another. -/
def turns (mode : WriteMode) (l : List (Record × PartId)) : List Action := l.flatMap (turn mode)

/-- The row of a record under an id. -/
def rowOf (x : Record × PartId) : Key × Entry := (x.1.key, x.1.entry x.2)

/-- How it ends when the records in front have landed: which records are left, the failure that
there was, and what was still done. -/
inductive Halt (mode : WriteMode) (failure : Option Failure) :
    List Record → Option Failure → List Action → Prop
  /-- The stream is at its end. -/
  | finished : failure = none → Halt mode failure [] none []
  /-- The stream breaks off. -/
  | broken {e : Failure} : failure = some e → Halt mode failure [] (some e) []
  /-- A record was not resolved, or not written. -/
  | failed {r : Record} {e : Failure} {l : List Action} (later : List Record) :
      Story mode r (.finished (some e)) l → Halt mode failure (r :: later) (some e) l

section Views

variable {mode : WriteMode} {failure : Option Failure} {l : List (Record × PartId)}
  {rest : List Record} {outcome : Option Failure} {last : List Action}

lemma granted_turns (mode : WriteMode) (l : List (Record × PartId)) :
    granted (turns mode l) = l.map rowOf := by
  induction l with
  | nil => rfl
  | cons x l ih => exact congrArg (rowOf x :: ·) ih

lemma landed_turns (mode : WriteMode) (l : List (Record × PartId)) :
    landed (turns mode l) = l.map rowOf := by
  induction l with
  | nil => rfl
  | cons x l ih => exact congrArg (rowOf x :: ·) ih

lemma writes_of_mem_turns : ∀ a ∈ turns mode l, a.Writes mode := by
  intro a ha
  obtain ⟨x, -, ha⟩ := List.mem_flatMap.1 ha
  rcases List.mem_cons.1 ha with rfl | ha
  · trivial
  · rw [List.mem_singleton.1 ha]
    rfl

/-- A record that was resolved and written had its turn. -/
lemma Story.exists_turn {r : Record} {l : List Action} (h : Story mode r (.finished none) l) :
    ∃ n, l = turn mode (r, n) := by
  cases h with
  | wrote n => exact ⟨n, rfl⟩

/-- A record that failed has not landed. -/
lemma Story.landed_eq_nil {r : Record} {e : Failure} {l : List Action}
    (h : Story mode r (.finished (some e)) l) : landed l = [] := by
  cases h <;> rfl

lemma Halt.landed_eq_nil (h : Halt mode failure rest outcome last) : landed last = [] := by
  cases h with
  | finished | broken => rfl
  | failed later story => exact story.landed_eq_nil

lemma Halt.writes (h : Halt mode failure rest outcome last) : ∀ a ∈ last, a.Writes mode := by
  cases h with
  | finished | broken => exact List.forall_mem_nil _
  | failed later story => exact story.writes

/-- Without a failure there was none of the stream, and nothing is left. -/
lemma Halt.eq_nil_of_none (h : Halt mode failure rest none last) :
    failure = none ∧ rest = [] ∧ last = [] := by
  cases h with
  | finished hfailure => exact ⟨hfailure, rfl, rfl⟩

/-- A failure is that of the stream, or something that was done has failed. -/
lemma Halt.fails {e : Failure} (h : Halt mode failure rest (some e) last) :
    failure = some e ∨ ∃ a ∈ last, a.Fails := by
  cases h with
  | broken hfailure => exact Or.inl hfailure
  | failed later story => exact Or.inr story.exists_fails

end Views

section Writing

variable {ρ ι : Type} [Resolver ρ] [Index ι]

/-- Records that are written one after another land, up to the first failure, each before the next
one is asked about. -/
lemma World.exists_landed_writeInOrder (mode : WriteMode) (failure : Option Failure)
    (records : List Record) (count : Nat) (w : World ρ ι) :
    ∃ done rest outcome last, records = done.map Prod.fst ++ rest ∧
      Halt mode failure rest outcome last ∧
      w.Evolves (turns mode done ++ last) (w.writeInOrder mode failure records count).2 ∧
      (w.writeInOrder mode failure records count).1 =
        outcome.elim (.ok (count + done.length)) .error := by
  induction records generalizing count w with
  | nil =>
    cases failure with
    | none => exact ⟨[], [], none, [], rfl, .finished rfl, .refl, rfl⟩
    | some e => exact ⟨[], [], some e, [], rfl, .broken rfl, .refl, rfl⟩
  | cons r rest ih =>
    obtain ⟨l, hl, story⟩ := exists_story_writeRecord mode r w
    rcases hw : w.writeRecord mode r with ⟨_ | e, v⟩
    · rw [hw] at hl story
      obtain ⟨n, rfl⟩ := story.exists_turn
      obtain ⟨done, left, outcome, last, rfl, hhalt, evolves, hresult⟩ := ih (count + 1) v
      simp only [writeInOrder, hw]
      refine ⟨(r, n) :: done, left, outcome, last, rfl, hhalt, ?_, ?_⟩
      · rw [turns, List.flatMap_cons, List.append_assoc]
        exact hl.trans evolves
      · rw [hresult, List.length_cons, Nat.add_assoc, Nat.add_comm 1]
    · rw [hw] at hl story
      simp only [writeInOrder, hw]
      exact ⟨[], r :: rest, some e, l, rfl, .failed rest story, hl, rfl⟩

end Writing

/-! ## Rebuildings -/

/-- The course of a raw rebuilding at some time from one world to another: the records that have
landed, with their ids, and those that are left; the failure of its writing, if there was one, and
what was done last in it; and what was done after it. -/
structure Landing {ρ ι : Type} [Resolver ρ] [Index ι] [LawfulIndex ι] (now : Int)
    (s : RecordStream) (result : Except Failure Nat) (w w' : World ρ ι)
    (done : List (Record × PartId)) (rest : List Record) (outcome : Option Failure)
    (last tail : List Action) : Prop where
  /-- The records that have landed come first. -/
  records : s.records = done.map Prod.fst ++ rest
  /-- The writing has ended at the first of those that are left. -/
  halt : Halt .add s.failure rest outcome last
  /-- Each record has landed before the next one is asked about. -/
  evolves : w.Evolves (.announced ⟨.refreshing, now⟩ :: (turns .add done ++ last ++ tail)) w'
  /-- Every answer is what the resolver says when it is asked about these records in this order. -/
  answers : answered (turns .add done ++ last) =
    Resolver.answers w.resolver (consulted (turns .add done ++ last))
  /-- The next write finds, for each key, the last record that has landed, or what was there. -/
  current? : ∀ key, LawfulIndex.current? w'.index key =
    ((done.filter fun x => x.1.key = key).getLast?.map fun x => x.1.entry x.2).or
      (LawfulIndex.current? w.index key)
  /-- A failure ends the call. -/
  failed : ∀ e, outcome = some e → result = .error e ∧ tail = []
  /-- Without one it goes on to the commit. -/
  written : outcome = none → tail ≠ [] ∧ Conclusion (some now) result tail ∧
    ∀ n, result = .ok n → n = done.length
  /-- If it ends well readers see what the next write finds. -/
  shown : ∀ n, result = .ok n →
    outcome = none ∧ (LawfulIndex.reader w'.index).get? = LawfulIndex.current? w'.index

namespace Landing

variable {ρ ι : Type} [Resolver ρ] [Index ι] [LawfulIndex ι] {now : Int} {s : RecordStream}
  {result : Except Failure Nat} {w w' : World ρ ι} {done : List (Record × PartId)}
  {rest : List Record} {outcome : Option Failure} {last tail : List Action}

/-- If nothing fails the call returns the number of records. -/
lemma eq_ok (h : Landing now s result w w' done rest outcome last tail)
    (hstream : s.failure = none) (hfine : ∀ a ∈ w'.since w, ¬ a.Fails) :
    result = .ok s.records.length := by
  rw [h.evolves.since_eq] at hfine
  cases outcome with
  | some e =>
    rcases h.halt.fails with hfailure | ⟨a, ha, hfails⟩
    · rw [hstream] at hfailure
      cases hfailure
    · have done : a ∈ turns .add done ++ last ++ tail :=
        List.mem_append_left _ (List.mem_append_right _ ha)
      exact absurd hfails (hfine a (List.mem_cons_of_mem _ done))
  | none =>
    obtain ⟨hne, conclusion, hcount⟩ := h.written rfl
    obtain ⟨-, hrest, -⟩ := h.halt.eq_nil_of_none
    have ending : ∀ a ∈ tail, ¬ a.Fails := fun a ha =>
      hfine a (List.mem_cons_of_mem _ (List.mem_append_right _ ha))
    rw [h.records, hrest, List.append_nil, List.length_map]
    cases conclusion with
    | unwritten e => exact absurd rfl hne
    | uncommitted e => exact absurd (Option.some_ne_none e) (ending _ (List.mem_singleton_self _))
    | unshown e =>
      have refused := ending _ (List.mem_append_right _ (List.mem_singleton_self _))
      exact absurd (Option.some_ne_none e) refused
    | shown n => rw [hcount n rfl]

/-- If the call ends well every record has landed. -/
lemma records_eq_of_ok {n : Nat} (h : Landing now s (.ok n) w w' done rest outcome last tail) :
    done.map Prod.fst = s.records := by
  obtain ⟨rfl, -⟩ := h.shown n rfl
  obtain ⟨-, hrest, -⟩ := h.halt.eq_nil_of_none
  rw [h.records, hrest, List.append_nil]

/-- Ids that are counted out follow one another as the records do. -/
lemma done_eq_zipIdx {w w' : World Counter ι}
    (h : Landing now s result w w' done rest outcome last tail) :
    done = (done.map Prod.fst).zipIdx w.resolver.next := by
  have evolves := h.evolves
  rw [List.append_assoc, ← List.cons_append] at evolves
  obtain ⟨w₁, hturns, -⟩ := evolves.exists_between
  have ids := hturns.allots.ids
  have given : (granted (.announced ⟨.refreshing, now⟩ :: turns .add done)).map
      (fun row => row.2.id) = done.map Prod.snd := by
    show (granted (turns .add done)).map _ = _
    rw [granted_turns, List.map_map]
    rfl
  rw [given, List.length_map] at ids
  rw [List.zipIdx_eq_zip_range', List.length_map]
  exact List.zip_of_prod rfl ids

end Landing

section Calls

variable {ρ ι : Type} [Resolver ρ] [Index ι]

lemma Plan.run_of_write_eq_error {p : Plan} {schedule : List Choice} {w : World ρ ι} {e : Failure}
    (h : (p.write schedule (w.announce p.opening)).1 = .error e) :
    (p.run schedule w).1 = .error e := by
  rw [run]
  split
  · rename_i e' v hv
    rw [hv] at h
    exact h
  · rename_i n v hv
    rw [hv] at h
    cases h

lemma Conclusion.landed_eq_nil {complete : Option Int} {result : Except Failure Nat}
    {tail : List Action} (h : Conclusion complete result tail) : landed tail = [] := by
  cases h with
  | unwritten | uncommitted => rfl
  | unshown | shown => cases complete <;> rfl

variable [AtomicIndex ι] {σ : Type} [ColumnStore σ]

lemma exists_landing (settings : Settings) (schemas : Schema.Registry) (store : σ) (shard : Shard)
    (schedule : List Choice) (w : World ρ ι) :
    let call := Strategy.raw.run settings schemas store shard schedule w
    ∃ done rest outcome last tail, Landing settings.now (ColumnStore.scan store shard) call.1 w
      call.2 done rest outcome last tail := by
  intro call
  let s := ColumnStore.scan store shard
  let p : Plan :=
    ⟨⟨.refreshing, settings.now⟩, .add, .inOrder s, some ⟨.synced, settings.now⟩⟩
  have hclosing : p.closing = (some settings.now).map (Event.mk .synced) := rfl
  obtain ⟨tail, concluded, conclusion, hne, hcount⟩ := Plan.exists_conclusion hclosing schedule w
  obtain ⟨done, rest, outcome, last, hrecords, halt, writing, hresult⟩ :=
    World.exists_landed_writeInOrder .add s.failure s.records 0 (w.announce p.opening)
  have opened := (World.Evolves.refl (w := w)).announce p.opening
  have evolves : w.Evolves (.announced p.opening :: (turns .add done ++ last ++ tail)) call.2 :=
    (opened.trans writing).trans concluded
  refine ⟨done, rest, outcome, last, tail, hrecords, halt, evolves, writing.answered_eq,
    fun key => ?_, fun e he => ?_, fun hnone => ?_, fun n hn => ?_⟩
  · have inMode : ∀ a ∈ .announced p.opening :: (turns .add done ++ last ++ tail), a.IsIn .add := by
      intro a ha
      rcases List.mem_cons.1 ha with rfl | ha
      · trivial
      · rcases List.mem_append.1 ha with ha | ha
        · rcases List.mem_append.1 ha with ha | ha
          · exact (writes_of_mem_turns a ha).isIn
          · exact (halt.writes a ha).isIn
        · exact conclusion.isIn .add a ha
    have rows : landed (.announced p.opening :: (turns .add done ++ last ++ tail)) =
        done.map rowOf := by
      show landed (turns .add done ++ last ++ tail) = _
      rw [landed_append, landed_append, landed_turns, halt.landed_eq_nil, conclusion.landed_eq_nil,
        List.append_nil, List.append_nil]
    rw [evolves.current?_eq_landed inMode key, rows, entryAfter_add_eq, List.filter_map,
      List.getLast?_map, Option.map_map]
    rfl
  · have hwrite : (p.write schedule (w.announce p.opening)).1 = .error e :=
      hresult.trans (by rw [he]; rfl)
    refine ⟨Plan.run_of_write_eq_error hwrite, ?_⟩
    by_contra htail
    obtain ⟨n, hn⟩ := hne.1 htail
    rw [hwrite] at hn
    cases hn
  · have hwrite : (p.write schedule (w.announce p.opening)).1 = .ok (0 + done.length) :=
      hresult.trans (by rw [hnone]; rfl)
    refine ⟨hne.2 ⟨_, hwrite⟩, conclusion, fun n hn => ?_⟩
    have hcounted := hwrite.symm.trans (hcount n hn)
    rw [← Except.ok.inj hcounted, Nat.zero_add]
  · have hwrite := hcount n hn
    have hnone : outcome = none := by
      cases outcome with
      | none => rfl
      | some e => cases hresult.symm.trans hwrite
    obtain ⟨tales, j, tail', course⟩ := exists_course_of_run_eq_ok (Prod.ext hn rfl)
    exact ⟨hnone, by rw [course.contents_of_ok.2, course.current?_of_ok]⟩

end Calls

/-- **How far a rebuilding gets.**  A raw rebuilding from any stream, with any resolver, on any
index in any state, takes the records in their order: it asks the resolver about a record once, and
the row has landed before it asks about the next one.  If the stream breaks off, or a record is not
resolved or not written, the records before it have landed and the call returns that failure; the
later ones are not asked about, and the next write finds for each key the last record that has
landed, or what was there.  If nothing fails the call returns the number of records, and readers see
what the next write finds.  Ids that are counted out are those of the positions in the stream. -/
theorem landing_of_raw {ι σ : Type} [Index ι] [AtomicIndex ι] [ColumnStore σ] (settings : Settings)
    (schemas : Schema.Registry) (store : σ) (shard : Shard) (schedule : List Choice) :
    let s := ColumnStore.scan store shard
    (∀ {ρ : Type} [Resolver ρ] (w : World ρ ι),
      let call := Strategy.raw.run settings schemas store shard schedule w
      (∃ done rest outcome last tail,
        Landing settings.now s call.1 w call.2 done rest outcome last tail) ∧
      (s.failure = none → (∀ a ∈ call.2.since w, ¬ a.Fails) → call.1 = .ok s.records.length)) ∧
    ∀ w : World Counter ι,
      let call := Strategy.raw.run settings schemas store shard schedule w
      (∀ done rest outcome last tail,
        Landing settings.now s call.1 w call.2 done rest outcome last tail →
        done = (s.records.take done.length).zipIdx w.resolver.next) ∧
      ∀ n, call.1 = .ok n → ∀ key, (LawfulIndex.reader call.2.index).get? key =
        (((s.records.zipIdx w.resolver.next).filter fun x => x.1.key = key).getLast?.map
          fun x => x.1.entry x.2).or (LawfulIndex.current? w.index key) := by
  intro s
  refine ⟨fun w => ?_, fun w => ⟨fun done rest outcome last tail h => ?_, fun n hn key => ?_⟩⟩
  · obtain ⟨done, rest, outcome, last, tail, landing⟩ :=
      exists_landing settings schemas store shard schedule w
    exact ⟨⟨done, rest, outcome, last, tail, landing⟩, landing.eq_ok⟩
  · have first : s.records.take done.length = done.map Prod.fst := by
      rw [h.records]
      exact List.take_left' (List.length_map _)
    rw [first]
    exact h.done_eq_zipIdx
  · obtain ⟨done, rest, outcome, last, tail, landing⟩ :=
      exists_landing settings schemas store shard schedule w
    rw [(landing.shown n hn).2, landing.current? key, landing.done_eq_zipIdx]
    rw [hn] at landing
    rw [landing.records_eq_of_ok]

/-- Three records, of which the first and the last are for one key. -/
def twiceOneKey : RecordLog :=
  ⟨[⟨⟨"metrics", 0⟩, ⟨[170], 10, 20⟩, 0⟩, ⟨⟨"metrics", 0⟩, ⟨[171], 0, 5⟩, 0⟩,
    ⟨⟨"metrics", 0⟩, ⟨[170], 30, 40⟩, 1⟩]⟩

/-- A counter that goes on from 5, and an index in which a write for another key is not committed
yet. -/
def beforeRebuilding (faults : List Fault) : World Counter (Monitored VolatileIndex) :=
  ⟨Counter.startingAt 5, ⟨VolatileIndex.empty.write .add [172] ⟨1, 0, 9⟩, [], faults⟩, []⟩

/-- The rebuilding from the three records. -/
def rebuildingOf (faults : List Fault) :
    Except Failure Nat × World Counter (Monitored VolatileIndex) :=
  Strategy.raw.run ⟨1, 0⟩ .empty twiceOneKey ⟨"metrics", 0⟩ [] (beforeRebuilding faults)

/-- The last record of the key gets the id of its position.  If its write fails, the first one is
what the next write finds. -/
theorem landing_of_raw_twiceOneKey :
    let s := ColumnStore.scan twiceOneKey ⟨"metrics", 0⟩
    let faults : List Fault := [⟨"add", 2, "disk full"⟩]
    (rebuildingOf []).1 = .ok 3 ∧
      (LawfulIndex.reader (rebuildingOf []).2.index).get? [170] = some ⟨7, 30, 40⟩ ∧
      (LawfulIndex.reader (rebuildingOf []).2.index).get? [172] = some ⟨1, 0, 9⟩ ∧
      (rebuildingOf faults).1 = .error (.index "disk full") ∧
      ∃ done rest outcome last tail,
        Landing 0 s (rebuildingOf faults).1 (beforeRebuilding faults) (rebuildingOf faults).2 done
          rest outcome last tail ∧
        done = (s.records.take done.length).zipIdx 5 ∧
        LawfulIndex.current? (rebuildingOf faults).2.index [170] = some ⟨5, 10, 20⟩ := by
  intro s faults
  have whole : (rebuildingOf []).1 = .ok 3 := by decide +kernel
  obtain ⟨landings, counted⟩ := landing_of_raw (ι := Monitored VolatileIndex) ⟨1, 0⟩ .empty
    twiceOneKey ⟨"metrics", 0⟩ []
  obtain ⟨-, shown⟩ := counted (beforeRebuilding [])
  obtain ⟨⟨done, rest, outcome, last, tail, landing⟩, -⟩ := landings (beforeRebuilding faults)
  obtain ⟨ids, -⟩ := counted (beforeRebuilding faults)
  refine ⟨whole, (shown 3 whole _).trans ?_, (shown 3 whole _).trans ?_, ?_, done, rest, outcome,
    last, tail, landing, ids done rest outcome last tail landing, ?_⟩
  · decide +kernel
  · decide +kernel
  · decide +kernel
  · decide +kernel

end Bootstrap

end ShardIndex
