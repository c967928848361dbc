import ShardIndex.Proofs.Assignment
import ShardIndex.Proofs.Contents
import Mathlib.Data.List.Range

/-!
# Ids that a counter allots

A counter answers each question with the next id until none is left, whoever asks.  So over a
call the ids that it has given are consecutive (`Evolves.allots`), and a call that asks no more
questions than there are ids is never refused one (`Evolves.exists_id_of_le`).

With this and the account of a call, `contents_of_downsample` says what is left when an index is
rebuilt from the records that are still alive.
-/

namespace ShardIndex

namespace Identity.Counter

/-! ## Counters that go on -/

/-- A counter has become another by giving the next ids. -/
structure Allots (c c' : Counter) (l : List PartId) : Prop where
  ids : l = List.range' c.next l.length
  next : c'.next = c.next + l.length
  limit : c'.limit = c.limit

namespace Allots

variable {c c' c'' : Counter} {l l' : List PartId}

lemma refl (c : Counter) : c.Allots c [] := ⟨rfl, rfl, rfl⟩

lemma trans (h : c.Allots c' l) (h' : c'.Allots c'' l') : c.Allots c'' (l ++ l') where
  ids := by
    rw [List.length_append, ← List.range'_append_1, ← h.ids, ← h.next, ← h'.ids]
  next := by rw [h'.next, h.next, List.length_append, Nat.add_assoc]
  limit := h'.limit.trans h.limit

end Allots

/-- A counter that is asked gives its next id, or it is exhausted and stays as it is. -/
lemma allots_resolve {c c' : Counter} {r : Record} {answer : Answer}
    (h : Resolver.resolve c r = (answer, c')) :
    (answer = .id c.next ∧ c.Allots c' [c.next]) ∨
      (∀ n, answer ≠ .id n) ∧ c' = c ∧ c.limit < c.next := by
  have resolved : (Answer.ofExcept c.allocate.1, c.allocate.2) = (answer, c') := h
  obtain ⟨rfl, rfl⟩ := Prod.mk.inj resolved
  by_cases hlimit : c.limit < c.next
  · rw [allocate_of_lt hlimit]
    exact Or.inr ⟨fun n hn => (by cases hn), rfl, hlimit⟩
  · obtain ⟨c', given, hnext, hlimit'⟩ := exists_allocate hlimit
    rw [given]
    exact Or.inl ⟨rfl, rfl, hnext, hlimit'⟩

end Identity.Counter

namespace Bootstrap

open Identity RecordStream

/-! ## What a call is given -/

lemma length_granted_le (j : List Action) : (granted j).length ≤ (consulted j).length := by
  induction j with
  | nil => exact le_rfl
  | cons a rest ih =>
    cases a with
    | consulted r answer =>
      cases answer with
      | id n => exact Nat.succ_le_succ ih
      | refused cause => exact Nat.le_succ_of_le ih
      | panicked => exact Nat.le_succ_of_le ih
    | requested r outcome => exact ih
    | announced e => exact ih

/-- A question that was answered with no id makes for one grant less. -/
lemma length_granted_lt {j : List Action} {r : Record} {answer : Answer}
    (ha : .consulted r answer ∈ j) (hanswer : ∀ n, answer ≠ .id n) :
    (granted j).length < (consulted j).length := by
  obtain ⟨before, after, rfl⟩ := List.append_of_mem ha
  have nothing : granted (.consulted r answer :: after) = granted after := by
    cases answer with
    | id n => exact absurd rfl (hanswer n)
    | refused cause => rfl
    | panicked => rfl
  have asked : consulted (.consulted r answer :: after) = r :: consulted after := rfl
  rw [granted_append, consulted_append, List.length_append, List.length_append, nothing, asked,
    List.length_cons]
  have := length_granted_le before
  have := length_granted_le after
  omega

namespace World

variable {ι : Type} [Index ι] {j : List Action} {a : Action} {w w' : World Counter ι}

lemma Acts.allots (h : w.Acts a w') :
    w.resolver.Allots w'.resolver ((granted [a]).map fun row => row.2.id) := by
  cases a with
  | consulted r answer =>
    rcases Counter.allots_resolve h.resolve with ⟨rfl, hallots⟩ | ⟨hanswer, hsame, -⟩
    · exact hallots
    · have nothing : granted [.consulted r answer] = [] := by
        cases answer with
        | id n => exact absurd rfl (hanswer n)
        | refused cause => rfl
        | panicked => rfl
      rw [nothing, hsame]
      exact .refl _
  | requested r outcome =>
    have nothing : granted [.requested r outcome] = [] := rfl
    cases h with
    | request => exact .refl _
  | announced e =>
    cases h with
    | announce => exact .refl _

/-- Over a journal a counter gives the next ids. -/
theorem Evolves.allots (h : w.Evolves j w') :
    w.resolver.Allots w'.resolver ((granted j).map fun row => row.2.id) := by
  induction h with
  | refl => exact .refl _
  | concat _ hact ih =>
    rw [granted_append, List.map_append]
    exact ih.trans hact.allots

/-- A question is answered with no id only by an exhausted counter. -/
lemma Evolves.lt_of_mem (h : w.Evolves j w') {r : Record} {answer : Answer}
    (ha : .consulted r answer ∈ j) (hanswer : ∀ n, answer ≠ .id n) :
    w.resolver.limit < w'.resolver.next := by
  obtain ⟨before, after, rfl⟩ := List.append_of_mem ha
  obtain ⟨w₁, hbefore, hrest⟩ := h.exists_between
  obtain ⟨w₂, hact, hafter⟩ := hrest.exists_of_cons
  have exhausted : w₁.resolver.limit < w₁.resolver.next := by
    rcases Counter.allots_resolve hact.resolve with ⟨rfl, -⟩ | ⟨-, -, hlimit⟩
    · exact absurd rfl (hanswer _)
    · exact hlimit
  have hnext : w₁.resolver.next ≤ w'.resolver.next := by
    rw [hafter.allots.next, hact.allots.next, Nat.add_assoc]
    exact Nat.le_add_right _ _
  rw [← hbefore.allots.limit]
  omega

/-- With an id left for every question, none is refused. -/
lemma Evolves.exists_id_of_le (h : w.Evolves j w')
    (hroom : w.resolver.next + (consulted j).length ≤ w.resolver.limit + 1) {r : Record}
    {answer : Answer} (ha : .consulted r answer ∈ j) : ∃ n, answer = .id n := by
  by_contra hnone
  have hanswer : ∀ n, answer ≠ .id n := fun n hn => hnone ⟨n, hn⟩
  have exhausted := h.lt_of_mem ha hanswer
  have fewer := length_granted_lt ha hanswer
  rw [h.allots.next, List.length_map] at exhausted
  omega

end World

/-! ## Calls -/

namespace Course

section Counters

variable {ι : Type} [Index ι] {w w' : World Counter ι} {mode : WriteMode} {opens : Int}
  {complete : Option Int} {streams : List RecordStream} {result written? : Except Failure Nat}
  {n : Nat} {tales : List Tale} {j tail : List Action}

/-- A call ends well if the counter has an id for every record and nothing else fails. -/
lemma eq_ok_of_le (h : Course mode opens complete streams result w w' written? tales j tail)
    (hfailures : failuresOf streams = [])
    (hindex : ∀ r o, .requested r o ∈ w'.since w → o = none)
    (hroom : w.resolver.next + (recordsOf streams).length ≤ w.resolver.limit + 1) :
    result = .ok (recordsOf streams).length := by
  rw [h.evolves.since_eq] at hindex
  -- no more questions are asked than there are records
  have asked := h.consulted_subperm.length_le
  refine h.eq_ok_of_forall_not_fails hfailures fun a ha => ?_
  cases a with
  | consulted r answer =>
    obtain ⟨n, rfl⟩ := h.evolves.exists_id_of_le ((Nat.add_le_add_left asked _).trans hroom) ha
    exact fun hfails => hfails n rfl
  | requested r outcome => exact fun hfails => hfails (hindex r outcome ha)
  | announced e => exact id

/-- A call that ends well has written its rows under the next ids, one for each. -/
lemma ids_perm (h : Course mode opens complete streams result w w' (.ok n) tales j tail) :
    ((written j).map fun row => row.2.id).Perm (List.range' w.resolver.next n) ∧
      w'.resolver.next = w.resolver.next + n := by
  have allots := h.evolves.allots
  rw [h.views_eq.2.1] at allots
  have rows := h.account.written_perm.length_eq
  rw [List.length_map, h.account.written_perm_granted.length_eq, h.account.length_eq] at rows
  have given := allots.ids
  rw [List.length_map, rows] at given
  refine ⟨(h.account.written_perm_granted.map _).trans (List.Perm.of_eq given), ?_⟩
  rw [allots.next, List.length_map, rows]

end Counters

section Additions

variable {ρ ι : Type} [Resolver ρ] [Index ι] [LawfulIndex ι] {w w' : World ρ ι} {opens : Int}
  {complete : Option Int} {streams : List RecordStream} {n : Nat} {tales : List Tale}
  {j tail : List Action}

/-- A call that ends well and adds records with distinct keys leaves each row as it has written it,
and no other key's entry is touched. -/
lemma committed_of_add (h : Course .add opens complete streams (.ok n) w w' (.ok n) tales j tail)
    (hkeys : ((recordsOf streams).map Record.key).Nodup) :
    (∀ row ∈ written j, (LawfulIndex.committed w'.index).get? row.1 = some row.2) ∧
      ∀ key, (∀ r ∈ recordsOf streams, r.key ≠ key) →
        (LawfulIndex.committed w'.index).get? key = LawfulIndex.current? w.index key := by
  obtain ⟨hcommitted, -⟩ := h.contents_of_ok
  have distinct : ((written j).map Prod.fst).Nodup := by
    have perm := h.account.written_perm.map Record.key
    rw [List.map_map] at perm
    exact perm.nodup_iff.2 hkeys
  refine ⟨fun row hrow => ?_, fun key hkey => ?_⟩
  · rw [hcommitted, entryAfter_add_of_mem distinct hrow]
  · rw [hcommitted, entryAfter_eq_of_forall_ne]
    intro row hrow heq
    obtain ⟨r, hr, hrkey⟩ := (h.account.exists_row_iff key).1 ⟨row, hrow, heq⟩
    exact hkey r hr hrkey

end Additions

end Course

/-! ## Rebuilding from the records still alive -/

lemma effectiveCheckpoint_lt_iff {checkpoint : Option Int} {now retention t : Int} :
    effectiveCheckpoint checkpoint now retention < t ↔
      clip (now - retention) < t ∧ ∀ p ∈ checkpoint, p < t := by
  cases checkpoint with
  | none => simp [effectiveCheckpoint]
  | some p =>
    simp only [effectiveCheckpoint, Option.mem_some_iff, forall_eq']
    omega

section Downsampling

variable {σ : Type} [ColumnStore σ] (store : σ) (shard : Shard) (checkpoint : Option Int)
  (now retention : Int)

/-- The records of a shard that are still alive: their windows end within the retention, and after
what was persisted as complete. -/
def alive : List Record :=
  (ColumnStore.scan store shard).records.filter fun r =>
    clip (now - retention) < r.endTime ∧ ∀ p ∈ checkpoint, p < r.endTime

lemma recordsOf_streams_downsample (settings : Settings) (schemas : Schema.Registry)
    (parallelism : Option Nat) :
    recordsOf ((Strategy.downsample checkpoint retention parallelism).streams settings schemas
      store shard) = alive store shard checkpoint settings.now retention := by
  rw [Strategy.streams, recordsOf_cons, alive, ← List.filterMap_eq_filter]
  simp only [RecordStream.filterMap, effectiveCheckpoint_lt_iff, Option.guard, decide_eq_true_eq]
  exact List.append_nil _

variable {store shard checkpoint}

/-- **What a rebuilding from the records still alive leaves.**  Say the keys of a shard are
distinct, nothing is pending in the index, the counter has an id for each record that is alive, and
neither the source nor the index fails.  Then the call ends well and returns their number.  It has
written just these records, each once with its own window; their ids are the next ones, each used
once, and readers find each row as it was written.  Every other key has the entry that it had. -/
theorem contents_of_downsample {ι : Type} [Index ι] [LawfulIndex ι] {settings : Settings}
    {schemas : Schema.Registry} {retention : Int} {parallelism : Option Nat}
    {schedule : List Choice} {result : Except Failure Nat} {w w' : World Counter ι}
    (hcall : (Strategy.downsample checkpoint retention parallelism).run settings schemas store shard
      schedule w = (result, w'))
    (hkeys : ((ColumnStore.scan store shard).records.map Record.key).Nodup)
    (hsource : (ColumnStore.scan store shard).failure = none)
    (hindex : ∀ r o, .requested r o ∈ w'.since w → o = none)
    (hsettled : LawfulIndex.current? w.index = (LawfulIndex.committed w.index).get?)
    (hroom : w.resolver.next + (alive store shard checkpoint settings.now retention).length ≤
      w.resolver.limit + 1) :
    let live := alive store shard checkpoint settings.now retention
    let rows := written (w'.since w)
    result = .ok live.length ∧
    (rows.map Record.ofRow).Perm live ∧
    (rows.map fun row => row.2.id).Perm (List.range' w.resolver.next live.length) ∧
    (∀ row ∈ rows, (LawfulIndex.committed w'.index).get? row.1 = some row.2) ∧
    (∀ key, (∀ r ∈ live, r.key ≠ key) →
      (LawfulIndex.committed w'.index).get? key = (LawfulIndex.committed w.index).get? key) ∧
    LawfulIndex.reader w'.index = LawfulIndex.committed w'.index ∧
    w'.resolver.next = w.resolver.next + live.length := by
  intro live rows
  have ordered : (Strategy.downsample checkpoint retention parallelism).IsOrdered := trivial
  obtain ⟨written?, tales, j, tail, course⟩ :=
    exists_course ordered settings schemas store shard schedule w
  rw [hcall] at course
  have records : recordsOf ((Strategy.downsample checkpoint retention parallelism).streams settings
      schemas store shard) = live := recordsOf_streams_downsample ..
  have failures : failuresOf ((Strategy.downsample checkpoint retention parallelism).streams
      settings schemas store shard) = [] := List.filterMap_cons_none hsource
  have distinct : (live.map Record.key).Nodup := hkeys.sublist (List.filter_sublist.map _)
  have hrows : rows = written j := by
    show written (w'.since w) = written j
    rw [course.evolves.since_eq, course.views_eq.2.2]
  obtain rfl : result = _ := course.eq_ok_of_le failures hindex (records ▸ hroom)
  obtain rfl := course.count _ rfl
  obtain ⟨hids, hnext⟩ := course.ids_perm
  obtain ⟨hwritten, hothers⟩ := course.committed_of_add (records ▸ distinct)
  rw [records] at hids hnext hothers
  rw [hsettled] at hothers
  refine ⟨by rw [records], ?_, hrows ▸ hids, hrows ▸ hwritten, hothers, course.contents_of_ok.2,
    hnext⟩
  rw [hrows, ← records]
  exact course.account.written_perm

end Downsampling

/-- Three series, of which one ended long ago. -/
def threeSeries : RecordLog :=
  ⟨[⟨⟨"metrics", 0⟩, ⟨[170], 10, 20⟩, 0⟩, ⟨⟨"metrics", 0⟩, ⟨[171], 10, 2000⟩, 0⟩,
    ⟨⟨"metrics", 0⟩, ⟨[172], 5, 1500⟩, 0⟩]⟩

/-- An index with entries for two of them, and a counter. -/
def threeSeriesWorld : World Counter AnyIndex :=
  ⟨.startingAt 7, .durable (.openOn (.ofList [([170], ⟨0, 1, 1⟩), ([171], ⟨1, 1, 3⟩)])), []⟩

/-- A rebuilding by two tasks, of which the second gets an id first. -/
def threeSeriesCall : Except Failure Nat × World Counter AnyIndex :=
  (Strategy.downsample (some 1000) 2500 (some 2)).run ⟨1, 3000⟩ .empty threeSeries ⟨"metrics", 0⟩
    [.pull 0, .pull 0, .advance 1] threeSeriesWorld

/-- The two series that are alive are written under the next two ids, one of them over an old
entry.  The other old entry stays. -/
theorem contents_of_downsample_threeSeries :
    threeSeriesCall.1 = .ok 2 ∧ threeSeriesCall.2.resolver.next = 9 ∧
      threeSeriesCall.2.index.committed.get? [170] = some ⟨0, 1, 1⟩ ∧
      threeSeriesCall.2.index.committed.get? [171] = some ⟨8, 10, 2000⟩ ∧
      threeSeriesCall.2.index.committed.get? [172] = some ⟨7, 5, 1500⟩ := by
  have done : threeSeriesCall.2.since threeSeriesWorld =
      [.announced ⟨.refreshing, 1000⟩, .consulted ⟨[172], 5, 1500⟩ (.id 7),
        .consulted ⟨[171], 10, 2000⟩ (.id 8), .requested (.write .add [171] ⟨8, 10, 2000⟩) none,
        .requested (.write .add [172] ⟨7, 5, 1500⟩) none, .requested .commit none,
        .requested .refreshReaders none] := by decide +kernel
  have live : alive threeSeries ⟨"metrics", 0⟩ (some 1000) (Settings.now ⟨1, 3000⟩) 2500 =
      [⟨[171], 10, 2000⟩, ⟨[172], 5, 1500⟩] := by decide +kernel
  have called : threeSeriesCall = (threeSeriesCall.1, threeSeriesCall.2) := rfl
  have carriedOut (r : Request) (o : Option Failure)
      (h : .requested r o ∈ threeSeriesCall.2.since threeSeriesWorld) : o = none := by
    rw [done] at h
    simp only [List.mem_cons, reduceCtorEq, Action.requested.injEq, false_or, List.not_mem_nil,
      or_false] at h
    rcases h with ⟨-, h⟩ | ⟨-, h⟩ | ⟨-, h⟩ | ⟨-, h⟩ <;> exact h
  obtain ⟨hresult, -, -, hwritten, hothers, -, hnext⟩ :=
    contents_of_downsample called (by decide) rfl carriedOut (funext fun _ => rfl)
      (by rw [live]; decide)
  rw [live] at hresult hothers hnext
  rw [done] at hwritten
  refine ⟨hresult, hnext, hothers [170] (by decide), ?_, ?_⟩
  · exact hwritten ([171], ⟨8, 10, 2000⟩) (by decide)
  · exact hwritten ([172], ⟨7, 5, 1500⟩) (by decide)

end Bootstrap

end ShardIndex
