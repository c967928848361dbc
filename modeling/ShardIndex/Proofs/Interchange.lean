import ShardIndex.Proofs.Lawful
import ShardIndex.Proofs.Rows
import Mathlib.Data.List.Sort

/-!
# The index in memory and the index in a table

The two indexes keep what they hold in different ways: one has a whole table for its writer and
copies it on commit, the other has the committed rows and a buffer of what is still to be written
over them.  Asked for the same things they stay in step (`InStep.perform`), with the rows under
the buffer as the writer's table, and after a refresh their readers get the same answers
(`InStep.readAlike`).

The main result is `inStep_performAll`.
-/

namespace ShardIndex

/-! ## Requests one after another -/

namespace Index

variable {ι : Type} [Index ι]

/-- Carry out requests one after another, and note how each went. -/
def performAll : ι → List Request → List (Option Failure) × ι
  | x, [] => ([], x)
  | x, r :: rest =>
    let (outcome, x) := perform x r
    let (outcomes, x) := performAll x rest
    (outcome :: outcomes, x)

lemma performAll_append (x : ι) (rs rs' : List Request) :
    performAll x (rs ++ rs') =
      ((performAll x rs).1 ++ (performAll (performAll x rs).2 rs').1,
        (performAll (performAll x rs).2 rs').2) := by
  induction rs generalizing x with
  | nil => rfl
  | cons r rest ih =>
    simp only [List.cons_append, performAll]
    rw [ih]

end Index

/-! ## What the table tells in the order of ids -/

namespace DurableIndex

lemma map_id_rowsById (x : DurableIndex) :
    (x.rowsById.map fun row => row.2.id) = x.stored.sortedIds := by
  rw [Snapshot.sortedIds, Table.values, List.map_map]
  exact List.map_mergeSort fun _ _ _ _ => rfl

/-- Read in the order of ids, the last row has the largest. -/
lemma maxId_eq (x : DurableIndex) : x.maxId = x.stored.maxId := by
  have hperm : x.stored.sortedIds.Perm (x.stored.values.map Entry.id) := List.mergeSort_perm _ _
  have hsorted : x.stored.sortedIds.Pairwise (· ≤ ·) := List.pairwise_mergeSort' _ _
  rw [maxId, ← List.getLast?_map, map_id_rowsById, Snapshot.maxId]
  rcases List.eq_nil_or_concat' x.stored.sortedIds with hnil | ⟨smaller, last, hlast⟩
  · rw [hnil] at hperm ⊢
    rw [← hperm.nil_eq]
    rfl
  · rw [hlast] at hperm hsorted ⊢
    rw [List.getLast?_concat, eq_comm, List.max?_eq_some_iff]
    refine ⟨hperm.subset List.mem_concat_self, fun n hn => ?_⟩
    rcases List.mem_append.1 (hperm.symm.subset hn) with hn | hn
    · exact (List.pairwise_append.1 hsorted).2.2 n hn last List.mem_cons_self
    · exact (List.mem_singleton.1 hn).le

/-- To sort rows and then choose some comes to the same as to choose first. -/
lemma idsEndedBefore_eq (x : DurableIndex) (time : Int) :
    x.idsEndedBefore time = x.stored.idsEndedBefore time := by
  have sorted : (x.idsEndedBefore time).Pairwise (· ≤ ·) := by
    refine List.pairwise_map.2 (List.Pairwise.filter _ (List.pairwise_map.1 ?_))
    rw [map_id_rowsById]
    exact List.pairwise_mergeSort' _ _
  have chosen : (x.idsEndedBefore time).Perm
      ((x.stored.values.filter fun e => e.endTime < time).map Entry.id) := by
    rw [Table.values, List.filter_map, List.map_map]
    exact ((List.mergeSort_perm _ _).filter _).map _
  exact List.Perm.eq_of_pairwise' sorted (List.pairwise_mergeSort' _ _)
    (chosen.trans (List.mergeSort_perm _ _).symm)

end DurableIndex

/-! ## Step by step -/

/-- The two indexes hold the same. -/
structure InStep (x : VolatileIndex) (y : DurableIndex) : Prop where
  committed : x.committed = y.stored
  /-- The writer's table is the stored one with the buffer over it. -/
  writer : x.writer = y.stored.overlay y.pending
  pending : x.pending = true ↔ 0 < y.pending.size

/-- Readers of the two indexes are told the same, whatever they ask. -/
structure ReadAlike (x : VolatileIndex) (y : DurableIndex) : Prop where
  entry? (key : Key) : x.reader.get? key = y.entry? key
  size : x.reader.size = y.size
  maxId : x.reader.maxId = y.maxId
  idsEndedBefore (time : Int) : x.reader.idsEndedBefore time = y.idsEndedBefore time
  ids : x.reader.ids.Perm y.ids

namespace InStep

variable {x : VolatileIndex} {y : DurableIndex}

/-- New indexes hold the same: nothing. -/
lemma new : InStep VolatileIndex.empty (DurableIndex.openOn Table.empty) :=
  ⟨rfl, rfl, by decide⟩

/-- A writer finds the same entry in both. -/
lemma current? (h : InStep x y) (key : Key) : x.writer.get? key = y.current? key := by
  rw [h.writer]
  exact Table.get?_overlay _ _ _

lemma write (h : InStep x y) (mode : WriteMode) (key : Key) (e : Entry) :
    InStep (x.write mode key e) (y.write mode key e) := by
  refine ⟨h.committed, Table.ext_get? fun k => ?_, ?_⟩
  · calc (x.write mode key e).writer.get? k
        = if k = key then some (mode.apply (x.writer.get? key) e) else x.writer.get? k :=
          LawfulIndex.current?_write (x := x) rfl k
      _ = (y.write mode key e).current? k := by
          rw [h.current?, h.current?, DurableIndex.current?_write]
      _ = _ := (Table.get?_overlay _ _ k).symm
  · have buffered : 0 < (y.write mode key e).pending.size := Table.size_insert_pos _ _ _
    exact ⟨fun _ => buffered, fun _ => rfl⟩

lemma commit (h : InStep x y) : InStep x.commit (y.commit none).2 := by
  rw [DurableIndex.commit_none]
  exact ⟨h.writer, h.writer, by simp [VolatileIndex.commit, Table.size, Table.empty]⟩

lemma refresh (h : InStep x y) : InStep x.refresh (y.refresh none).2 := by
  have refreshed : (y.refresh none).2 =
      { (y.commit none).2 with generation := (y.commit none).2.generation + 1 } := by
    rw [DurableIndex.refresh, DurableIndex.commit_none]
  rw [refreshed, VolatileIndex.refresh]
  split
  · obtain ⟨committed, writer, pending⟩ := h.commit
    exact ⟨committed, writer, pending⟩
  · rename_i unwritten
    -- with an empty buffer a commit changes nothing, so the one left out makes no difference
    have empty : y.pending.rows.isEmpty = true := by
      rw [h.pending, Table.size, List.length_pos_iff, not_not] at unwritten
      rw [unwritten]
      rfl
    rw [DurableIndex.commit, if_pos empty]
    exact ⟨h.committed, h.writer, h.pending⟩

/-- Asked for the same, both carry it out and still hold the same. -/
lemma perform (h : InStep x y) (r : Request) :
    (Index.perform x r).1 = none ∧ (Index.perform y r).1 = none ∧
      InStep (Index.perform x r).2 (Index.perform y r).2 := by
  cases r with
  | write mode key e => exact ⟨rfl, rfl, h.write mode key e⟩
  | commit => exact ⟨rfl, congrArg Prod.fst y.commit_none, h.commit⟩
  | refreshReaders =>
    refine ⟨rfl, ?_, h.refresh⟩
    show (y.refresh none).1 = none
    rw [DurableIndex.refresh, DurableIndex.commit_none]

lemma performAll (h : InStep x y) (rs : List Request) :
    (∀ o ∈ (Index.performAll x rs).1, o = none) ∧
      (Index.performAll x rs).1 = (Index.performAll y rs).1 ∧
      InStep (Index.performAll x rs).2 (Index.performAll y rs).2 := by
  induction rs generalizing x y with
  | nil => exact ⟨List.forall_mem_nil _, rfl, h⟩
  | cons r rest ih =>
    obtain ⟨hx, hy, hstep⟩ := h.perform r
    obtain ⟨hnone, hsame, hrest⟩ := ih hstep
    refine ⟨List.forall_mem_cons.2 ⟨hx, hnone⟩, ?_, hrest⟩
    exact congrArg₂ _ (hx.trans hy.symm) hsame

/-- Readers of the index in memory see what is committed right after a refresh, which is what
readers of the table ask. -/
lemma readAlike (h : InStep x y) (hreader : x.reader = x.committed) : ReadAlike x y := by
  have shown : x.reader = y.stored := hreader.trans h.committed
  constructor
  · intro key
    rw [shown]
    rfl
  · rw [shown]
    rfl
  · rw [shown, y.maxId_eq]
  · intro time
    rw [shown, y.idsEndedBefore_eq]
  · rw [shown]
    exact List.Perm.refl _

end InStep

/-- The index in memory and the one in a table can stand in for each other.  Whatever new ones
are asked for, both carry it out and hold the same after it; and when readers were refreshed last,
readers of both are told the same. -/
theorem inStep_performAll (rs : List Request) :
    let volatile := Index.performAll VolatileIndex.empty
    let durable := Index.performAll (DurableIndex.openOn Table.empty)
    (∀ o ∈ (volatile rs).1, o = none) ∧ (volatile rs).1 = (durable rs).1 ∧
      InStep (volatile rs).2 (durable rs).2 ∧
      ReadAlike (volatile (rs ++ [.refreshReaders])).2 (durable (rs ++ [.refreshReaders])).2 := by
  intro volatile durable
  obtain ⟨hnone, hsame, hrs⟩ := InStep.new.performAll rs
  refine ⟨hnone, hsame, hrs, ?_⟩
  obtain ⟨-, -, hrefreshed⟩ := hrs.perform .refreshReaders
  have last (ι : Type) [Index ι] (x : ι) : (Index.performAll x (rs ++ [.refreshReaders])).2 =
      (Index.perform (Index.performAll x rs).2 .refreshReaders).2 := by
    rw [Index.performAll_append]
    rfl
  rw [last, last]
  exact hrefreshed.readAlike rfl

end ShardIndex
