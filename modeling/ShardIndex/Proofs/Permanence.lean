import ShardIndex.Proofs.Assignment
import ShardIndex.Proofs.Contents

/-!
# Ids stay

The ids of a table are dense if they are the numbers from nought up to its size, each used once.
An assignment that begins with a dense table counts on from its size, so after a call the ids of
the committed table are those of the assignment, dense again, and no key has lost its id.  This is
so whatever fails in the call, since it commits all that it has assigned, or nothing
(`sound_of_run`).
-/

namespace ShardIndex

open Identity

/-! ## Dense tables -/

namespace Snapshot

/-- Whether the ids in use are the numbers up to the size, each used once. -/
def IsDense (s : Snapshot) : Prop := (s.values.map Entry.id).Perm (List.range s.size)

/-- Whether the ids in use are dense, and none lies beyond the largest that is ever given. -/
structure IsSound (s : Snapshot) : Prop where
  /-- The ids are dense. -/
  dense : s.IsDense
  /-- They are in bounds. -/
  bounded : s.size ≤ maxPartId + 1

/-- Whether every key of a table has its id in another one. -/
def Keeps (s s' : Snapshot) : Prop := ∀ key n, s.id? key = some n → s'.id? key = some n

lemma Keeps.refl (s : Snapshot) : s.Keeps s := fun _ _ h => h

lemma Keeps.trans {s s' s'' : Snapshot} (h : s.Keeps s') (h' : s'.Keeps s'') : s.Keeps s'' :=
  fun key n hkey => h' key n (h key n hkey)

lemma isSound_empty : IsSound Table.empty where
  dense := List.Perm.refl _
  bounded := Nat.zero_le _

end Snapshot

lemma max?_of_perm_range {l : List Nat} {n : Nat} (h : l.Perm (List.range n)) :
    l.max? = if n = 0 then none else some (n - 1) := by
  split
  · rename_i hn
    subst hn
    rw [List.range_zero, List.perm_nil] at h
    rw [h]
    rfl
  · rename_i hn
    rw [List.max?_eq_some_iff]
    refine ⟨h.mem_iff.2 (List.mem_range.2 (by omega)), fun m hm => ?_⟩
    have := List.mem_range.1 (h.mem_iff.1 hm)
    omega

namespace Snapshot

/-- The largest id of a dense table is one less than its size. -/
lemma IsDense.size_eq {s : Snapshot} (h : s.IsDense) :
    s.size = s.maxId.elim 0 (· + 1) := by
  rw [maxId, max?_of_perm_range h]
  split
  · assumption
  · exact (Nat.sub_add_cancel (by omega)).symm

end Snapshot

/-! ## Assignments that begin with a table -/

namespace Identity.Keyed

variable {s : Snapshot}

lemma rows_ofExisting (s : Snapshot) : (ofExisting s.ids).ids.rows.Perm s.ids :=
  Table.rows_ofList_perm s.nodup_keys_ids

lemma get?_ofExisting (s : Snapshot) (key : Key) :
    (ofExisting s.ids).ids.get? key = s.id? key := by
  ext n
  rw [Table.get?_eq_some_iff, (rows_ofExisting s).mem_iff, Snapshot.mem_ids_iff]

/-- Beginning with a sound table, counting goes on from its size. -/
lemma next_ofExisting (h : s.IsSound) : (ofExisting s.ids).counter.next = s.size := by
  have values : (ofExisting s.ids).ids.values.Perm (List.range s.size) := by
    have perm := (rows_ofExisting s).map Prod.snd
    rw [Snapshot.map_snd_ids] at perm
    exact perm.trans h.dense
  have bound : s.size ≤ maxIdField := Nat.le_trans h.bounded (by decide)
  show firstFree (ofExisting s.ids).ids.values = s.size
  rw [firstFree, max?_of_perm_range values]
  by_cases hzero : s.size = 0
  · rw [if_pos hzero, hzero]
  · rw [if_neg hzero]
    show min (s.size - 1 + 1) maxIdField = s.size
    rw [Nat.sub_add_cancel (by omega)]
    exact Nat.min_eq_left bound

/-- A table whose ids are those of an assignment that has grown from a sound one is sound, and
keeps all ids of the first. -/
lemma Grows.isSound {k : Keyed} {news : List Key} {s' : Snapshot}
    (h : (ofExisting s.ids).Grows k news) (hsound : s.IsSound)
    (hids : ∀ key, s'.id? key = k.ids.get? key) : s'.IsSound ∧ s.Keeps s' := by
  have pairs : s'.ids.Perm (s.ids ++ news.zipIdx s.size) := by
    rw [← next_ofExisting hsound]
    refine List.Perm.trans ?_ (h.rows.trans ((rows_ofExisting s).append_right _))
    -- neither lists a pair twice, so it is enough that both have the same pairs
    refine (List.perm_ext_iff_of_nodup s'.nodup_ids k.ids.nodup_rows).2 fun row => ?_
    rw [Snapshot.mem_ids_iff, hids, Table.get?_eq_some_iff]
  have size : s'.size = s.size + news.length := by
    rw [← Snapshot.length_ids, pairs.length_eq, List.length_append, Snapshot.length_ids,
      List.length_zipIdx]
  refine ⟨⟨?_, ?_⟩, fun key n hkey => ?_⟩
  · have ids := pairs.map Prod.snd
    rw [Snapshot.map_snd_ids, List.map_append, Snapshot.map_snd_ids, List.zipIdx_map_snd] at ids
    rw [Snapshot.IsDense, size, List.range_add, ← List.range'_eq_map_range]
    exact ids.trans (hsound.dense.append_right _)
  · rcases h.bounded with rfl | hbound
    · rw [size, List.length_nil, Nat.add_zero]
      exact hsound.bounded
    · rw [size, ← next_ofExisting hsound, ← h.next]
      exact hbound
  · rw [hids]
    exact h.get?_of_some ((get?_ofExisting s key).trans hkey)

end Identity.Keyed

/-! ## Calls on a table -/

namespace Bootstrap

/-- The world of a call on a table, whose ids are given by key, beginning with those of the table,
and whose database may fail. -/
def World.onTable (rows : Snapshot) (troubles : List Bool) : World Keyed TroubledIndex :=
  { resolver := Keyed.ofExisting rows.ids, index := ⟨DurableIndex.openOn rows, troubles⟩ }

section Courses

variable {rows : Snapshot} {troubles : List Bool} {mode : WriteMode} {opens : Int}
  {complete : Option Int} {streams : List RecordStream} {result written? : Except Failure Nat}
  {w' : World Keyed TroubledIndex} {tales : List Tale} {j tail : List Action}

/-- If a call on a table commits, the ids of the committed table are those of its assignment. -/
lemma Course.id?_eq {n : Nat}
    (h : Course mode opens complete streams result (World.onTable rows troubles) w' (.ok n) tales
      j tail)
    (hcommitted : ∀ key, (LawfulIndex.committed w'.index).get? key =
      entryAfter mode key (LawfulIndex.current? (World.onTable rows troubles).index key)
        (written j))
    (key : Key) :
    Snapshot.id? (LawfulIndex.committed w'.index) key = w'.resolver.ids.get? key := by
  obtain ⟨news, grows, hnews, hgiven⟩ := h.exists_news
  rw [Snapshot.id?, hcommitted]
  by_cases hrow : ∃ row ∈ written j, row.1 = key
  · obtain ⟨e, he, row, hmem, hkey, hid⟩ := exists_entryAfter hrow mode
      (LawfulIndex.current? (World.onTable rows troubles).index key)
    obtain ⟨r, hr, ha⟩ := h.account.exists_consulted_of_mem hmem
    rw [he, ← hkey, ← hr, hgiven r _ ha, hid]
    rfl
  · -- every record got a row, so the key is that of no record
    have old : key ∉ news := fun hnew =>
      hrow ((h.account.exists_row_iff key).2 ((hnews key).1 hnew).1)
    rw [entryAfter_eq_of_forall_ne fun row hmem hkey => hrow ⟨row, hmem, hkey⟩,
      grows.get?_of_notMem old]
    exact (Keyed.get?_ofExisting rows key).symm

/-- A call on a sound table leaves a sound one with all its ids. -/
lemma Course.isSound
    (h : Course mode opens complete streams result (World.onTable rows troubles) w' written? tales
      j tail) (hsound : rows.IsSound) :
    w'.index.inner.stored.IsSound ∧ rows.Keeps w'.index.inner.stored := by
  rcases h.committed_eq_or with hsame | ⟨⟨n, rfl⟩, hcommitted⟩
  · have same : w'.index.inner.stored = rows := hsame
    rw [same]
    exact ⟨hsound, .refl rows⟩
  · obtain ⟨news, grows, -⟩ := h.evolves.exists_grows
    exact grows.isSound hsound (h.id?_eq hcommitted)

end Courses

/-- **Ids stay over a call.**  Whatever a call does on a sound table, and wherever it fails, the
table that it leaves is sound and has all ids of the first. -/
theorem sound_of_run {σ : Type} [ColumnStore σ] (strategy : Strategy) (settings : Settings)
    (schemas : Schema.Registry) (store : σ) (shard : Shard) (schedule : List Choice)
    {rows : Snapshot} (hsound : rows.IsSound) (troubles : List Bool) :
    let left := (strategy.run settings schemas store shard schedule
      (World.onTable rows troubles)).2.index.inner.stored
    left.IsSound ∧ rows.Keeps left := by
  intro left
  by_cases hordered : strategy.IsOrdered
  · obtain ⟨written?, tales, j, tail, course⟩ := exists_course hordered settings schemas store
      shard schedule (World.onTable rows troubles)
    exact course.isSound hsound
  · obtain ⟨first, last, hplan⟩ :=
      Strategy.exists_plan_eq_error settings schemas store shard hordered
    have hrun : strategy.run settings schemas store shard schedule (World.onTable rows troubles) =
        (.error (.hoursReversed first last), World.onTable rows troubles) := by
      rw [Strategy.run, hplan]
    have same : left = rows := congrArg (fun p => p.2.index.inner.stored) hrun
    rw [same]
    exact ⟨hsound, .refl rows⟩

end Bootstrap

end ShardIndex
