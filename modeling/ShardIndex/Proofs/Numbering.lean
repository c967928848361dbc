import ShardIndex.Source.Paged
import Mathlib.Data.List.Nodup
import Mathlib.Order.Nat

/-!
# Row numbers

A paged store has one row for each key of a shard, and its rows come by ascending number
(`PagedStore.IsSound`).  A write gives a key a new row after all others, so numbers only go up: a
row is never changed, a key that has a row always has one from then on, and no number is used
twice (`PagedStore.Becomes`).
-/

namespace ShardIndex

/-- What a row is the row of: a key in a shard. -/
def Filed.slot (f : Filed) : Shard × Key := (f.shard, f.record.key)

/-- Among rows by ascending number, a number tells a row. -/
lemma StoredRow.eq_of_number_eq {rows : List StoredRow} {row row' : StoredRow}
    (h : rows.Pairwise fun row row' => row.number < row'.number) (hrow : row ∈ rows)
    (hrow' : row' ∈ rows) (hnumber : row.number = row'.number) : row = row' := by
  have distinct : (rows.map StoredRow.number).Nodup :=
    List.pairwise_map.2 (h.imp Nat.ne_of_lt)
  exact List.inj_on_of_nodup_map distinct hrow hrow' hnumber

/-- Among rows by ascending number, none comes after the last. -/
lemma StoredRow.number_le_of_getLast? {rows : List StoredRow} {row last : StoredRow}
    (h : rows.Pairwise fun row row' => row.number < row'.number) (hlast : rows.getLast? = some last)
    (hrow : row ∈ rows) : row.number ≤ last.number := by
  obtain ⟨others, rfl⟩ := List.getLast?_eq_some_iff.1 hlast
  rcases List.mem_append.1 hrow with hrow | hrow
  · exact ((List.pairwise_append.1 h).2.2 row hrow last (List.mem_singleton_self _)).le
  · rw [List.mem_singleton.1 hrow]

namespace PagedStore

variable {t t' t'' : PagedStore} {row row' : StoredRow} {f : Filed} {shard : Shard}

/-! ## Rows in order -/

/-- Rows come by ascending number, which is never zero, and no key of a shard has two. -/
structure IsSound (t : PagedStore) : Prop where
  ascending : t.rows.Pairwise fun row row' => row.number < row'.number
  pos : ∀ row ∈ t.rows, 0 < row.number
  distinct : (t.rows.map fun row => row.filed.slot).Nodup

lemma isSound_empty : IsSound {} :=
  ⟨List.Pairwise.nil, List.forall_mem_nil _, List.nodup_nil⟩

namespace IsSound

/-- A key of a shard tells a row. -/
lemma eq_of_slot_eq (h : t.IsSound) (hrow : row ∈ t.rows) (hrow' : row' ∈ t.rows)
    (hslot : row.filed.slot = row'.filed.slot) : row = row' :=
  List.inj_on_of_nodup_map h.distinct hrow hrow' hslot

/-- No row comes after the last one. -/
lemma number_le_lastNumber (h : t.IsSound) (hrow : row ∈ t.rows) : row.number ≤ t.lastNumber := by
  rw [lastNumber]
  cases hlast : t.rows.getLast? with
  | none =>
    rw [List.getLast?_eq_none_iff.1 hlast] at hrow
    cases hrow
  | some last => exact StoredRow.number_le_of_getLast? h.ascending hlast hrow

end IsSound

/-! ## Writing a row -/

lemma mem_put : row ∈ (t.put f).rows ↔
    row ∈ t.rows ∧ row.filed.slot ≠ f.slot ∨ row = ⟨t.lastNumber + 1, f⟩ := by
  simp only [put, List.mem_append, List.mem_filter, List.mem_singleton, Filed.slot, ne_eq,
    Prod.mk.injEq, decide_not, Bool.not_eq_true', decide_eq_false_iff_not]

lemma lastNumber_put : (t.put f).lastNumber = t.lastNumber + 1 := by
  rw [lastNumber, put, List.getLast?_concat]

lemma IsSound.put (h : t.IsSound) (f : Filed) : (t.put f).IsSound where
  ascending := by
    refine List.pairwise_append.2 ⟨h.ascending.filter _, List.pairwise_singleton _ _, ?_⟩
    intro row hrow last hlast
    rw [List.mem_singleton.1 hlast]
    exact Nat.lt_succ_of_le (h.number_le_lastNumber (List.mem_of_mem_filter hrow))
  pos := by
    intro row hrow
    rcases mem_put.1 hrow with ⟨hrow, -⟩ | rfl
    · exact h.pos row hrow
    · exact Nat.succ_pos _
  distinct := by
    rw [PagedStore.put, List.map_append]
    refine List.nodup_append.2 ⟨h.distinct.sublist (List.filter_sublist.map _),
      List.nodup_singleton _, ?_⟩
    rintro slot hslot other hother rfl
    obtain ⟨row, hrow, rfl⟩ := List.mem_map.1 hslot
    have hne := of_decide_eq_true (List.mem_filter.1 hrow).2
    exact hne (Prod.mk.inj (List.mem_singleton.1 hother))

/-! ## How a store goes on -/

/-- A store has become another by writes: its rows are there still, or rows after all of its own
have taken their places. -/
structure Becomes (t t' : PagedStore) : Prop where
  /-- What has come was put after all that was there. -/
  mem_or_lt : ∀ row ∈ t'.rows, row ∈ t.rows ∨ t.lastNumber < row.number
  /-- What was there has a row in its place, the same or a later one. -/
  exists_le : ∀ row ∈ t.rows, ∃ row' ∈ t'.rows,
    row'.filed.slot = row.filed.slot ∧ row.number ≤ row'.number
  lastNumber_le : t.lastNumber ≤ t'.lastNumber

namespace Becomes

lemma refl (t : PagedStore) : t.Becomes t :=
  ⟨fun _ hrow => Or.inl hrow, fun row hrow => ⟨row, hrow, rfl, le_rfl⟩, le_rfl⟩

lemma trans (h : t.Becomes t') (h' : t'.Becomes t'') : t.Becomes t'' where
  mem_or_lt row hrow := by
    rcases h'.mem_or_lt row hrow with hrow | hlt
    · exact h.mem_or_lt row hrow
    · exact Or.inr (h.lastNumber_le.trans_lt hlt)
  exists_le row hrow := by
    obtain ⟨row', hrow', hslot, hle⟩ := h.exists_le row hrow
    obtain ⟨row'', hrow'', hslot', hle'⟩ := h'.exists_le row' hrow'
    exact ⟨row'', hrow'', hslot'.trans hslot, hle.trans hle'⟩
  lastNumber_le := h.lastNumber_le.trans h'.lastNumber_le

lemma put (h : t.IsSound) (f : Filed) : t.Becomes (t.put f) where
  mem_or_lt row hrow := by
    rcases mem_put.1 hrow with ⟨hrow, -⟩ | rfl
    · exact Or.inl hrow
    · exact Or.inr (Nat.lt_succ_self _)
  exists_le row hrow := by
    -- if the row had to make room, the new one is its successor
    by_cases hslot : row.filed.slot = f.slot
    · exact ⟨_, mem_put.2 (Or.inr rfl), hslot.symm,
        (h.number_le_lastNumber hrow).trans (Nat.le_succ _)⟩
    · exact ⟨row, mem_put.2 (Or.inl ⟨hrow, hslot⟩), rfl, le_rfl⟩
  lastNumber_le := by
    rw [lastNumber_put]
    exact Nat.le_succ _

/-- A number that was used for a row is used for no other. -/
lemma eq_of_number_eq (h : t.Becomes t') (ht : t.IsSound) (hrow : row ∈ t.rows)
    (hrow' : row' ∈ t'.rows) (hnumber : row.number = row'.number) : row = row' := by
  rcases h.mem_or_lt row' hrow' with hmem | hlt
  · exact StoredRow.eq_of_number_eq ht.ascending hrow hmem hnumber
  · have := ht.number_le_lastNumber hrow
    omega

end Becomes

lemma write_eq_ok {batch : List (Record × Int)} (h : t.write shard batch = .ok t') :
    t' = batch.foldl (fun t item => t.put ⟨shard, item.1, item.2⟩) t := by
  simp only [write, bind, Except.bind] at h
  split at h
  · cases h
  · exact (Except.ok.inj h).symm

/-- A batch that is written goes to new rows, one after another. -/
lemma IsSound.write {batch : List (Record × Int)} (ht : t.IsSound)
    (h : t.write shard batch = .ok t') : t'.IsSound ∧ t.Becomes t' := by
  rw [write_eq_ok h]
  clear h
  induction batch generalizing t with
  | nil => exact ⟨ht, .refl t⟩
  | cons item rest ih =>
    obtain ⟨sound, becomes⟩ := ih (ht.put ⟨shard, item.1, item.2⟩)
    exact ⟨sound, (Becomes.put ht _).trans becomes⟩

end PagedStore

end ShardIndex
