import ShardIndex.Snapshot
import Mathlib.Data.List.Nodup
import Mathlib.Data.List.Perm.Basic

/-!
# The rows of a table

What a table answers is a matter of which rows it has (`Table.get?_eq_some_iff`), and no two of
its rows have one key.  A row for a new key is one row more (`Table.rows_insert_perm`), so a table
that is written from rows with different keys has just these (`Table.rows_ofList_perm`).  Of any rows
that are written, the last one of a key counts (`Table.get?_insertAll`).
-/

namespace ShardIndex

namespace Table

universe u

variable {α : Type u}

/-- If no key has two rows, a list answers with the rows that it has. -/
lemma lookup_eq_some_iff_mem {l : List (Key × α)} (h : (l.map Prod.fst).Nodup) (k : Key) (v : α) :
    l.lookup k = some v ↔ (k, v) ∈ l := by
  induction l with
  | nil => simp
  | cons row rest ih =>
    obtain ⟨habsent, hrest⟩ := List.nodup_cons.1 h
    obtain ⟨k', v'⟩ := row
    rw [List.lookup_cons, List.mem_cons]
    by_cases hk : k = k'
    · subst hk
      have absent : (k, v) ∉ rest := fun hmem => habsent (List.mem_map.2 ⟨(k, v), hmem, rfl⟩)
      simp [absent, eq_comm]
    · simp [beq_eq_false_iff_ne.2 hk, hk, ih hrest]

/-- No key has two rows. -/
lemma nodup_keys (t : Table α) : (t.rows.map Prod.fst).Nodup :=
  List.pairwise_map.2 (t.ascending.imp Key.ne_of_lt)

lemma nodup_rows (t : Table α) : t.rows.Nodup := List.Nodup.of_map _ t.nodup_keys

/-- A table answers with a value if and only if it has the row. -/
lemma get?_eq_some_iff {t : Table α} {k : Key} {v : α} : t.get? k = some v ↔ (k, v) ∈ t.rows :=
  lookup_eq_some_iff_mem t.nodup_keys k v

/-- A table answers with nothing if and only if it has no row for the key. -/
lemma get?_eq_none_iff {t : Table α} {k : Key} : t.get? k = none ↔ ∀ row ∈ t.rows, row.1 ≠ k := by
  constructor
  · rintro h ⟨k', v⟩ hrow rfl
    cases h.symm.trans (get?_eq_some_iff.2 hrow)
  · intro h
    rw [Option.eq_none_iff_forall_not_mem]
    intro v hv
    exact h (k, v) (get?_eq_some_iff.1 hv) rfl

lemma insertRow_perm {k : Key} {l : List (Key × α)} (h : ∀ row ∈ l, row.1 ≠ k) (v : α) :
    (insertRow k v l).Perm ((k, v) :: l) := by
  induction l with
  | nil => exact List.Perm.refl _
  | cons row rest ih =>
    obtain ⟨hrow, hrest⟩ := List.forall_mem_cons.1 h
    rw [insertRow]
    split
    · exact List.Perm.refl _
    · rw [if_neg (Ne.symm hrow)]
      exact ((ih hrest).cons row).trans (List.Perm.swap _ _ _)

/-- Writing a row for a new key adds it to the others. -/
lemma rows_insert_perm {t : Table α} {k : Key} (h : t.get? k = none) (v : α) :
    (t.insert k v).rows.Perm ((k, v) :: t.rows) :=
  insertRow_perm (get?_eq_none_iff.1 h) v

/-- After some rows were written, the last row of a key counts. -/
lemma get?_insertAll (t : Table α) (rows : List (Key × α)) (k : Key) :
    (t.insertAll rows).get? k = (rows.reverse.lookup k).or (t.get? k) := by
  induction rows generalizing t with
  | nil => rfl
  | cons row rest ih =>
    rw [insertAll_cons, ih, get?_insert, List.reverse_cons, List.lookup_append, Option.or_assoc]
    by_cases hk : k = row.1
    · rw [hk, lookup_head, if_pos rfl, Option.some_or]
    · rw [if_neg hk, List.lookup_cons, beq_eq_false_iff_ne.2 hk]
      rfl

/-- A table written from a list of rows has the last value of each key. -/
lemma get?_ofList (rows : List (Key × α)) (k : Key) :
    (ofList rows).get? k = rows.reverse.lookup k := by
  rw [ofList, get?_insertAll, get?_empty, Option.or_none]

/-- A table that was written over another hides what it has rows for. -/
lemma get?_overlay (t u : Table α) (k : Key) :
    (t.overlay u).get? k = (u.get? k).or (t.get? k) := by
  -- no key has two rows, so it does not matter from which end one looks
  have turned : u.rows.reverse.lookup k = u.get? k := by
    ext v
    have distinct : (u.rows.reverse.map Prod.fst).Nodup := by
      rw [List.map_reverse, List.nodup_reverse]
      exact u.nodup_keys
    rw [lookup_eq_some_iff_mem distinct, List.mem_reverse, get?_eq_some_iff]
  rw [overlay, get?_insertAll, turned]

/-- A table has a row after one was written. -/
lemma size_insert_pos (t : Table α) (k : Key) (v : α) : 0 < (t.insert k v).size := by
  have hrow : (t.insert k v).get? k = some v := by rw [get?_insert, if_pos rfl]
  exact List.length_pos_of_mem (get?_eq_some_iff.1 hrow)

lemma rows_insertAll_perm {t : Table α} {rows : List (Key × α)}
    (hnodup : (rows.map Prod.fst).Nodup) (hnew : ∀ row ∈ rows, t.get? row.1 = none) :
    (t.insertAll rows).rows.Perm (t.rows ++ rows) := by
  induction rows generalizing t with
  | nil => exact List.Perm.of_eq (List.append_nil _).symm
  | cons row rest ih =>
    obtain ⟨habsent, hrest⟩ := List.nodup_cons.1 hnodup
    obtain ⟨hrow, hothers⟩ := List.forall_mem_cons.1 hnew
    have later : ∀ other ∈ rest, (t.insert row.1 row.2).get? other.1 = none := by
      intro other hother
      have hne : other.1 ≠ row.1 := fun heq =>
        habsent (heq ▸ List.mem_map_of_mem hother)
      rw [get?_insert, if_neg hne]
      exact hothers other hother
    have inserted : (t.insert row.1 row.2).rows.Perm (row :: t.rows) := rows_insert_perm hrow row.2
    exact ((ih hrest later).trans (inserted.append_right rest)).trans
      List.perm_middle.symm

/-- A table written from rows with different keys has just these rows. -/
lemma rows_ofList_perm {rows : List (Key × α)} (h : (rows.map Prod.fst).Nodup) :
    (ofList rows).rows.Perm rows :=
  rows_insertAll_perm h fun _ _ => rfl

end Table

namespace Snapshot

lemma mem_ids_iff {s : Snapshot} {key : Key} {n : PartId} :
    (key, n) ∈ s.ids ↔ s.id? key = some n := by
  rw [ids, id?, List.mem_map, Option.map_eq_some_iff]
  constructor
  · rintro ⟨row, hrow, heq⟩
    obtain ⟨rfl, rfl⟩ := Prod.mk.inj heq
    exact ⟨row.2, Table.get?_eq_some_iff.2 hrow, rfl⟩
  · rintro ⟨e, he, rfl⟩
    exact ⟨(key, e), Table.get?_eq_some_iff.1 he, rfl⟩

lemma nodup_keys_ids (s : Snapshot) : (s.ids.map Prod.fst).Nodup := by
  have hkeys : s.ids.map Prod.fst = s.rows.map Prod.fst := List.map_map ..
  rw [hkeys]
  exact s.nodup_keys

lemma nodup_ids (s : Snapshot) : s.ids.Nodup := List.Nodup.of_map _ s.nodup_keys_ids

lemma length_ids (s : Snapshot) : s.ids.length = s.size := List.length_map ..

lemma map_snd_ids (s : Snapshot) : s.ids.map Prod.snd = s.values.map Entry.id := by
  rw [ids, Table.values, List.map_map, List.map_map]
  rfl

end Snapshot

end ShardIndex
