import ShardIndex.Key

/-!
# Tables

A table is a finite map from keys.  Its rows are kept in the order of their keys, each key once,
so two tables with the same contents are equal (`Table.ext_get?`).  Everything about a table is
said through `get?`: the empty table answers nothing (`get?_empty`), and writing a row changes
the answer for its own key alone (`get?_insert`).
-/

namespace ShardIndex

universe u

/-- A finite map from keys to values, laid out in key order. -/
structure Table (α : Type u) where
  rows : List (Key × α)
  /-- Keys ascend strictly, so none occurs twice. -/
  ascending : rows.Pairwise fun a b => a.1 < b.1

namespace Table

variable {α : Type u}

/-- The table without rows. -/
def empty : Table α := ⟨[], List.Pairwise.nil⟩

instance : Inhabited (Table α) := ⟨empty⟩

/-- The value at a key. -/
def get? (t : Table α) (k : Key) : Option α := t.rows.lookup k

/-- How many keys the table holds. -/
def size (t : Table α) : Nat := t.rows.length

/-- The keys, ascending. -/
def keys (t : Table α) : List Key := t.rows.map Prod.fst

/-- The values, in the order of their keys. -/
def values (t : Table α) : List α := t.rows.map Prod.snd

/-- Put a row in its place, over an earlier row of the same key. -/
def insertRow (k : Key) (v : α) : List (Key × α) → List (Key × α)
  | [] => [(k, v)]
  | (k', v') :: rest =>
    if k < k' then (k, v) :: (k', v') :: rest
    else if k = k' then (k, v) :: rest
    else (k', v') :: insertRow k v rest

theorem mem_insertRow {k : Key} {v : α} {l : List (Key × α)} {x : Key × α}
    (h : x ∈ insertRow k v l) : x = (k, v) ∨ x ∈ l := by
  induction l with
  | nil => simpa [insertRow] using h
  | cons y rest ih =>
    obtain ⟨k', v'⟩ := y
    simp only [insertRow] at h
    split at h
    · simpa using h
    · split at h
      · rcases List.mem_cons.1 h with h | h
        · exact Or.inl h
        · exact Or.inr (List.mem_cons_of_mem _ h)
      · rcases List.mem_cons.1 h with h | h
        · exact Or.inr (h ▸ List.mem_cons_self)
        · rcases ih h with h | h
          · exact Or.inl h
          · exact Or.inr (List.mem_cons_of_mem _ h)

theorem ascending_insertRow (k : Key) (v : α) {l : List (Key × α)}
    (h : l.Pairwise fun a b => a.1 < b.1) :
    (insertRow k v l).Pairwise fun a b => a.1 < b.1 := by
  induction l with
  | nil => simp [insertRow]
  | cons y rest ih =>
    obtain ⟨k', v'⟩ := y
    obtain ⟨hy, hrest⟩ := List.pairwise_cons.1 h
    simp only [insertRow]
    split
    · rename_i hk
      refine List.pairwise_cons.2 ⟨fun z hz => ?_, h⟩
      rcases List.mem_cons.1 hz with rfl | hz
      · exact hk
      · exact Key.lt_trans hk (hy z hz)
    · rename_i hk
      split
      · rename_i he
        exact List.pairwise_cons.2 ⟨fun z hz => he ▸ hy z hz, hrest⟩
      · rename_i he
        refine List.pairwise_cons.2 ⟨fun z hz => ?_, ih hrest⟩
        rcases mem_insertRow hz with rfl | hz
        · exact Classical.byContradiction fun hlt => he (Key.eq_of_not_lt hk hlt)
        · exact hy z hz

/-- Write a row. -/
def insert (t : Table α) (k : Key) (v : α) : Table α :=
  ⟨insertRow k v t.rows, ascending_insertRow k v t.ascending⟩

/-- Write the rows of a list one after another; the last row of a key stays. -/
def insertAll (t : Table α) (rows : List (Key × α)) : Table α :=
  rows.foldl (fun t row => t.insert row.1 row.2) t

/-- The table of a list of rows; the last row of a key stays. -/
def ofList (rows : List (Key × α)) : Table α := empty.insertAll rows

/-- A table with the rows of another written over it. -/
def overlay (t updates : Table α) : Table α := t.insertAll updates.rows

/-! ## What a table answers -/

@[simp] theorem get?_empty (k : Key) : (empty : Table α).get? k = none := rfl

theorem lookup_insertRow (k : Key) (v : α) (l : List (Key × α)) (q : Key)
    (h : l.Pairwise fun a b => a.1 < b.1) :
    (insertRow k v l).lookup q = if q = k then some v else l.lookup q := by
  induction l with
  | nil =>
    by_cases hq : q = k <;> simp [insertRow, List.lookup_cons, beq_eq_false_iff_ne.2, *]
  | cons y rest ih =>
    obtain ⟨k', v'⟩ := y
    obtain ⟨_, hrest⟩ := List.pairwise_cons.1 h
    simp only [insertRow]
    split
    · by_cases hq : q = k <;> simp [List.lookup_cons, beq_eq_false_iff_ne.2, *]
    · split
      · rename_i he
        subst he
        by_cases hq : q = k <;> simp [List.lookup_cons, beq_eq_false_iff_ne.2, *]
      · rename_i he
        rw [List.lookup_cons, List.lookup_cons, ih hrest]
        by_cases hq : q = k'
        · subst hq
          simp [Ne.symm he]
        · simp [beq_eq_false_iff_ne.2 hq]

/-- Writing a row changes what the table answers for that key, and nothing else. -/
@[simp] theorem get?_insert (t : Table α) (k : Key) (v : α) (q : Key) :
    (t.insert k v).get? q = if q = k then some v else t.get? q :=
  lookup_insertRow k v t.rows q t.ascending

theorem lookup_eq_none_of_lt {l : List (Key × α)} {k : Key} (h : ∀ x ∈ l, k < x.1) :
    l.lookup k = none := by
  induction l with
  | nil => rfl
  | cons y rest ih =>
    have hy : k ≠ y.1 := Key.ne_of_lt (h y List.mem_cons_self)
    rw [List.lookup_cons, beq_eq_false_iff_ne.2 hy]
    exact ih fun x hx => h x (List.mem_cons_of_mem _ hx)

theorem lookup_head (x : Key × α) (l : List (Key × α)) : (x :: l).lookup x.1 = some x.2 := by
  obtain ⟨k, v⟩ := x
  simp

/-- The first row of a list that answers like another cannot come before all of the other. -/
theorem not_lt_of_lookup_eq {x y : Key × α} {l m : List (Key × α)}
    (hm : (y :: m).Pairwise fun a b => a.1 < b.1)
    (h : ∀ k, (x :: l).lookup k = (y :: m).lookup k) : ¬ x.1 < y.1 := by
  intro lt
  have absent : (y :: m).lookup x.1 = none := lookup_eq_none_of_lt fun z hz => by
    rcases List.mem_cons.1 hz with rfl | hz
    · exact lt
    · exact Key.lt_trans lt ((List.pairwise_cons.1 hm).1 z hz)
  have := h x.1
  rw [lookup_head, absent] at this
  cases this

theorem rows_eq_of_lookup_eq {l m : List (Key × α)} (hl : l.Pairwise fun a b => a.1 < b.1)
    (hm : m.Pairwise fun a b => a.1 < b.1) (h : ∀ k, l.lookup k = m.lookup k) : l = m := by
  induction l generalizing m with
  | nil =>
    cases m with
    | nil => rfl
    | cons y m => cases (h y.1).trans (lookup_head y m)
  | cons x l ih =>
    cases m with
    | nil => cases (lookup_head x l).symm.trans (h x.1)
    | cons y m =>
      have keys : x.1 = y.1 :=
        Key.eq_of_not_lt (not_lt_of_lookup_eq hm h) (not_lt_of_lookup_eq hl fun k => (h k).symm)
      have values : x.2 = y.2 := by
        have := h x.1
        rw [lookup_head, keys, lookup_head] at this
        exact Option.some.inj this
      obtain ⟨hx, hl⟩ := List.pairwise_cons.1 hl
      obtain ⟨hy, hm⟩ := List.pairwise_cons.1 hm
      have rest : l = m := ih hl hm fun k => by
        by_cases hk : k = x.1
        · rw [hk, lookup_eq_none_of_lt hx, keys, lookup_eq_none_of_lt hy]
        · have := h k
          rwa [List.lookup_cons, List.lookup_cons, beq_eq_false_iff_ne.2 hk,
            beq_eq_false_iff_ne.2 (keys ▸ hk)] at this
      rw [rest, Prod.ext keys values]

/-- Tables that answer alike are equal. -/
theorem ext_get? {t u : Table α} (h : ∀ k, t.get? k = u.get? k) : t = u := by
  obtain ⟨l, hl⟩ := t
  obtain ⟨m, hm⟩ := u
  have : l = m := rows_eq_of_lookup_eq hl hm h
  subst this
  rfl

@[simp] theorem insertAll_nil (t : Table α) : t.insertAll [] = t := rfl

@[simp] theorem insertAll_cons (t : Table α) (row : Key × α) (rows : List (Key × α)) :
    t.insertAll (row :: rows) = (t.insert row.1 row.2).insertAll rows := rfl

theorem insertAll_append (t : Table α) (rows rows' : List (Key × α)) :
    t.insertAll (rows ++ rows') = (t.insertAll rows).insertAll rows' :=
  List.foldl_append

end Table

end ShardIndex
