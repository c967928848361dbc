import ShardIndex.Proofs.Assignment
import Mathlib.Data.List.Induction
import Mathlib.Order.Bounds.Defs

/-!
# Keys that come to have an id

Calls that assign ids to keys come one at a time, whoever makes them, so a list of keys says what
was asked so far.  The keys among them that had no id to begin with are given the next ids, in the
order in which they first come, until the last id is given (`Keyed.grows_after`).

So an assignment that begins with the pairs of an index numbers new keys from the largest id of
these pairs on, and whoever has an id keeps it, also when no id is left (`Keyed.ids_after_seeds`).
-/

namespace ShardIndex.Identity.Keyed

/-! ## Calls in a row -/

/-- The assignment after some keys were asked for, one after another. -/
def after (k : Keyed) (calls : List Key) : Keyed := calls.foldl (fun k key => (k.assign key).2) k

/-- The keys of some calls that have no id to begin with, in the order in which they first come. -/
def newcomers (k : Keyed) (calls : List Key) : List Key :=
  (calls.filter fun key => (k.lookup key).isNone).eraseDups

section Calls

variable {k : Keyed} {calls : List Key} {key : Key}

lemma after_append_singleton (k : Keyed) (calls : List Key) (key : Key) :
    k.after (calls ++ [key]) = ((k.after calls).assign key).2 :=
  List.foldl_append

lemma mem_newcomers_iff : key ∈ k.newcomers calls ↔ key ∈ calls ∧ k.lookup key = none := by
  rw [newcomers, List.mem_eraseDups, List.mem_filter, Option.isNone_iff_eq_none]

/-- A call whose key has an id, or was asked for before, brings no newcomer. -/
lemma newcomers_append_of_known (h : k.lookup key ≠ none ∨ key ∈ k.newcomers calls) :
    k.newcomers (calls ++ [key]) = k.newcomers calls := by
  rw [newcomers, List.filter_append, List.eraseDups_append, newcomers]
  have nothing : ([key].filter fun key => (k.lookup key).isNone).removeAll
      (calls.filter fun key => (k.lookup key).isNone) = [] := by
    rcases h with hkey | hmem
    · have known : (k.lookup key).isNone = false := by
        rwa [← Bool.not_eq_true, Option.isNone_iff_eq_none]
      simp [known]
    · obtain ⟨hasked, hkey⟩ := mem_newcomers_iff.1 hmem
      simp [List.removeAll, hasked, hkey]
  rw [nothing, List.eraseDups_nil, List.append_nil]

/-- A call for any other key brings this key. -/
lemma newcomers_append_of_unknown (hkey : k.lookup key = none) (hmem : key ∉ k.newcomers calls) :
    k.newcomers (calls ++ [key]) = k.newcomers calls ++ [key] := by
  have hasked : key ∉ calls := fun hasked => hmem (mem_newcomers_iff.2 ⟨hasked, hkey⟩)
  rw [newcomers, List.filter_append, List.eraseDups_append, newcomers]
  simp [List.removeAll, hasked, hkey, List.eraseDups_cons]

/-- Over some calls an assignment grows by the newcomers, until no id is left to give. -/
theorem grows_after (k : Keyed) (calls : List Key) :
    k.Grows (k.after calls) ((k.newcomers calls).take (k.counter.limit + 1 - k.counter.next)) := by
  induction calls using List.reverseRecOn with
  | nil =>
    show k.Grows k (List.take _ [])
    rw [List.take_nil]
    exact Grows.refl k
  | append_singleton calls key ih =>
    have hnext := ih.next
    rw [List.length_take] at hnext
    rw [after_append_singleton]
    rcases (k.after calls).assign_cases key with
      ⟨n, hkey, hassign⟩ | ⟨hkey, hlimit, k', hassign, grows⟩ | ⟨hkey, hlimit, hassign⟩ <;>
      rw [hassign]
    · -- the key has its id from the beginning, or it was a newcomer before
      have known : k.lookup key ≠ none ∨ key ∈ k.newcomers calls := by
        rcases ih.get?_eq_some_iff.1 hkey with hold | hnew
        · exact Or.inl fun hnone => by cases hnone.symm.trans hold
        · exact Or.inr (List.mem_of_mem_take (List.fst_mem_of_mem_zipIdx hnew))
      rw [newcomers_append_of_known known]
      exact ih
    · -- an id is left, so all newcomers so far have one, and this key is not among them
      rw [ih.limit] at hlimit
      have room : (k.newcomers calls).length < k.counter.limit + 1 - k.counter.next := by omega
      rw [List.take_of_length_le (Nat.le_of_lt room)] at ih
      have hlookup : k.lookup key = none := by
        refine Option.eq_none_iff_forall_not_mem.2 fun n hn => ?_
        cases hkey.symm.trans (ih.get?_of_some hn)
      have hmem : key ∉ k.newcomers calls := fun hmem => by
        have known := ih.isSome_of_mem hmem
        rw [hkey] at known
        cases known
      have fits : (k.newcomers calls ++ [key]).length ≤ k.counter.limit + 1 - k.counter.next := by
        rw [List.length_append]
        exact room
      rw [newcomers_append_of_unknown hlookup hmem, List.take_of_length_le fits]
      exact ih.trans grows
    · -- no id is left, so no newcomer more gets one
      rw [ih.limit] at hlimit
      have full : k.counter.limit + 1 - k.counter.next ≤ (k.newcomers calls).length := by omega
      by_cases known : k.lookup key ≠ none ∨ key ∈ k.newcomers calls
      · rw [newcomers_append_of_known known]
        exact ih
      · rw [not_or, not_not] at known
        rw [newcomers_append_of_unknown known.1 known.2, List.take_append_of_le_length full]
        exact ih

lemma assign_of_lookup {n : PartId} (h : k.lookup key = some n) : k.assign key = (.ok n, k) := by
  rcases k.assign_cases key with ⟨m, hkey, hassign⟩ | ⟨hkey, -⟩ | ⟨hkey, -⟩
  · obtain rfl : n = m := Option.some.inj (h.symm.trans hkey)
    exact hassign
  · cases h.symm.trans hkey
  · cases h.symm.trans hkey

end Calls

/-! ## Seeds -/

section Seeds

variable {seeds : List (Key × PartId)}

lemma lookup_ofExisting (seeds : List (Key × PartId)) (key : Key) :
    (ofExisting seeds).lookup key = seeds.reverse.lookup key :=
  Table.get?_ofList seeds key

lemma mem_values_ofExisting_iff {n : PartId} :
    n ∈ (ofExisting seeds).ids.values ↔ ∃ key, (ofExisting seeds).lookup key = some n := by
  simp only [Table.values, List.mem_map, Prod.exists, exists_eq_right, lookup,
    Table.get?_eq_some_iff]

/-- After a seed, counting begins with the number after the largest id in use. -/
lemma next_ofExisting_of_isGreatest {largest : PartId}
    (h : IsGreatest {n | ∃ key, (ofExisting seeds).lookup key = some n} largest) :
    (ofExisting seeds).counter.next = min (largest + 1) maxIdField := by
  have hmax : (ofExisting seeds).ids.values.max? = some largest :=
    List.max?_eq_some_iff.2 ⟨mem_values_ofExisting_iff.2 h.1,
      fun n hn => h.2 (mem_values_ofExisting_iff.1 hn)⟩
  show firstFree (ofExisting seeds).ids.values = _
  rw [firstFree, hmax]

/-- The ids that are left after a seed are larger than all ids in use. -/
lemma lt_of_next_ofExisting_le {key : Key} {n m : Nat}
    (hkey : (ofExisting seeds).lookup key = some n) (hnext : (ofExisting seeds).counter.next ≤ m)
    (hm : m ≤ maxPartId) : n < m := by
  have hn := mem_values_ofExisting_iff.2 ⟨key, hkey⟩
  obtain ⟨largest, hmax⟩ := Option.isSome_iff_exists.1 (List.isSome_max?_of_mem hn)
  obtain ⟨hlargest, hle⟩ := List.max?_eq_some_iff.1 hmax
  have greatest : IsGreatest {n | ∃ key, (ofExisting seeds).lookup key = some n} largest :=
    ⟨mem_values_ofExisting_iff.1 hlargest, fun n hn => hle n (mem_values_ofExisting_iff.2 hn)⟩
  have hlargest : n ≤ largest := hle n hn
  rw [next_ofExisting_of_isGreatest greatest] at hnext
  -- the id field holds more than may be given, so nothing that is left lies at its end
  have hfield : m < maxIdField := Nat.lt_of_le_of_lt hm (by decide)
  omega

end Seeds

/-- **Ids by key, from a seed on.**  Begin with the pairs of an index, whatever their ids, and let
keys be asked for in any order.

A key of the seed has the last id that it was given there; an earlier one is not in use.  The other
keys are given ids one after another in the order in which they first come: from nought if the seed
is empty, else from the number after the largest id in use, up to the last id that may be given.  So
no two keys of which one is new have the same id.

Whatever has been asked, a key that has an id is answered with it ever after.  Any other key is
answered with the next id, which it then has; or, if that is too large, with a failure, and nothing
has changed. -/
theorem ids_after_seeds (seeds : List (Key × PartId)) (calls : List Key) :
    let seeded := ofExisting seeds
    let first := seeded.counter.next
    let news := (seeded.newcomers calls).take (maxPartId + 1 - first)
    let k := seeded.after calls
    (∀ key, seeded.lookup key = seeds.reverse.lookup key) ∧
    (seeds = [] → first = 0) ∧
    (∀ largest, IsGreatest {n | ∃ key, seeded.lookup key = some n} largest →
      first = min (largest + 1) maxIdField) ∧
    (∀ key n, k.lookup key = some n ↔
      seeded.lookup key = some n ∨ (key, n) ∈ news.zipIdx first) ∧
    k.counter.next = first + news.length ∧
    (∀ key n, (key, n) ∈ news.zipIdx first →
      n ≤ maxPartId ∧ ∀ key', k.lookup key' = some n → key' = key) ∧
    (∀ key n, k.lookup key = some n → ∀ later,
      (k.after later).assign key = (.ok n, k.after later)) ∧
    ∀ key, k.lookup key = none →
      (k.counter.next ≤ maxPartId ∧
        k.assign key = (.ok k.counter.next, seeded.after (calls ++ [key])) ∧
        (seeded.after (calls ++ [key])).lookup key = some k.counter.next) ∨
      (maxPartId < k.counter.next ∧ k.assign key = (.error (.idsExhausted k.counter.next), k)) := by
  intro seeded first news k
  have grows : seeded.Grows k news := seeded.grows_after calls
  have hlimit : k.counter.limit = maxPartId := grows.limit
  refine ⟨lookup_ofExisting seeds, fun hseeds => by subst hseeds; rfl,
    fun _ => next_ofExisting_of_isGreatest, fun key n => grows.get?_eq_some_iff, grows.next,
    fun key n hnew => ?_, fun key n hkey later => ?_, fun key hkey => ?_⟩
  · have hle : first ≤ n := List.le_snd_of_mem_zipIdx hnew
    have hlt : n < first + news.length := List.snd_lt_add_of_mem_zipIdx hnew
    have hlast : n ≤ maxPartId := by
      have hlength : news.length ≤ maxPartId + 1 - first := List.length_take_le _ _
      omega
    refine ⟨hlast, fun key' hkey' => ?_⟩
    rcases grows.get?_eq_some_iff.1 hkey' with hold | hnew'
    · exact absurd (lt_of_next_ofExisting_le hold hle hlast) (Nat.lt_irrefl n)
    · -- two newcomers with one number have one place in the list
      obtain ⟨i, rfl⟩ := Nat.exists_eq_add_of_le hle
      have place := List.mk_add_mem_zipIdx_iff_getElem?.1 hnew
      have place' := List.mk_add_mem_zipIdx_iff_getElem?.1 hnew'
      exact Option.some.inj (place'.symm.trans place)
  · exact assign_of_lookup ((k.grows_after later).get?_of_some hkey)
  · have hafter : seeded.after (calls ++ [key]) = (k.assign key).2 := after_append_singleton ..
    rw [hafter]
    rcases k.assign_cases key with
      ⟨n, hknown, -⟩ | ⟨-, hnext, k', hassign, grows'⟩ | ⟨-, hnext, hassign⟩
    · cases hkey.symm.trans hknown
    · rw [hlimit] at hnext
      rw [hassign]
      exact Or.inl ⟨hnext, rfl, grows'.get?_of_getElem? (i := 0) rfl⟩
    · rw [hlimit] at hnext
      exact Or.inr ⟨hnext, hassign⟩

/-- A key that is seeded twice, and a last id that is given to the first of two new keys. -/
example :
    let k := (ofExisting [([170], 9), ([171], 3), ([170], 2147483646)]).after [[1], [2], [1]]
    (k.assign [1]).1 = .ok 2147483647 ∧ (k.assign [2]).1 = .error (.idsExhausted 2147483648) ∧
      (k.assign [170]).1 = .ok 2147483646 := by
  decide

end ShardIndex.Identity.Keyed
