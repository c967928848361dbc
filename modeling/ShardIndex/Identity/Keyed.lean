import ShardIndex.Table
import ShardIndex.Identity.Counter

/-!
# Ids by key

A key that has an id keeps it; a key met for the first time gets the next id of a counter.  The
pairs already present in an index can be put in beforehand, and counting then goes on after the
largest of their ids.
-/

namespace ShardIndex.Identity

/-- Ids assigned to keys, with the counter for new ones. -/
structure Keyed where
  ids : Table PartId
  /-- The counter for keys without an id. -/
  counter : Counter

namespace Keyed

/-- No key has an id yet. -/
def fresh : Keyed := ⟨Table.empty, Counter.fresh⟩

/-- The id after the largest of some ids, held within the field of an id. -/
def firstFree (ids : List PartId) : PartId :=
  match ids.max? with
  | none => 0
  | some largest => min (largest + 1) maxIdField

/-- The assignment that an index already holds; of a key given twice the last id stays. -/
def ofExisting (pairs : List (Key × PartId)) : Keyed :=
  let ids := Table.ofList pairs
  ⟨ids, Counter.startingAt (firstFree ids.values)⟩

/-- The id of a key, if it has one. -/
def lookup (k : Keyed) (key : Key) : Option PartId := k.ids.get? key

/-- The id of a key, assigned now if it had none. -/
def assign (k : Keyed) (key : Key) : Except Failure PartId × Keyed :=
  match k.ids.get? key with
  | some id => (.ok id, k)
  | none =>
    match k.counter.allocate with
    | (.error e, counter) => (.error e, { k with counter := counter })
    | (.ok id, counter) => (.ok id, ⟨k.ids.insert key id, counter⟩)

end Keyed

end ShardIndex.Identity
