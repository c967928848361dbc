import ShardIndex.Identity.Keyed

/-!
# Resolvers

Whoever builds an index does not choose the ids: a resolver does, one record at a time, and may
remember what it has answered.  Counters, assignments by key and plain rules are resolvers.
-/

namespace ShardIndex.Identity

/-- What a resolver says about a record. -/
inductive Answer
  | id (n : PartId)
  | refused (cause : Failure)
  /-- The resolver broke down. -/
  | panicked
deriving DecidableEq, Repr

/-- States that can be asked for the id of a record. -/
class Resolver (ρ : Type) where
  resolve : ρ → Record → Answer × ρ

/-- The outcome of an allocation as an answer. -/
def Answer.ofExcept : Except Failure PartId → Answer
  | .ok n => .id n
  | .error cause => .refused cause

/-- A counter gives every record an id of its own. -/
instance : Resolver Counter where
  resolve c _ := let (result, c) := c.allocate; (Answer.ofExcept result, c)

/-- An assignment gives every key an id of its own. -/
instance : Resolver Keyed where
  resolve k r := let (result, k) := k.assign r.key; (Answer.ofExcept result, k)

/-- A resolver that remembers nothing. -/
structure Rule where
  answer : Record → Answer

instance : Resolver Rule where
  resolve rule r := (rule.answer r, rule)

/-- The rule that takes the length of a key for its id. -/
def Rule.length : Rule := ⟨fun r => .id r.key.length⟩

/-- The rule that breaks down on some keys, knows the ids of others and refuses the rest. -/
def Rule.table (ids : Table PartId) (panics : List Key) : Rule :=
  ⟨fun r =>
    if r.key ∈ panics then .panicked
    else match ids.get? r.key with
      | some n => .id n
      | none => .refused (.resolver ("no id for " ++ Text.Hex.text r.key))⟩

/-- One of the resolvers above, chosen when the program runs. -/
inductive Policy
  /-- A fresh id for every record. -/
  | counter (c : Counter)
  /-- An id for every key. -/
  | keyed (k : Keyed)
  /-- A rule without memory. -/
  | rule (r : Rule)

instance : Resolver Policy where
  resolve
    | .counter c, r => let (answer, c) := Resolver.resolve c r; (answer, .counter c)
    | .keyed k, r => let (answer, k) := Resolver.resolve k r; (answer, .keyed k)
    | .rule rule, r => let (answer, rule) := Resolver.resolve rule r; (answer, .rule rule)

namespace Policy

/-- Take the warnings that a policy's counter has gathered. -/
def takeWarnings : Policy → List Warning × Policy
  | .counter c => let (warnings, c) := c.takeWarnings; (warnings, .counter c)
  | .keyed k =>
    let (warnings, c) := k.counter.takeWarnings; (warnings, .keyed { k with counter := c })
  | .rule r => ([], .rule r)

end Policy

end ShardIndex.Identity
