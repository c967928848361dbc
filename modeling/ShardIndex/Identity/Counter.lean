import ShardIndex.Record

/-!
# Counting out ids

A counter hands out consecutive ids up to its limit and never takes one back.  Once it is
exhausted it stays so.  When it first hands out an id in the last tenth of its range it warns,
once in its life.
-/

namespace ShardIndex.Identity

/-- The notice that ids are running out. -/
structure Warning where
  /-- The id whose handing out gave rise to it. -/
  id : PartId
  /-- The largest id there is. -/
  limit : Nat
deriving DecidableEq, Repr

/-- A source of consecutive ids. -/
structure Counter where
  next : Nat
  /-- The largest id that may be handed out. -/
  limit : Nat
  warned : Bool := false
  /-- The warnings that nobody has taken yet. -/
  warnings : List Warning := []
deriving DecidableEq, Repr

namespace Counter

/-- A counter that begins after ids already in use. -/
def startingAt (first : PartId) : Counter := { next := first, limit := maxPartId }

/-- A counter for an index without entries. -/
def fresh : Counter := startingAt 0

/-- A counter with a limit of its own. -/
def withLimit (first limit : PartId) : Counter := { next := first, limit := limit }

/-- The first id of the last tenth of the range. -/
def threshold (c : Counter) : Nat := 9 * (c.limit + 1) / 10

/-- Hand out the next id, unless it lies beyond the limit. -/
def allocate (c : Counter) : Except Failure PartId × Counter :=
  if c.limit < c.next then (.error (.idsExhausted c.next), c)
  else
    let stepped := { c with next := c.next + 1 }
    if c.threshold ≤ c.next ∧ c.warned = false then
      (.ok c.next,
        { stepped with warned := true, warnings := c.warnings ++ [⟨c.next, c.limit⟩] })
    else (.ok c.next, stepped)

/-- The share of the range that is handed out. -/
def utilization (c : Counter) : Float := Float.ofNat c.next / (Float.ofNat c.limit + 1.0)

/-- Take the warnings that have gathered. -/
def takeWarnings (c : Counter) : List Warning × Counter := (c.warnings, { c with warnings := [] })

end Counter

end ShardIndex.Identity
