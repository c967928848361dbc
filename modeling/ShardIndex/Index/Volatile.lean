import ShardIndex.Index.Interface

/-!
# The index in memory

Writes land in the writer's table at once.  A commit copies that table to the committed one, and
a refresh, which commits first if anything was written since, shows readers the committed one.
-/

namespace ShardIndex

/-- An index held in memory. -/
structure VolatileIndex where
  /-- Every write so far. -/
  writer : Snapshot := Table.empty
  /-- The writes before the last commit. -/
  committed : Snapshot := Table.empty
  /-- What readers see. -/
  reader : Snapshot := Table.empty
  /-- Whether anything was written since the last commit. -/
  pending : Bool := false
  commits : Nat := 0
  announcer : Announcer := Announcer.standard

namespace VolatileIndex

/-- An index without entries. -/
def empty : VolatileIndex := {}

/-- Write an entry. -/
def write (x : VolatileIndex) (mode : WriteMode) (key : Key) (entry : Entry) : VolatileIndex :=
  let entry :=
    match mode with
    | .add => entry
    | .upsert => Entry.mergeInto (x.writer.get? key) entry
  { x with writer := x.writer.insert key entry, pending := true }

/-- Make every write durable. -/
def commit (x : VolatileIndex) : VolatileIndex :=
  { x with committed := x.writer, pending := false, commits := x.commits + 1 }

/-- Show readers every write. -/
def refresh (x : VolatileIndex) : VolatileIndex :=
  let x := if x.pending then x.commit else x
  { x with reader := x.committed }

instance : Index VolatileIndex where
  perform
    | x, .write mode key entry => (none, x.write mode key entry)
    | x, .commit => (none, x.commit)
    | x, .refreshReaders => (none, x.refresh)
  announce x e := { x with announcer := x.announcer.announce e }

end VolatileIndex

end ShardIndex
