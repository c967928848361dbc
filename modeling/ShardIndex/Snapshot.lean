import ShardIndex.Table
import ShardIndex.Record

/-!
# Snapshots

The entries of an index at one moment, and what readers ask of them.
-/

namespace ShardIndex

/-- The entries of an index at one moment. -/
abbrev Snapshot := Table Entry

namespace Snapshot

/-- The id of a key. -/
def id? (s : Snapshot) (key : Key) : Option PartId := (s.get? key).map Entry.id

/-- The keys with their ids. -/
def ids (s : Snapshot) : List (Key × PartId) := s.rows.map fun row => (row.1, row.2.id)

/-- The largest id. -/
def maxId (s : Snapshot) : Option PartId := (s.values.map Entry.id).max?

/-- The ids in use, ascending. -/
def sortedIds (s : Snapshot) : List PartId :=
  (s.values.map Entry.id).mergeSort fun a b => decide (a ≤ b)

/-- The ids of the entries whose window ended before a time, ascending. -/
def idsEndedBefore (s : Snapshot) (time : Int) : List PartId :=
  ((s.values.filter fun e => e.endTime < time).map Entry.id).mergeSort fun a b => decide (a ≤ b)

end Snapshot

end ShardIndex
