import ShardIndex.Source.Stream

/-!
# The record log

A column store that keeps every record ever added, in the order of addition.  A record added
again is kept beside the earlier one, and each stays in the hour it was added for.
-/

namespace ShardIndex

/-- A record in a shard, filed under the hour of its update. -/
structure Filed where
  shard : Shard
  record : Record
  /-- The hour of the update. -/
  hour : Int
deriving DecidableEq, Repr

/-- Every record added so far. -/
structure RecordLog where
  /-- The records, in the order of their addition. -/
  entries : List Filed := []
deriving DecidableEq, Repr

namespace RecordLog

/-- Add a record to a shard, if its window is in order. -/
def add (log : RecordLog) (shard : Shard) (record : Record) (hour : Int) :
    Except Failure RecordLog := do
  record.validate
  return ⟨log.entries ++ [⟨shard, record, hour⟩]⟩

/-- Add records one after another up to the first that is refused. -/
def addAll (log : RecordLog) (shard : Shard) :
    List (Record × Int) → Option Failure × RecordLog
  | [] => (none, log)
  | (record, hour) :: rest =>
    match log.add shard record hour with
    | .error e => (some e, log)
    | .ok log => log.addAll shard rest

/-- What was added to a shard. -/
def ofShard (log : RecordLog) (shard : Shard) : List Filed :=
  log.entries.filter fun f => f.shard = shard

/-- How many records a shard has. -/
def size (log : RecordLog) (shard : Shard) : Nat := (log.ofShard shard).length

instance : ColumnStore RecordLog where
  scan log shard := { records := (log.ofShard shard).map Filed.record }
  updatedIn log shard hour :=
    { records := ((log.ofShard shard).filter fun f => f.hour = hour).map Filed.record }

end RecordLog

end ShardIndex
