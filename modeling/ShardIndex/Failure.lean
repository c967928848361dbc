import ShardIndex.Text.Hex

/-!
# Failures

Every way in which building, refreshing or opening an index can fail, with the sentence that
reports it.
-/

namespace ShardIndex

/-- The cause of a failed operation. -/
inductive Failure
  /-- The stream of records ended abnormally. -/
  | source (text : String)
  /-- No id was given for a record. -/
  | resolver (text : String)
  /-- The index refused a request. -/
  | index (text : String)
  /-- A database file cannot be used. -/
  | database
  /-- A database that may only be read was to be written. -/
  | databaseSealed
  | files
  /-- A task of the call broke down. -/
  | task
  | idsExhausted (next : Nat)
  | hoursReversed (first last : Int)
  | windowReversed (startTime endTime : Int)
  | schemaRepeated (name : String)
  /-- Two schema names that share one id. -/
  | schemaCollision (name existing : String) (id : UInt16)
deriving DecidableEq, Repr

namespace Failure

/-- The sentence that reports a failure. -/
def message : Failure → String
  | source text => "Partition key source failed: " ++ text
  | resolver text => "Partition id resolution failed: " ++ text
  | index text => "Index error: " ++ text
  | database => "SQLite error"
  | databaseSealed => "SQLite error: attempt to write a readonly database"
  | files => "IO error"
  | task => "Task failed"
  | idsExhausted next => s!"Partition id space exhausted after {next} allocations"
  | hoursReversed first last =>
    s!"Invalid hour range: from hour {first} is after to hour {last}"
  | windowReversed startTime endTime =>
    s!"Invalid part key record: end time {endTime} is before start time {startTime}"
  | schemaRepeated name => s!"Schema error: schema '{name}' registered twice"
  | schemaCollision name existing id =>
    s!"Schema error: schema '{name}' collides with '{existing}' on id 0x{Text.Hex.word id}"

end Failure

end ShardIndex
