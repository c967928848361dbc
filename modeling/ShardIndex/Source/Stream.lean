import ShardIndex.Record

/-!
# Streams of records

A column store hands out the records of a shard as a stream, either all of them or those last
updated in one hour.  A stream delivers its records in order and then ends, or breaks off with a
failure.
-/

namespace ShardIndex

/-- What a stream delivers. -/
structure RecordStream where
  records : List Record
  /-- The failure with which the stream breaks off after them, if it does. -/
  failure : Option Failure := none
deriving DecidableEq, Repr

namespace RecordStream

/-- Nothing is left to be delivered. -/
def isDone (s : RecordStream) : Bool := s.records.isEmpty && s.failure.isNone

/-- Deliver some records at most, and then break off. -/
def breakAfter (s : RecordStream) (n : Nat) (cause : Failure) : RecordStream :=
  if n ≤ s.records.length ∨ s.failure = none then ⟨s.records.take n, some cause⟩ else s

/-- Deliver what a partial function makes of each record, and nothing where it makes nothing. -/
def filterMap (s : RecordStream) (f : Record → Option Record) : RecordStream :=
  { s with records := s.records.filterMap f }

end RecordStream

/-- States that act as a column store. -/
class ColumnStore (σ : Type) where
  scan : σ → Shard → RecordStream
  /-- The records of a shard whose last update fell in an hour. -/
  updatedIn : σ → Shard → Int → RecordStream

end ShardIndex
