import ShardIndex.Snapshot
import ShardIndex.Lifecycle

/-!
# What an index can be asked

An index takes writes, makes them durable on commit, and shows them to its readers on refresh.
A request either succeeds or fails with a cause; an announcement always succeeds.
-/

namespace ShardIndex

/-- How a write treats an entry that is already there. -/
inductive WriteMode
  /-- Put the new entry in its place. -/
  | add
  /-- Merge the new entry with it. -/
  | upsert
deriving DecidableEq, Repr

/-- A request that may fail. -/
inductive Request
  | write (mode : WriteMode) (key : Key) (entry : Entry)
  /-- Make the writes so far durable. -/
  | commit
  /-- Show readers what is durable, after making the writes so far durable. -/
  | refreshReaders
deriving DecidableEq, Repr

/-- States that act as an index. -/
class Index (ι : Type) where
  /-- Carry out a request; no failure means that it was carried out. -/
  perform : ι → Request → Option Failure × ι
  announce : ι → Event → ι

end ShardIndex
