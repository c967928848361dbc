import ShardIndex.Command.Problem
import ShardIndex.Record.Json

/-!
# Loading records

A file of records has one on each line; lines of white space alone do not count, but are numbered
with the others.  The records are stored in batches: a batch that is full is stored before the
next line is read, and what is left at the end is stored as the last one.  The first line that
cannot be read, or the first batch that cannot be stored, ends the loading; what was stored
before stays.
-/

namespace ShardIndex.Command.Ingest

/-! ## Lines -/

/-- A line whose end was found, given backwards: a carriage return at its end belongs to the line
end. -/
def closeLine : Bytes → Bytes
  | 13 :: line => line.reverse
  | line => line.reverse

/-- The lines of a file, given what has been read of the first, backwards. -/
def linesFrom : Bytes → Bytes → List Bytes
  | line, [] => if line.isEmpty then [] else [line.reverse]
  | line, b :: rest =>
    if b = 10 then closeLine line :: linesFrom [] rest else linesFrom (b :: line) rest

/-- The lines of a file. -/
def lines (content : Bytes) : List Bytes := linesFrom [] content

/-- What a line holds: a record with the hour of its update, or nothing. -/
def readLine (number : Nat) (line : Bytes) : Except Problem (Option (Record × Int)) :=
  match line.text? with
  | none => .error (.reading .notText)
  | some text =>
    if (Text.trim text.toList).isEmpty then .ok none
    else
      match IngestLine.ofText? text with
      | none => .error (.line number)
      | some l =>
        match l.key? with
        | none => .error (.key number)
        | some key => .ok (some (⟨key, l.startTime, l.endTime⟩, l.hour))

/-! ## Batches -/

/-- A record in a batch takes so many bytes. -/
def recordSize : Nat := 48

/-- The greatest number of records in a batch whose bytes a signed word of 64 bits can count. -/
def maxBatch : Nat := 9223372036854775807 / recordSize

/-- The greatest number of records in a batch for which there are addresses, of 47 bits. -/
def maxRoom : Nat := 140737488355328 / recordSize

/-- Make room for a batch. -/
def reserve (size : Nat) : Except Problem Unit :=
  if maxBatch < size then .error (.batchSize size)
  else if maxRoom < size then .error (.batchRoom size)
  else .ok ()

/-- Where batches are stored. -/
structure Target where
  shard : Shard
  /-- Whether the column store may only be read. -/
  isSealed : Bool := false

/-- Store a batch, and add its size to a count. -/
def store (target : Target) (batch : List (Record × Int)) (count : Nat) (t : PagedStore) :
    Except Problem Nat × PagedStore :=
  match t.write target.shard batch with
  | .error e => (.error (.failure e), t)
  | .ok written =>
    if target.isSealed then (.error (.failure .databaseSealed), t)
    else (.ok (count + batch.length), written)

/-- Load lines, the first of them with a number, after a batch that is not full and a count of
the records stored. -/
def loadFrom (size : Nat) (target : Target) (number : Nat) (batch : List (Record × Int))
    (count : Nat) (t : PagedStore) : List Bytes → Except Problem Nat × PagedStore
  | [] => if batch.isEmpty then (.ok count, t) else store target batch count t
  | line :: rest =>
    match readLine number line with
    | .error p => (.error p, t)
    | .ok none => loadFrom size target (number + 1) batch count t rest
    | .ok (some item) =>
      let batch := batch ++ [item]
      if batch.length < size then loadFrom size target (number + 1) batch count t rest
      else
        match store target batch count t with
        | (.error p, t) => (.error p, t)
        | (.ok count, t) => loadFrom size target (number + 1) [] count t rest

/-- What is in a file that is to be loaded in batches of some size.  The file is opened before
room is made for a batch, and read after that. -/
def contentOf (d : Disk) (size : Nat) (file : Path) : Except Problem Bytes :=
  match d.readBytes file with
  | .ok content => do
    reserve size
    return content
  | .error cause =>
    -- a directory can be opened, and only reading it fails
    if cause.comesLate then do
      reserve size
      .error (.reading cause)
    else .error (.input file)

/-- Load a file in batches of some size, at least one, and count its records. -/
def load (size : Nat) (target : Target) (content : Bytes) (t : PagedStore) :
    Except Problem Nat × PagedStore :=
  loadFrom (max size 1) target 1 [] 0 t (lines content)

end ShardIndex.Command.Ingest
