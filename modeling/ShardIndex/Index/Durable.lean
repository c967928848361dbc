import ShardIndex.Index.Interface

/-!
# The index in a table

Writes are gathered in a buffer, and a commit writes the whole buffer to a stored table in one
transaction: either every row of it lands, or the table and the buffer stay as they were.
Readers ask the table, so they see committed rows only.  Closing the index forgets the buffer
and keeps the table.
-/

namespace ShardIndex

/-- An index whose committed rows are stored. -/
structure DurableIndex where
  /-- The committed rows. -/
  stored : Snapshot := Table.empty
  /-- The writes since the last commit. -/
  pending : Snapshot := Table.empty
  /-- How often readers were refreshed since the index was opened. -/
  generation : Nat := 0
  announcer : Announcer := Announcer.standard

namespace DurableIndex

/-- Open the index over a stored table. -/
def openOn (stored : Snapshot) : DurableIndex := { stored := stored }

/-- Run the statements of a transaction on a working copy of the table, one per row and a last
one that ends it.  With a number given, the statement of that number fails. -/
def transact (failsAt : Option Nat) : List (Key × Entry) → Snapshot → Except Failure Snapshot
  | [], working => if failsAt = some 0 then .error .database else .ok working
  | row :: rest, working =>
    if failsAt = some 0 then .error .database
    else transact (failsAt.map (· - 1)) rest (working.insert row.1 row.2)

/-- Write an entry into the buffer.  An upsert merges with the buffered entry of its key, or else
with the stored one. -/
def write (x : DurableIndex) (mode : WriteMode) (key : Key) (entry : Entry) : DurableIndex :=
  let entry :=
    match mode with
    | .add => entry
    | .upsert => Entry.mergeInto ((x.pending.get? key).or (x.stored.get? key)) entry
  { x with pending := x.pending.insert key entry }

/-- Write the buffer to the table, unless it is empty.  The buffer is cleared only when the
transaction has ended well. -/
def commit (x : DurableIndex) (failsAt : Option Nat) : Option Failure × DurableIndex :=
  if x.pending.rows.isEmpty then (none, x)
  else
    match transact failsAt x.pending.rows x.stored with
    | .error e => (some e, x)
    | .ok stored => (none, { x with stored := stored, pending := Table.empty })

/-- Commit, and count one more refresh of the readers. -/
def refresh (x : DurableIndex) (failsAt : Option Nat) : Option Failure × DurableIndex :=
  match x.commit failsAt with
  | (some e, x) => (some e, x)
  | (none, x) => (none, { x with generation := x.generation + 1 })

/-- Close the index and open it again. -/
def reopen (x : DurableIndex) : DurableIndex := openOn x.stored

/-! ## What readers ask of the table -/

/-- The stored entry of a key. -/
def entry? (x : DurableIndex) (key : Key) : Option Entry := x.stored.get? key

/-- How many rows are stored. -/
def size (x : DurableIndex) : Nat := x.stored.size

/-- The stored keys with their ids. -/
def ids (x : DurableIndex) : List (Key × PartId) := x.stored.rows.map fun row => (row.1, row.2.id)

/-- The stored rows in the order of their ids, in which the table can be read too. -/
def rowsById (x : DurableIndex) : List (Key × Entry) :=
  x.stored.rows.mergeSort fun a b => decide (a.2.id ≤ b.2.id)

/-- The largest stored id. -/
def maxId (x : DurableIndex) : Option PartId := x.rowsById.getLast?.map fun row => row.2.id

/-- The ids of the rows whose window ended before a time, ascending. -/
def idsEndedBefore (x : DurableIndex) (time : Int) : List PartId :=
  (x.rowsById.filter fun row => row.2.endTime < time).map fun row => row.2.id

instance : Index DurableIndex where
  perform
    | x, .write mode key entry => (none, x.write mode key entry)
    | x, .commit => x.commit none
    | x, .refreshReaders => x.refresh none
  announce x e := { x with announcer := x.announcer.announce e }

end DurableIndex

end ShardIndex
