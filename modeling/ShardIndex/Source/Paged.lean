import ShardIndex.Source.Log

/-!
# The paged store

A column store that keeps one row for each key of a shard.  Rows are numbered upwards from one
across all shards, and a key that is written again moves to a new row after all others.  A scan
goes through the rows of a shard page by page: a cursor remembers the number of the last row
read and fetches the next page only when it is needed, so writes made during a scan are seen by
the part of it that is still to come.
-/

namespace ShardIndex

/-- A numbered row. -/
structure StoredRow where
  number : Nat
  filed : Filed
deriving DecidableEq, Repr

/-- The rows of a column store. -/
structure PagedStore where
  /-- The rows, by ascending number. -/
  rows : List StoredRow := []
deriving DecidableEq, Repr

namespace PagedStore

/-- The number of the last row, zero where there is none. -/
def lastNumber (t : PagedStore) : Nat :=
  match t.rows.getLast? with
  | none => 0
  | some row => row.number

/-- Write a record into a row after all others, in place of the row its key had. -/
def put (t : PagedStore) (filed : Filed) : PagedStore :=
  let others := t.rows.filter fun row =>
    ¬ (row.filed.shard = filed.shard ∧ row.filed.record.key = filed.record.key)
  ⟨others ++ [⟨t.lastNumber + 1, filed⟩]⟩

/-- Write a batch of records to a shard: all of them, or none if one has its window reversed. -/
def write (t : PagedStore) (shard : Shard) (batch : List (Record × Int)) :
    Except Failure PagedStore := do
  batch.forM fun item => item.1.validate
  return batch.foldl (fun t item => t.put ⟨shard, item.1, item.2⟩) t

/-- The rows of a shard, of one hour if one is given. -/
def ofShard (t : PagedStore) (shard : Shard) (hour : Option Int) : List StoredRow :=
  t.rows.filter fun row =>
    row.filed.shard = shard ∧ (hour = none ∨ hour = some row.filed.hour)

/-- How many records a shard has. -/
def size (t : PagedStore) (shard : Shard) : Nat := (t.ofShard shard none).length

/-- The first rows beyond a number, at most a page of them.  A page size beyond the signed range
of 64 bits stands for no bound at all. -/
def page (t : PagedStore) (shard : Shard) (hour : Option Int) (after batch : Nat) :
    List StoredRow :=
  let beyond := (t.ofShard shard hour).filter fun row => after < row.number
  if batch < 9223372036854775808 then beyond.take batch else beyond

end PagedStore

/-- The state of a scan. -/
structure Cursor where
  shard : Shard
  /-- The hour it is read for, if not for all. -/
  hour : Option Int
  /-- The size of a page, at least one. -/
  batch : Nat
  /-- The number of the last row fetched; none when no further page is to be fetched. -/
  after : Option Nat := some 0
  /-- What is left of the page that was fetched last. -/
  buffer : List Record := []
deriving DecidableEq, Repr

namespace Cursor

/-- A scan before its first page.  A page size of nought counts as one. -/
def start (shard : Shard) (hour : Option Int) (batch : Nat) : Cursor :=
  { shard := shard, hour := hour, batch := max batch 1 }

/-- The number from which to fetch after a page: that of its last row, if the page was full. -/
def resumeAfter (c : Cursor) (page : List StoredRow) : Option Nat :=
  if page.length = c.batch then page.getLast?.map StoredRow.number else none

/-- The next record, with a page fetched if none is at hand. -/
def next (c : Cursor) (t : PagedStore) : Option Record × Cursor :=
  match c.buffer with
  | record :: rest => (some record, { c with buffer := rest })
  | [] =>
    match c.after with
    | none => (none, c)
    | some number =>
      let page := t.page c.shard c.hour number c.batch
      match page.map fun row => row.filed.record with
      -- the end is final, whatever is written later
      | [] => (none, { c with after := none })
      | record :: rest => (some record, { c with after := c.resumeAfter page, buffer := rest })

/-- The next records, at most as many as asked for. -/
def take (c : Cursor) (t : PagedStore) : Nat → List Record × Cursor
  | 0 => ([], c)
  | n + 1 =>
    match c.next t with
    | (none, c) => ([], c)
    | (some record, c) =>
      let (rest, c) := c.take t n
      (record :: rest, c)

end Cursor

/-- A paged store with the page size that scans of it use. -/
structure PagedReader where
  store : PagedStore := {}
  /-- The size of a page. -/
  batch : Nat := 4096
deriving DecidableEq, Repr

namespace PagedReader

/-- Every record of a scan that no write interrupts.  There are no more than rows. -/
def readAll (r : PagedReader) (shard : Shard) (hour : Option Int) : List Record :=
  ((Cursor.start shard hour r.batch).take r.store r.store.rows.length).1

instance : ColumnStore PagedReader where
  scan r shard := { records := r.readAll shard none }
  updatedIn r shard hour := { records := r.readAll shard (some hour) }

end PagedReader

end ShardIndex
