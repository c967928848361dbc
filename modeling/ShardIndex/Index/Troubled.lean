import ShardIndex.Index.Durable

/-!
# Troubled indexes

An index whose database may fail.  What is asked of the database goes well or not as it is laid
down beforehand, one thing after another; a request that asks nothing of it cannot fail.  A
transaction that fails leaves the table and the buffer as they were.
-/

namespace ShardIndex

/-- An index with troubles ahead. -/
structure TroubledIndex where
  inner : DurableIndex
  /-- Whether what is asked of the database fails, the next thing first; what is asked after all
  of these goes well. -/
  troubles : List Bool := []

namespace TroubledIndex

/-- Ask the database for something. -/
def ask (x : TroubledIndex) : Option Failure × TroubledIndex :=
  (if x.troubles.head? = some true then some .database else none,
    { x with troubles := x.troubles.tail })

/-- Write an entry into the buffer.  The database is asked for the stored entry of a key that is
to be merged and is not in the buffer. -/
def write (x : TroubledIndex) (mode : WriteMode) (key : Key) (entry : Entry) :
    Option Failure × TroubledIndex :=
  let written (x : TroubledIndex) := { x with inner := x.inner.write mode key entry }
  if mode = .upsert ∧ x.inner.pending.get? key = none then
    match x.ask with
    | (some e, x) => (some e, x)
    | (none, x) => (none, written x)
  else (none, written x)

/-- Write the buffer to the table, unless it is empty. -/
def commit (x : TroubledIndex) : Option Failure × TroubledIndex :=
  if x.inner.pending.rows.isEmpty then (none, x)
  else
    match x.ask with
    | (some e, x) => (some e, x)
    | (none, x) =>
      let (outcome, inner) := x.inner.commit none
      (outcome, { x with inner := inner })

/-- Commit, and have the database show readers what is committed. -/
def refresh (x : TroubledIndex) : Option Failure × TroubledIndex :=
  match x.commit with
  | (some e, x) => (some e, x)
  | (none, x) =>
    match x.ask with
    | (some e, x) => (some e, x)
    | (none, x) =>
      (none, { x with inner := { x.inner with generation := x.inner.generation + 1 } })

instance : Index TroubledIndex where
  perform
    | x, .write mode key entry => x.write mode key entry
    | x, .commit => x.commit
    | x, .refreshReaders => x.refresh
  announce x e := { x with inner := Index.announce x.inner e }

end TroubledIndex

end ShardIndex
