import ShardIndex.Source.Paged

/-!
# Interrupted streams

A column store whose streams can be made to break off after a number of records, and streams
that are read a little at a time while the store goes on changing.
-/

namespace ShardIndex

/-- A column store with failures armed for its streams. -/
structure Interrupted (σ : Type) where
  inner : σ
  /-- How many records a stream still delivers, and the failure that ends it: for the stream of
  an hour, or of all records. -/
  fault : Option Int → Option (Nat × Failure) := fun _ => none

instance {σ : Type} [ColumnStore σ] : ColumnStore (Interrupted σ) where
  scan s shard :=
    let stream := ColumnStore.scan s.inner shard
    (s.fault none).elim stream fun f => stream.breakAfter f.1 f.2
  updatedIn s shard hour :=
    let stream := ColumnStore.updatedIn s.inner shard hour
    (s.fault hour).elim stream fun f => stream.breakAfter f.1 f.2

/-- One of the two kinds of column store, chosen when the program runs. -/
inductive AnyStore
  | log (l : RecordLog)
  | paged (r : PagedReader)

namespace AnyStore

instance : ColumnStore AnyStore where
  scan
    | .log l, shard => ColumnStore.scan l shard
    | .paged r, shard => ColumnStore.scan r shard
  updatedIn
    | .log l, shard, hour => ColumnStore.updatedIn l shard hour
    | .paged r, shard, hour => ColumnStore.updatedIn r shard hour

/-- Write records to a shard: one by one into a log, all or none into a paged store. -/
def put (s : AnyStore) (shard : Shard) (batch : List (Record × Int)) :
    Option Failure × AnyStore :=
  match s with
  | .log l => let (outcome, l) := l.addAll shard batch; (outcome, .log l)
  | .paged r =>
    match r.store.write shard batch with
    | .error e => (some e, s)
    | .ok store => (none, .paged { r with store := store })

/-- How many records a shard has. -/
def size : AnyStore → Shard → Nat
  | .log l, shard => l.size shard
  | .paged r, shard => r.store.size shard

end AnyStore

/-- Where an open stream takes its records from. -/
inductive Supply
  /-- Records fixed when the stream was opened. -/
  | fixed (records : List Record)
  /-- A scan that fetches pages as it needs them. -/
  | scan (c : Cursor)

/-- A stream that is being read. -/
structure OpenStream where
  supply : Supply
  /-- How many more records there are before the stream breaks off, and how. -/
  fault : Option (Nat × Failure) := none
  /-- Whether the stream has come to its end. -/
  ended : Bool := false

namespace OpenStream

/-- Open a stream of a shard, of one hour if one is given. -/
def start (s : Interrupted AnyStore) (shard : Shard) (hour : Option Int) : OpenStream :=
  let supply :=
    match s.inner with
    | .log l =>
      Supply.fixed
        (match hour with
        | none => (ColumnStore.scan l shard).records
        | some h => (ColumnStore.updatedIn l shard h).records)
    | .paged r => Supply.scan (Cursor.start shard hour r.batch)
  { supply := supply, fault := s.fault hour }

/-- The next record of the supply. -/
def poll (o : OpenStream) (s : AnyStore) : Option Record × OpenStream :=
  match o.supply with
  | .fixed [] => (none, o)
  | .fixed (record :: rest) => (some record, { o with supply := .fixed rest })
  | .scan c =>
    match s with
    | .log _ => (none, o)
    | .paged r => let (record, c) := c.next r.store; (record, { o with supply := .scan c })

/-- The next item of the stream; none at its end. -/
def next (o : OpenStream) (s : AnyStore) : Option (Except Failure Record) × OpenStream :=
  if o.ended then (none, o)
  else
    match o.fault with
    | some (0, e) => (some (.error e), { o with ended := true })
    | some (n + 1, e) =>
      match o.poll s with
      | (some record, o) => (some (.ok record), { o with fault := some (n, e) })
      | (none, o) => (some (.error e), { o with ended := true })
    | none =>
      match o.poll s with
      | (some record, o) => (some (.ok record), o)
      | (none, o) => (none, { o with ended := true })

/-- The next items, at most as many as asked for, up to a failure or the end. -/
def take (o : OpenStream) (s : AnyStore) : Nat → List (Except Failure Record) × OpenStream
  | 0 => ([], o)
  | n + 1 =>
    match o.next s with
    | (none, o) => ([], o)
    | (some (.error e), o) => ([.error e], o)
    | (some (.ok record), o) =>
      let (rest, o) := o.take s n
      (.ok record :: rest, o)

/-- A number of items that no stream of the store exceeds. -/
def bound (o : OpenStream) (s : AnyStore) : Nat :=
  match o.supply, s with
  | .scan c, .paged r => c.buffer.length + r.store.rows.length + 1
  | .scan _, .log _ => 1
  | .fixed records, _ => records.length + 1

/-- All items up to a failure or the end. -/
def takeAll (o : OpenStream) (s : AnyStore) : List (Except Failure Record) × OpenStream :=
  o.take s (o.bound s)

end OpenStream

end ShardIndex
