import ShardIndex.Bootstrap.Strategy
import ShardIndex.Index.Monitored
import ShardIndex.Source.Interrupted

/-!
# The workbench

A column store, an index and a resolver set up side by side, with everything that can be done to
them one step at a time: records stored and read back, strategies carried out, requests made
directly, failures armed, and the state looked at.  Each step has a reply.
-/

namespace ShardIndex

open Identity Bootstrap

/-- Which contents of an index are looked at. -/
inductive View
  | committed
  | reader
deriving DecidableEq, Repr

namespace AnyIndex

/-- The contents of an index in a view. -/
def view (x : AnyIndex) : View → Snapshot
  | .committed => x.committed
  | .reader => x.reader

/-- The entry of a key in a view. -/
def entry? (x : AnyIndex) (v : View) (key : Key) : Option Entry :=
  match x with
  | .volatile _ => (x.view v).get? key
  | .durable y => y.entry? key

/-- The keys in a view with their ids. -/
def ids (x : AnyIndex) (v : View) : List (Key × PartId) :=
  match x with
  | .volatile _ => (x.view v).ids
  | .durable y => y.ids

/-- The ids in a view of the entries whose window ended before a time, ascending. -/
def idsEndedBefore (x : AnyIndex) (v : View) (time : Int) : List PartId :=
  match x with
  | .volatile _ => (x.view v).idsEndedBefore time
  | .durable y => y.idsEndedBefore time

end AnyIndex

/-- One thing to be done at the workbench. -/
inductive Step
  | put (shard : Shard) (batch : List (Record × Int))
  | sourceSize (shard : Shard)
  | scan (shard : Shard) (hour : Option Int)
  | openStream (name : String) (shard : Shard) (hour : Option Int)
  | next (name : String) (count : Option Nat)
  | reopenStore (batch : Nat)
  /-- Make the streams opened from now on break off, or no longer do so. -/
  | interrupt (fault : Option (Nat × Failure))
  | setClock (now : Int)
  | showParallelism
  | carryOut (strategy : Strategy) (shard : Shard)
  | request (r : Request)
  | announce (e : Event)
  | arm (f : Fault)
  | takeCalls
  | takeEvents
  | latest
  | showIndex
  | dump (view : View)
  | get (key : Key) (view : View)
  | endedBefore (time : Int) (view : View)
  | hold (name : String) (view : View)
  | held (name : String)
  | reopenIndex
  | resolve (key : Key)
  | showResolver
  | useResolver (p : Policy)
  /-- Take a resolver by key that knows the ids in the index. -/
  | reseed (view : View)
  | takeWarnings

/-- What a step comes to. -/
inductive Reply
  | done
  | count (n : Nat)
  | sizeIn (store : AnyStore) (n : Nat)
  /-- Items of a stream, and whether it came to its end. -/
  | items (items : List (Except Failure Record)) (ended : Bool)
  | calls (calls : List Call)
  | events (events : List Reception)
  | latest (e : Option Event)
  | index (x : AnyIndex)
  | entries (s : Snapshot)
  | entry (e : Option Entry)
  | ids (ids : List PartId)
  | id (n : PartId)
  | resolver (p : Policy)
  /-- Warnings. -/
  | warnings (ws : List Warning)
  | failed (e : Failure)

/-- A store, an index and a resolver side by side. -/
structure Workbench where
  store : Interrupted AnyStore
  index : Monitored AnyIndex
  /-- The subscriber to the events of the index. -/
  subscriber : Nat
  policy : Policy
  schemas : Schema.Registry
  settings : Settings
  streams : List (String × OpenStream) := []
  snapshots : List (String × Snapshot) := []
  /-- Warnings of resolvers no longer in use. -/
  warnings : List Warning := []

namespace Workbench

/-- An index with one subscriber, and nothing called yet. -/
def monitor (x : AnyIndex) : Nat × Monitored AnyIndex :=
  let (subscriber, announcer) := x.announcer.subscribe
  (subscriber, { inner := x.setAnnouncer announcer })

/-- A workbench with a store, an index and a resolver. -/
def setUp (store : AnyStore) (index : AnyIndex) (policy : Policy) (schemas : Schema.Registry)
    (settings : Settings) : Workbench :=
  let (subscriber, index) := monitor index
  { store := { inner := store }
    index := index
    subscriber := subscriber
    policy := policy
    schemas := schemas
    settings := settings }

/-- Put a value under a name, in place of an earlier one. -/
def named {α : Type} (name : String) (value : α) (l : List (String × α)) : List (String × α) :=
  (name, value) :: l.filter fun p => p.1 ≠ name

/-- Take another resolver, keeping the warnings of the one before. -/
def setPolicy (b : Workbench) (p : Policy) : Workbench :=
  { b with policy := p, warnings := b.warnings ++ b.policy.takeWarnings.1 }

/-- Whether a run of items came to the end of its stream: the stream has ended. -/
def readStream (b : Workbench) (o : OpenStream) (count : Option Nat) : Reply × OpenStream :=
  match count with
  | none =>
    let (items, o) := o.takeAll b.store.inner
    (.items items o.ended, o)
  | some n =>
    let (items, o) := o.take b.store.inner n
    (.items items o.ended, o)

/-- Carry out a strategy on the index of the workbench. -/
def carryOut (b : Workbench) (strategy : Strategy) (shard : Shard) : Reply × Workbench :=
  let world : World Policy (Monitored AnyIndex) := { resolver := b.policy, index := b.index }
  let (result, world) := strategy.run b.settings b.schemas b.store shard [] world
  let b := { b with policy := world.resolver, index := world.index }
  match result with
  | .ok n => (.count n, b)
  | .error e => (.failed e, b)

/-- The reply to a step that has no value. -/
def replyOf : Option Failure → Reply
  | none => .done
  | some e => .failed e

/-- Take a step. -/
def step (b : Workbench) : Step → Reply × Workbench
  | .put shard batch =>
    let (outcome, inner) := b.store.inner.put shard batch
    let b := { b with store := { b.store with inner := inner } }
    match outcome with
    | none => (.count batch.length, b)
    | some e => (.failed e, b)
  | .sourceSize shard => (.sizeIn b.store.inner (b.store.inner.size shard), b)
  | .scan shard hour => ((b.readStream (OpenStream.start b.store shard hour) none).1, b)
  | .openStream name shard hour =>
    (.done, { b with streams := named name (OpenStream.start b.store shard hour) b.streams })
  | .next name count =>
    match b.streams.lookup name with
    | none => (.items [] true, b)
    | some o =>
      let (reply, o) := b.readStream o count
      (reply, { b with streams := named name o b.streams })
  | .reopenStore batch =>
    match b.store.inner with
    | .log _ => (.done, b)
    | .paged r =>
      (.done, { b with store := { b.store with inner := .paged { r with batch := batch } } })
  | .interrupt fault => (.done, { b with store := { b.store with fault := fun _ => fault } })
  | .setClock now => (.done, { b with settings := { b.settings with now := now } })
  | .showParallelism => (.count b.settings.parallelism, b)
  | .carryOut strategy shard => b.carryOut strategy shard
  | .request r =>
    let (outcome, index) := Index.perform b.index r
    (replyOf outcome, { b with index := index })
  | .announce e => (.done, { b with index := Index.announce b.index e })
  | .arm f => (.done, { b with index := b.index.arm f })
  | .takeCalls => let (calls, index) := b.index.takeCalls; (.calls calls, { b with index := index })
  | .takeEvents =>
    let (events, announcer) := b.index.inner.announcer.drain b.subscriber
    let index := { b.index with inner := b.index.inner.setAnnouncer announcer }
    (.events events, { b with index := index })
  | .latest => (.latest b.index.inner.announcer.latest, b)
  | .showIndex => (.index b.index.inner, b)
  | .dump view => (.entries (b.index.inner.view view), b)
  | .get key view => (.entry (b.index.inner.entry? view key), b)
  | .endedBefore time view => (.ids (b.index.inner.idsEndedBefore view time), b)
  | .hold name view =>
    (.done, { b with snapshots := named name (b.index.inner.view view) b.snapshots })
  | .held name => (.entries ((b.snapshots.lookup name).getD Table.empty), b)
  | .reopenIndex =>
    match b.index.inner with
    | .volatile _ => (.done, b)
    | .durable x =>
      let (subscriber, index) := monitor (.durable x.reopen)
      (.done, { b with index := index, subscriber := subscriber })
  | .resolve key =>
    let (answer, policy) := Resolver.resolve b.policy ⟨key, 0, 0⟩
    let b := { b with policy := policy }
    match answer with
    | .id n => (.id n, b)
    | .refused e => (.failed e, b)
    | .panicked => (.failed .task, b)
  | .showResolver => (.resolver b.policy, b)
  | .useResolver p => (.done, b.setPolicy p)
  | .reseed view =>
    (.done, b.setPolicy (.keyed (Keyed.ofExisting (b.index.inner.ids view))))
  | .takeWarnings =>
    let (warnings, policy) := b.policy.takeWarnings
    (.warnings (b.warnings ++ warnings), { b with policy := policy, warnings := [] })

end Workbench

end ShardIndex
