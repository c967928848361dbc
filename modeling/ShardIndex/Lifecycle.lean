import ShardIndex.Record

/-!
# Lifecycle announcements

An index announces that its content is being refreshed from some time on, or complete up to some
time.  An announcer keeps the latest event, and for subscribers a bounded run of the last ones;
it never waits for a subscriber.  A subscriber that has fallen behind what is kept is told once
how many events it has missed and goes on from the oldest one kept.
-/

namespace ShardIndex

/-- What an index says about itself. -/
inductive Stage
  /-- Content may be incomplete. -/
  | refreshing
  /-- Content is complete and durable. -/
  | synced
deriving DecidableEq, Repr

/-- The word for a stage. -/
def Stage.name : Stage → String
  | .refreshing => "refreshing"
  | .synced => "synced"

/-- A stage with the time it speaks of. -/
structure Event where
  stage : Stage
  time : Int
deriving DecidableEq, Repr

/-- What a subscriber gets when it asks for the next event. -/
inductive Reception
  | event (e : Event)
  /-- Nothing new yet. -/
  | empty
  /-- Nothing new, and there never will be. -/
  | closed
  | lagged (missed : Nat)
deriving DecidableEq, Repr

/-- A place from which events are announced. -/
structure Announcer where
  capacity : Nat
  /-- How many kept events have been let go since. -/
  dropped : Nat := 0
  /-- The last events, oldest first. -/
  kept : List Event := []
  /-- The subscribers, each with the number of the event it is to get next. -/
  subscribers : List (Nat × Nat) := []
  nextSubscriber : Nat := 0
  /-- The last event announced, whether anyone listened or not. -/
  latest : Option Event := none
  /-- Whether the announcer is gone. -/
  closed : Bool := false
deriving DecidableEq, Repr

namespace Announcer

/-- An announcer that keeps as many events as asked for, at least one, rounded up to a power of
two. -/
def ofCapacity (capacity : Nat) : Announcer := { capacity := (max capacity 1).nextPowerOfTwo }

/-- The announcer of an index. -/
def standard : Announcer := ofCapacity 64

/-- The number of the next event to be announced. -/
def position (a : Announcer) : Nat := a.dropped + a.kept.length

/-- Announce an event.  Without subscribers it is not kept.  That it is noted as the latest and that
it is sent are one step here, so announcements come one after another: none is sent between these
two parts of another one. -/
def announce (a : Announcer) (e : Event) : Announcer :=
  let a := { a with latest := some e }
  if a.subscribers.isEmpty then a
  else
    -- the oldest events make room, and those who have not got them will have missed them
    let excess := a.kept.length + 1 - a.capacity
    { a with kept := (a.kept ++ [e]).drop excess, dropped := a.dropped + excess }

/-- A new subscriber, who gets the events announced from now on. -/
def subscribe (a : Announcer) : Nat × Announcer :=
  (a.nextSubscriber,
    { a with
      subscribers := a.subscribers ++ [(a.nextSubscriber, a.position)]
      nextSubscriber := a.nextSubscriber + 1 })

/-- A subscriber leaves. -/
def unsubscribe (a : Announcer) (subscriber : Nat) : Announcer :=
  { a with subscribers := a.subscribers.filter fun s => s.1 ≠ subscriber }

/-- The announcer goes; what is kept can still be received. -/
def close (a : Announcer) : Announcer := { a with closed := true }

/-- Note the number of the event that a subscriber is to get next. -/
def moveTo (a : Announcer) (subscriber position : Nat) : Announcer :=
  { a with
    subscribers := a.subscribers.map fun s => if s.1 = subscriber then (s.1, position) else s }

/-- What a subscriber gets next. -/
def receive (a : Announcer) (subscriber : Nat) : Reception × Announcer :=
  match a.subscribers.lookup subscriber with
  | none => (.closed, a)
  | some next =>
    if next < a.dropped then (.lagged (a.dropped - next), a.moveTo subscriber a.dropped)
    else
      match a.kept[next - a.dropped]? with
      | some e => (.event e, a.moveTo subscriber (next + 1))
      | none => (if a.closed then .closed else .empty, a)

/-- What a subscriber gets by asking a number of times, up to the first time that there is
nothing. -/
def receiveUpTo (a : Announcer) (subscriber : Nat) : Nat → List Reception × Announcer
  | 0 => ([], a)
  | n + 1 =>
    match a.receive subscriber with
    | (.empty, a) => ([], a)
    | (.closed, a) => ([], a)
    | (r, a) =>
      let (rest, a) := a.receiveUpTo subscriber n
      (r :: rest, a)

/-- All that a subscriber can get now: at most one report of a lag, and the events kept. -/
def drain (a : Announcer) (subscriber : Nat) : List Reception × Announcer :=
  a.receiveUpTo subscriber (a.kept.length + 1)

end Announcer

end ShardIndex
