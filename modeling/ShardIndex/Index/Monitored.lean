import ShardIndex.Index.Volatile
import ShardIndex.Index.Durable

/-!
# Monitored indexes

An index whose calls are written down, and in which calls of a kind can be made to fail.  A
fault is armed for one kind of call with a number of calls to let through; when that number is
used up the next call of the kind fails without reaching the index, and the fault is gone.
-/

namespace ShardIndex

/-- A call as it is written down. -/
inductive Call
  | request (r : Request)
  | announcement (e : Event)
deriving DecidableEq, Repr

/-- The kind of a call. -/
def Call.kind : Call → String
  | .request (.write .add _ _) => "add"
  | .request (.write .upsert _ _) => "upsert"
  | .request .commit => "commit"
  | .request .refreshReaders => "refresh"
  | .announcement e => e.stage.name

/-- A failure in waiting. -/
structure Fault where
  kind : String
  /-- How many calls are let through before. -/
  countdown : Nat
  text : String
deriving DecidableEq, Repr

/-- An index under observation. -/
structure Monitored (ι : Type) where
  inner : ι
  calls : List Call := []
  /-- The armed faults, at most one of a kind. -/
  faults : List Fault := []

namespace Monitored

variable {ι : Type}

/-- Arm a fault, in place of an earlier one of its kind. -/
def arm (m : Monitored ι) (f : Fault) : Monitored ι :=
  { m with faults := f :: m.faults.filter fun g => g.kind ≠ f.kind }

/-- Write a call down and look for a fault: what the call is to report, if it is to fail. -/
def intercept (m : Monitored ι) (c : Call) : Option Failure × Monitored ι :=
  let m := { m with calls := m.calls ++ [c] }
  match m.faults.find? fun f => f.kind = c.kind with
  | none => (none, m)
  | some f =>
    let others := m.faults.filter fun g => g.kind ≠ f.kind
    if f.countdown = 0 then (some (.index f.text), { m with faults := others })
    else (none, { m with faults := { f with countdown := f.countdown - 1 } :: others })

/-- Take the calls written down so far. -/
def takeCalls (m : Monitored ι) : List Call × Monitored ι := (m.calls, { m with calls := [] })

instance [Index ι] : Index (Monitored ι) where
  perform m r :=
    match m.intercept (.request r) with
    | (some e, m) => (some e, m)
    | (none, m) =>
      let (outcome, inner) := Index.perform m.inner r
      (outcome, { m with inner := inner })
  announce m e :=
    match m.intercept (.announcement e) with
    | (some _, m) => m
    | (none, m) => { m with inner := Index.announce m.inner e }

end Monitored

/-- One of the two kinds of index, chosen when the program runs. -/
inductive AnyIndex
  | volatile (x : VolatileIndex)
  | durable (x : DurableIndex)

namespace AnyIndex

instance : Index AnyIndex where
  perform
    | .volatile x, r => let (outcome, x) := Index.perform x r; (outcome, .volatile x)
    | .durable x, r => let (outcome, x) := Index.perform x r; (outcome, .durable x)
  announce
    | .volatile x, e => .volatile (Index.announce x e)
    | .durable x, e => .durable (Index.announce x e)

/-- What is committed. -/
def committed : AnyIndex → Snapshot
  | .volatile x => x.committed
  | .durable x => x.stored

/-- What readers see. -/
def reader : AnyIndex → Snapshot
  | .volatile x => x.reader
  | .durable x => x.stored

/-- Where events are announced. -/
def announcer : AnyIndex → Announcer
  | .volatile x => x.announcer
  | .durable x => x.announcer

/-- The index with another announcer. -/
def setAnnouncer : AnyIndex → Announcer → AnyIndex
  | .volatile x, a => .volatile { x with announcer := a }
  | .durable x, a => .durable { x with announcer := a }

end AnyIndex

end ShardIndex
