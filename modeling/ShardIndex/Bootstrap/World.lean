import ShardIndex.Identity.Resolver
import ShardIndex.Index.Interface

/-!
# The world of a call

A call that builds or refreshes an index works on a resolver and an index, whatever they are.
Everything it does to them is entered in a journal in the order in which it happens, with what
came of it, so that statements about the order of events are statements about the journal.
-/

namespace ShardIndex.Bootstrap

open Identity

/-- One thing that happened in a call. -/
inductive Action
  /-- The resolver was asked about a record. -/
  | consulted (record : Record) (answer : Answer)
  /-- The index was asked for something. -/
  | requested (request : Request) (outcome : Option Failure)
  /-- The index was told to announce an event. -/
  | announced (event : Event)
deriving DecidableEq, Repr

/-- A resolver and an index, with what was done to them. -/
structure World (ρ ι : Type) where
  resolver : ρ
  index : ι
  /-- What has happened, in order. -/
  journal : List Action := []

namespace World

variable {ρ ι : Type} [Resolver ρ] [Index ι]

/-- Ask the resolver about a record. -/
def consult (w : World ρ ι) (record : Record) : Answer × World ρ ι :=
  let (answer, resolver) := Resolver.resolve w.resolver record
  (answer, { w with resolver := resolver, journal := w.journal ++ [.consulted record answer] })

/-- Ask the index for something. -/
def request (w : World ρ ι) (r : Request) : Option Failure × World ρ ι :=
  let (outcome, index) := Index.perform w.index r
  (outcome, { w with index := index, journal := w.journal ++ [.requested r outcome] })

/-- Have the index announce an event. -/
def announce (w : World ρ ι) (e : Event) : World ρ ι :=
  { w with index := Index.announce w.index e, journal := w.journal ++ [.announced e] }

/-- Write the entry of a record under an id. -/
def writeEntry (w : World ρ ι) (mode : WriteMode) (record : Record) (id : PartId) :
    Option Failure × World ρ ι :=
  w.request (.write mode record.key (record.entry id))

/-- Resolve a record, and write its entry under the id.  A resolver that breaks down ends this as a
failed task does.  A call that has no tasks, and writes its records itself, would break down with
its resolver instead of returning; that it returns the same failure there is an idealization. -/
def writeRecord (w : World ρ ι) (mode : WriteMode) (record : Record) :
    Option Failure × World ρ ι :=
  match w.consult record with
  | (.id n, w) => w.writeEntry mode record n
  | (.refused cause, w) => (some cause, w)
  | (.panicked, w) => (some .task, w)

/-- Write the records of a stream one after another and count them.  The first record that
cannot be resolved or written ends it, and so does a failure of the stream. -/
def writeInOrder (mode : WriteMode) (failure : Option Failure) :
    List Record → Nat → World ρ ι → Except Failure Nat × World ρ ι
  | [], count, w =>
    match failure with
    | none => (.ok count, w)
    | some e => (.error e, w)
  | record :: rest, count, w =>
    match w.writeRecord mode record with
    | (some e, w) => (.error e, w)
    | (none, w) => writeInOrder mode failure rest (count + 1) w

end World

end ShardIndex.Bootstrap
