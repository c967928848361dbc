import ShardIndex.Bootstrap.Crew
import ShardIndex.Schema.Registry

/-!
# Strategies

Three ways of filling an index from a column store: rebuild it from every record, one at a time;
rebuild it by a crew from the records still alive after a checkpoint; or refresh it by a crew
with the downsampled keys of the records updated in some hours.

All three have one shape, a `Plan`: announce that content is being refreshed, write the records,
commit, announce what is complete (except after the second strategy), and refresh the readers.
Whatever fails first ends the call there.
-/

namespace ShardIndex.Bootstrap

open Identity

/-- Choices that apply to every call. -/
structure Settings where
  /-- How many records a crew has in flight, unless a call asks otherwise. -/
  parallelism : Nat
  now : Int := 0
deriving DecidableEq, Repr

namespace Settings

/-- Set the number of records in flight, to at least one. -/
def withParallelism (s : Settings) (n : Nat) : Settings := { s with parallelism := max n 1 }

/-- The number of records in flight for a call: as asked for, or else as set, and at least one. -/
def limit (s : Settings) (requested : Option Nat) : Nat := max (requested.getD s.parallelism) 1

end Settings

/-- A way of filling an index. -/
inductive Strategy
  /-- Every record, one at a time. -/
  | raw
  /-- The records alive after a checkpoint, which reaches no further back than the retention. -/
  | downsample (checkpoint : Option Int) (retention : Int) (parallelism : Option Nat)
  /-- The downsampled keys of the records updated in some hours. -/
  | refresh (firstHour lastHour : Int) (parallelism : Option Nat)
deriving DecidableEq, Repr

/-- How the records of a call are written. -/
inductive Writing
  /-- One at a time, from one stream. -/
  | inOrder (s : RecordStream)
  /-- By a crew with a limit, from a feed. -/
  | byCrew (limit : Nat) (feed : Feed)

/-- The feed of the streams of some hours, which are all closed at first. -/
def Feed.ofHours (span : HourSpan) (updatedIn : Int → RecordStream) : Feed :=
  { closed := span.length, later := fun back => updatedIn (span.last - back) }

/-- The streams of some hours come in the order of the hours. -/
theorem Feed.streams_ofHours (span : HourSpan) (updatedIn : Int → RecordStream) :
    (ofHours span updatedIn).streams = span.hours.map updatedIn := by
  have hspan := span.first_le_last
  refine List.ext_getElem (by simp [streams, ofHours, HourSpan.hours]) fun i hi _ => ?_
  have hi : i < span.length := by simpa [streams, ofHours] using hi
  simp only [streams, ofHours, HourSpan.hours, List.nil_append, List.getElem_map,
    List.getElem_reverse, List.getElem_range, List.length_range]
  congr 1
  simp only [HourSpan.length] at hi ⊢
  omega

/-- What a call is going to do. -/
structure Plan where
  /-- What is announced before anything is written. -/
  opening : Event
  mode : WriteMode
  writing : Writing
  /-- What is announced after the commit. -/
  closing : Option Event

/-- The plan of a strategy for a shard of a store.  A refresh whose hours come in the wrong order
has none. -/
def Strategy.plan {σ : Type} [ColumnStore σ] (settings : Settings) (schemas : Schema.Registry)
    (store : σ) (shard : Shard) : Strategy → Except Failure Plan
  | .raw =>
    .ok
      { opening := ⟨.refreshing, settings.now⟩
        mode := .add
        writing := .inOrder (ColumnStore.scan store shard)
        closing := some ⟨.synced, settings.now⟩ }
  | .downsample checkpoint retention parallelism =>
    let checkpoint := effectiveCheckpoint checkpoint settings.now retention
    let alive (r : Record) : Option Record := if checkpoint < r.endTime then some r else none
    .ok
      { opening := ⟨.refreshing, checkpoint⟩
        mode := .add
        writing := .byCrew (settings.limit parallelism)
          (.ofStream ((ColumnStore.scan store shard).filterMap alive))
        closing := none }
  | .refresh firstHour lastHour parallelism => do
    -- a span that is none ends the call before anything is announced
    let span ← HourSpan.ofBounds firstHour lastHour
    .ok
      { opening := ⟨.refreshing, span.startTime⟩
        mode := .upsert
        writing := .byCrew (settings.limit parallelism)
          (.ofHours span fun hour =>
            (ColumnStore.updatedIn store shard hour).filterMap schemas.downsampleRecord)
        closing := some ⟨.synced, span.endTime⟩ }

namespace Plan

variable {ρ ι : Type} [Resolver ρ] [Index ι]

/-- Write the records of a plan and count them. -/
def write (p : Plan) (schedule : List Choice) (w : World ρ ι) :
    Except Failure Nat × World ρ ι :=
  match p.writing with
  | .inOrder s => World.writeInOrder p.mode s.failure s.records 0 w
  | .byCrew limit feed => Crew.writeAll p.mode limit schedule feed w

/-- Commit, announce that content is complete, and refresh the readers. -/
def conclude (p : Plan) (count : Nat) (w : World ρ ι) : Except Failure Nat × World ρ ι :=
  match w.request .commit with
  | (some e, w) => (.error e, w)
  | (none, w) =>
    -- content counts as complete once it is durable, whether readers see it or not
    let w := p.closing.elim w w.announce
    match w.request .refreshReaders with
    | (some e, w) => (.error e, w)
    | (none, w) => (.ok count, w)

/-- Carry a plan out under a schedule. -/
def run (p : Plan) (schedule : List Choice) (w : World ρ ι) : Except Failure Nat × World ρ ι :=
  match p.write schedule (w.announce p.opening) with
  | (.error e, w) => (.error e, w)
  | (.ok count, w) => p.conclude count w

end Plan

/-- Carry a strategy out for a shard of a store, under a schedule for the crew it may need. -/
def Strategy.run {σ ρ ι : Type} [ColumnStore σ] [Resolver ρ] [Index ι] (strategy : Strategy)
    (settings : Settings) (schemas : Schema.Registry) (store : σ) (shard : Shard)
    (schedule : List Choice) (w : World ρ ι) : Except Failure Nat × World ρ ι :=
  match strategy.plan settings schemas store shard with
  | .error e => (.error e, w)
  | .ok p => p.run schedule w

end ShardIndex.Bootstrap
