import ShardIndex.Bootstrap.Strategy
import ShardIndex.Command
import ShardIndex.Command.Ingest
import ShardIndex.Command.Report
import ShardIndex.Config.Template
import ShardIndex.Disk.Opening
import ShardIndex.Index.Sealed
import ShardIndex.Index.Troubled
import ShardIndex.Source.Interrupted

/-!
# Running a command

A command works on the files of a disk and ends with a report or with a problem.  Whatever it has
made on the disk before a problem stays.  An index is saved as far as it is committed; writes that
were not committed are lost with the command.

The ids of an index are given by key, beginning with those that the index already holds, so they
stay the same however often a command is run again.
-/

namespace ShardIndex.Command

open Bootstrap Identity

/-- What a command finds around it besides files. -/
structure Circumstances where
  environment : Environment
  now : Int
  processors : Nat
  /-- In which order the tasks of a crew get on. -/
  schedule : List Choice := []
  /-- Where the streams of the column store break off, if they do. -/
  breaks : Option Int → Option (Nat × Failure) := fun _ => none
  /-- Whether what is asked of the database of an index fails, one thing after another. -/
  troubles : List Bool := []

/-- The databases of a shard, opened. -/
structure ShardFiles where
  reader : PagedReader
  index : Disk.Opened

/-- Open the column store and the index of a shard, in this order. -/
def openShard (k : Circumstances) (c : Config) (shard : Shard) (d : Disk) :
    Except Problem ShardFiles × Disk :=
  let storePath := c.storage.storePath k.environment.home?
  let indexPath := c.storage.indexPath k.environment.home? shard
  match d.openDatabase storePath .store with
  | (.error _, d) => (.error (.store storePath), d)
  | (.ok stored, d) =>
    match d.openDatabase indexPath .index with
    | (.error _, d) => (.error (.index indexPath), d)
    | (.ok indexed, d) => (.ok ⟨⟨stored.store, c.storage.pageSize⟩, indexed⟩, d)

/-- Fill the index of a shard from a shard of the column store. -/
def fill (k : Circumstances) (c : Config) (operation : String) (shard source : Shard)
    (schemas : Schema.Registry) (strategy : Strategy) (d : Disk) :
    Except Problem Report × Disk :=
  match openShard k c shard d with
  | (.error p, d) => (.error p, d)
  | (.ok opened, d) =>
    let settings : Settings := ⟨c.building.limit k.processors, k.now⟩
    let rows := opened.index.index
    let store : Interrupted PagedReader := ⟨opened.reader, k.breaks⟩
    let resolver := Keyed.ofExisting (Snapshot.ids rows)
    -- a sealed database fails at its first write, so nothing of it has to be saved
    if opened.index.isSealed then
      let world : World Keyed SealedIndex := { resolver, index := ⟨DurableIndex.openOn rows⟩ }
      let (outcome, world) := strategy.run settings schemas store source k.schedule world
      match outcome with
      | .error e => (.error (.failure e), d)
      | .ok count => (.ok (.summary operation shard count world.index.inner.announcer.latest), d)
    else
      let world : World Keyed TroubledIndex :=
        { resolver, index := ⟨DurableIndex.openOn rows, k.troubles⟩ }
      let (outcome, world) := strategy.run settings schemas store source k.schedule world
      let d := d.saveIndex opened.index world.index.inner.stored
      match outcome with
      | .error e => (.error (.failure e), d)
      | .ok count => (.ok (.summary operation shard count world.index.inner.announcer.latest), d)

/-- Load the records of a file into the column store. -/
def loadFile (k : Circumstances) (c : Config) (shard : Shard) (file : Path) (d : Disk) :
    Except Problem Report × Disk :=
  let storePath := c.storage.storePath k.environment.home?
  match d.openDatabase storePath .store with
  | (.error _, d) => (.error (.store storePath), d)
  | (.ok stored, d) =>
    match Ingest.contentOf d c.storage.pageSize file with
    | .error p => (.error p, if p.isAbrupt then d.breakOff stored else d)
    | .ok content =>
      let (outcome, store) :=
        Ingest.load c.storage.pageSize ⟨shard, stored.isSealed⟩ content stored.store
      let d := d.saveStore stored store
      match outcome with
      | .error p => (.error p, d)
      | .ok count => (.ok (.summary "ingest" shard count none), d)

/-- Show what the index of a shard holds. -/
def showStats (k : Circumstances) (c : Config) (shard : Shard) (d : Disk) :
    Except Problem Report × Disk :=
  let indexPath := c.storage.indexPath k.environment.home? shard
  match d.openDatabase indexPath .index with
  | (.error _, d) => (.error (.index indexPath), d)
  | (.ok indexed, d) =>
    (.ok (.statistics shard indexPath indexed.index.size (Snapshot.maxId indexed.index)), d)

/-- Write the configuration file to begin with, or show it. -/
def giveConfig (output : Option Path) (d : Disk) : Except Problem Report × Disk :=
  match output with
  | none => (.ok (.text Config.template), d)
  | some file =>
    match d.write file (Bytes.ofText Config.template) with
    | .error _ => (.error (.output file), d)
    | .ok d => (.ok (.written file), d)

/-- Run a command under a configuration. -/
def run (k : Circumstances) (c : Config) (command : Command) (d : Disk) :
    Except Problem Report × Disk :=
  match command with
  | .ingest shard file => loadFile k c shard file d
  | .rebuild shard => fill k c "bootstrap-raw" shard shard Schema.Registry.empty .raw d
  | .rebuildLive shard checkpoint parallelism =>
    fill k c "bootstrap-downsample" shard shard Schema.Registry.empty
      (.downsample checkpoint c.building.retention parallelism) d
  | .refresh shard rawDataset firstHour lastHour parallelism =>
    match c.building.registry with
    | .error e => (.error (.failure e), d)
    | .ok schemas =>
      fill k c "refresh" shard ⟨rawDataset, shard.number⟩ schemas
        (.refresh firstHour lastHour parallelism) d
  | .stats shard => showStats k c shard d
  | .writeConfig output => giveConfig output d

/-- The configuration for a command: that of the file named, or else the standard one. -/
def configuration (k : Circumstances) (file : Option Path) (d : Disk) :
    Except Problem Config :=
  match file with
  | none => .ok (Config.loadStandard k.environment d).1
  | some file =>
    match Config.loadOverridden k.environment d file with
    | .error p => .error (.configuration p)
    | .ok (c, _) => .ok c

/-- Make the log file unless there is one. -/
def openLog (c : Config) (d : Disk) : Except Problem Disk :=
  match c.logging.file with
  | none => .ok d
  | some file =>
    match d.touch file with
    | .error _ => .error (.log file)
    | .ok d => .ok d

end Command

namespace Invocation

open Command

/-- Carry out an invocation.  The configuration file to begin with is given without a look at any
configuration; every other command has its configuration and its log first. -/
def run (k : Circumstances) (i : Invocation) (d : Disk) : Except Problem Report × Disk :=
  match i.command with
  | .writeConfig output => giveConfig output d
  | command =>
    match configuration k i.configFile d with
    | .error p => (.error p, d)
    | .ok c =>
      match openLog c d with
      | .error p => (.error p, d)
      | .ok d => command.run k c d

end Invocation

end ShardIndex
