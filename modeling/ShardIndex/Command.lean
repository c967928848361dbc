import ShardIndex.Path
import ShardIndex.Record

/-!
# Commands

What the program can be told to do.
-/

namespace ShardIndex

/-- A command with its arguments. -/
inductive Command
  /-- Load the records of a file into the column store. -/
  | ingest (shard : Shard) (file : Path)
  /-- Rebuild an index from every record. -/
  | rebuild (shard : Shard)
  /-- Rebuild an index from the records alive after a checkpoint. -/
  | rebuildLive (shard : Shard) (checkpoint : Option Int) (parallelism : Option Nat)
  /-- Refresh an index from the records of a raw dataset that were updated in some hours. -/
  | refresh (shard : Shard) (rawDataset : String) (firstHour lastHour : Int)
      (parallelism : Option Nat)
  | stats (shard : Shard)
  /-- Write the configuration file to begin with, or show it. -/
  | writeConfig (output : Option Path)
deriving DecidableEq, Repr

/-- A command with the configuration file it is to use, if one is named. -/
structure Invocation where
  command : Command
  configFile : Option Path
deriving DecidableEq, Repr

end ShardIndex
