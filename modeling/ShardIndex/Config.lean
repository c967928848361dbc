import ShardIndex.Path
import ShardIndex.Schema.Registry

/-!
# The configuration

Where the files of a store lie, how an index is built, and how logs are written.  The column
store of all shards is one file in the data directory, and each shard has an index file of its
own below it.
-/

namespace ShardIndex

namespace Config

/-- Where the files are, and how they are read. -/
structure Storage where
  dataDir : Path
  pageSize : Nat := 4096
deriving DecidableEq, Repr

/-- The schemas that are known unless others are given. -/
def standardSchemas : List Schema.Definition :=
  [⟨"gauge", some "ds-gauge"⟩, ⟨"counter", some "ds-counter"⟩, ⟨"untyped", none⟩]

/-- How an index is built. -/
structure Building where
  /-- How many records are in flight; as many as the machine has processors, if not given. -/
  parallelism : Option Nat := none
  /-- The retention in hours, beyond which no checkpoint reaches back: one week. -/
  retentionHours : Nat := 168
  schemas : List Schema.Definition := standardSchemas
deriving DecidableEq, Repr

/-- How logs are written. -/
structure Logging where
  level : String := "info"
  format : String := "pretty"
  /-- Into which file, if not to the error stream. -/
  file : Option Path := none
deriving DecidableEq, Repr

end Config

/-- All settings. -/
structure Config where
  storage : Config.Storage
  building : Config.Building := {}
  logging : Config.Logging := {}
deriving DecidableEq, Repr

namespace Config

/-! ## Files -/

namespace Storage

/-- The data directory, with a tilde and a slash in front standing for the home directory. -/
def dataPath (s : Storage) (home : Option Path) : Path :=
  match s.dataDir.toList, home with
  | '~' :: '/' :: rest, some home => Path.join home (String.ofList rest)
  | _, _ => s.dataDir

/-- The file of the column store. -/
def storePath (s : Storage) (home : Option Path) : Path :=
  Path.join (s.dataPath home) "columnstore.db"

/-- The file name of a shard's index. -/
def indexName (shard : Shard) : Path := shard.dataset ++ "-" ++ toString shard.number ++ ".db"

/-- The file of a shard's index. -/
def indexPath (s : Storage) (home : Option Path) (shard : Shard) : Path :=
  Path.join (Path.join (s.dataPath home) "index") (indexName shard)

end Storage

/-! ## Building -/

namespace Building

/-- The retention in milliseconds. -/
def retention (b : Building) : Int := retentionMillis b.retentionHours

/-- How many records are in flight on a machine with some number of processors. -/
def limit (b : Building) (processors : Nat) : Nat := max (b.parallelism.getD processors) 1

/-- The registry of the known schemas. -/
def registry (b : Building) : Except Failure Schema.Registry :=
  Schema.Registry.ofDefinitions b.schemas

end Building

end Config

end ShardIndex
