import ShardIndex.Command.Run

/-!
# Which files a command looks at

The paths that carrying out a command may lead to.  First those where its configuration may be;
the others depend on the configuration.
-/

namespace ShardIndex

open Command

namespace Invocation

/-- Where the configuration may be. -/
def configPaths (k : Circumstances) (i : Invocation) : List Path :=
  match i.configFile with
  | some file => [file]
  | none => Config.standardFiles k.environment

/-- Where the database of a name is, with what is looked for beside it and what else is asked for: at
the path that the name is, and at the path that it stands for. -/
def databasePaths (name : Path) : List Path :=
  match Locator.ofPath? name with
  | some (.file file access) =>
    let plain := String.ofList (Path.withoutTail file.toList.reverse).reverse
    name :: file :: access.like?.toList ++ (Disk.neighbours.map fun ending => plain ++ ending)
  | _ => [name]

/-- The file of the column store and that of a shard's index. -/
def shardPaths (k : Circumstances) (c : Config) (shard : Shard) : List Path :=
  databasePaths (c.storage.storePath k.environment.home?) ++
    databasePaths (c.storage.indexPath k.environment.home? shard)

/-- What a command reads or writes itself, under a configuration. -/
def commandPaths (k : Circumstances) (c : Config) : Command → List Path
  | .ingest shard file => file :: shardPaths k c shard
  | .rebuild shard => shardPaths k c shard
  | .rebuildLive shard _ _ => shardPaths k c shard
  | .refresh shard _ _ _ _ => shardPaths k c shard
  | .stats shard => shardPaths k c shard
  | .writeConfig output => output.toList

/-- What an invocation reads or writes under a configuration. -/
def paths (k : Circumstances) (c : Config) (i : Invocation) : List Path :=
  c.logging.file.toList ++ commandPaths k c i.command

end Invocation

end ShardIndex
