import ShardIndex.Command.Program
import ShardIndex.Command.Reach
import ShardIndex.Disk.Stored
import Std.Time.DateTime.Timestamp

/-!
# The command line program

The files that a command may look at are read, the command is run on them, and what it has
changed is written back.
-/

namespace ShardIndex

open Command

/-- The path of an address. -/
def absolutePath (a : Address) : String := "/" ++ String.intercalate "/" a

/-- Read what lies along some names below an address. -/
def readAlong (d : Disk) (a : Address) : List String → IO Disk
  | [] => return d
  | name :: rest => do
    let next := Disk.child a name
    let place := (← IO.currentDir) / absolutePath next
    if ← place.isDir then readAlong (d.put next .directory) next rest
    else if ← place.pathExists then
      return d.put next (Node.ofBytes (← IO.FS.readBinFile place).toList)
    else return d

/-- Read what lies along some paths. -/
def readPaths (d : Disk) (paths : List Path) : IO Disk :=
  paths.foldlM (fun d p => readAlong d (d.origin p) (Path.names p)) d

/-- Write back the nodes that have changed, directories before what lies in them, and take away
the files that are gone. -/
def writeBack (before after : Disk) : IO Unit := do
  before.nodes.toList.forM fun entry => do
    if (after.node? entry.1).isNone then
      IO.FS.removeFile ((← IO.currentDir) / absolutePath entry.1)
  after.nodes.toList.forM fun entry => do
    let place := (← IO.currentDir) / absolutePath entry.1
    match entry.2.bytes?, (before.node? entry.1).bind Node.bytes? with
    | none, _ => IO.FS.createDirAll place
    | some content, old =>
      if old ≠ some content then IO.FS.writeBinFile place ⟨content.toArray⟩

/-- The lines of a file of the system; none if it cannot be read. -/
def systemLines (file : String) : IO (List String) := do
  try
    return (← IO.FS.lines file).toList
  catch _ => return []

/-- The home directory of the user's account. -/
def accountHome : IO (Option Path) := do
  let status ← systemLines "/proc/self/status"
  let user := status.findSome? fun l =>
    if l.startsWith "Uid:" then (l.splitOn "\t")[1]? else none
  return Environment.homeOf (user.getD "") (← systemLines "/etc/passwd")

/-- The variables of the environment that a command may ask for. -/
def readEnvironment : IO Environment := do
  let names :=
    ["HOME", "XDG_DATA_HOME", "XDG_CONFIG_HOME", "CHRONICLE_INDEX_DATA_DIR",
      "CHRONICLE_INDEX_PARALLELISM", "CHRONICLE_INDEX_TTL_HOURS", "CHRONICLE_INDEX_LOG_LEVEL",
      "CHRONICLE_INDEX_LOG_FORMAT"]
  let found ← names.filterMapM fun name => do
    return (← IO.getEnv name).map fun value => (name, value)
  return { entries := found, account := ← accountHome }

/-- How many processors are listed by the system; one if it does not say. -/
def countProcessors : IO Nat := do
  return max 1 ((← systemLines "/proc/cpuinfo").countP fun l => l.startsWith "processor")

/-- Read the files that an invocation may look at. -/
def readFor (k : Circumstances) (i : Invocation) (d : Disk) : IO Disk := do
  let d ← readPaths d (i.configPaths k)
  match configuration k i.configFile d with
  | .ok c => readPaths d (i.paths k c)
  | .error _ =>
    let usual := (Config.ofEnvironment k.environment).1
    readPaths d (Invocation.commandPaths k usual i.command)

/-- What is written to the error stream at the end. -/
def complaint : Ending → String
  | .failed p => "Error: " ++ p.message ++ "\n"
  | .misused => "error: unrecognized command line\n\nFor more information, try '--help'.\n"
  | _ => ""

/-- Run the program on the words of a command line; the exit code is that of its ending. -/
def start (words : List String) : IO UInt32 := do
  let began ← IO.monoMsNow
  let now := (← Std.Time.Timestamp.now).toMillisecondsSinceUnixEpoch.val
  let k : Circumstances :=
    { environment := ← readEnvironment, now := now, processors := ← countProcessors }
  let blank : Disk := { current := Path.names (← IO.currentDir).toString }
  let blank := (blank.makeAlong [] blank.current).2
  let before ←
    match ofWords words with
    | .ok i => readFor k i blank
    | .error _ => pure blank
  let (ending, after) := runWords k words before
  writeBack before after
  IO.print (ending.output ((← IO.monoMsNow) - began))
  IO.eprint (complaint ending)
  return ending.code.toUInt32

end ShardIndex

/-- The command line program. -/
def main (words : List String) : IO UInt32 := ShardIndex.start words
