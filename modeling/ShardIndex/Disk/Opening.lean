import ShardIndex.Disk
import ShardIndex.Disk.Locator

/-!
# Opening a database

Opening a database makes the directories above the path by which it is named, and the file in
which it is kept if that is missing.  A file with a single byte or none becomes a database, and
one that holds anything else is refused.

Three files accompany a database while it is written: a journal, from which changes are undone; a
log, to which they are added first; and an index of the log.  There has to be room for them, and
for a lock where that is a directory.
Those that an earlier use has left are looked at before the database itself: a journal is undone
and a log is continued, so they are gone in the end, even if the database is then refused.  A
database that may only be read leaves its log behind.
-/

namespace ShardIndex

namespace Node

/-- Whether a node is a directory. -/
def isDirectory : Node → Bool
  | .directory => true
  | _ => false

/-- Whether a node counts as something left by an earlier use: an empty file does not. -/
def counts : Node → Bool
  | .file [] => false
  | _ => true

/-- Whether a journal holds changes to be undone: it does not begin with a null byte. -/
def isPending : Node → Bool
  | .file (b :: _) => b ≠ 0
  | .database _ => true
  | _ => false

end Node

namespace Disk

/-! ## The place of a file -/

/-- How many bytes an address takes when it is written as a path. -/
def addressSize (a : Address) : Nat := a.foldl (fun n name => n + 1 + name.utf8ByteSize) 0

/-- The address of a database has at most so many bytes. -/
def maxAddress : Nat := 504

/-- Whether a name may be looked for at an address: there is a directory and the name is not too
long for it, or there is nothing yet. -/
def admits (d : Disk) (a : Address) (name : String) : Bool :=
  match d.enter a with
  | .ok _ => name.utf8ByteSize ≤ Path.maxName
  | .error cause => cause == .missing

/-- Follow names from an address, two dots leading back by one name whatever is there. -/
def follow (d : Disk) : Address → List String → Option Address
  | a, [] => some a
  | a, name :: rest =>
    if name = "." then d.follow a rest
    else if name = ".." then d.follow a.dropLast rest
    else
      let next := a ++ [name]
      if addressSize next < 512 ∧ d.admits a name then d.follow next rest else none

/-- The address of a database file. -/
def fileOf? (d : Disk) (p : Path) : Option Address :=
  (d.follow (d.origin p) (Path.names p)).filter fun a =>
    a ≠ [] ∧ addressSize a ≤ maxAddress ∧ (d.enter a.dropLast).isOk

/-! ## Companions -/

/-- What the names of the files that accompany a database end in: the journal, the log, and the
index of the log. -/
def companions : List String := ["-journal", "-wal", "-shm"]

/-- What the names that are looked for beside a database end in: those of its companions, and that
of a directory that is its lock.  Nothing is put or taken away where the lock would be. -/
def neighbours : List String := companions ++ [".lock"]

/-- The name of a file beside the database at an address. -/
def besideName (a : Address) (ending : String) : String := a.getLast?.getD "" ++ ending

/-- The address of a file beside the database at an address. -/
def beside (a : Address) (ending : String) : Address := a.dropLast ++ [besideName a ending]

/-- Whether there is room for a file beside a database: its name is not too long, and is not that
of a directory. -/
def hasRoom (d : Disk) (a : Address) (ending : String) : Bool :=
  (besideName a ending).utf8ByteSize ≤ Path.maxName &&
    !(d.node? (beside a ending)).any Node.isDirectory

/-! ## Steps -/

/-- Something that is done on a disk and may fail; what is done before a failure stays. -/
abbrev Step := ExceptT Failure (StateM Disk)

/-- Put a node at an address. -/
def putNode (a : Address) (n : Node) : Step Unit := modify fun d => d.put a n

/-- Take away the file beside a database. -/
def eraseBeside (a : Address) (ending : String) : Step Unit :=
  modify fun d => d.erase (beside a ending)

/-- Put a file beside a database, unless there is one. -/
def touchBeside (a : Address) (ending : String) (content : Bytes) : Step Unit :=
  modify fun d =>
    if (d.node? (beside a ending)).isSome then d else d.put (beside a ending) (.file content)

/-- Go on only under a condition. -/
def demand (condition : Bool) : Step Unit := if condition then return else throw .database

/-- What is in the file of a database. -/
inductive Content
  /-- Nothing, or a single byte. -/
  | empty
  | foreign
  | database (content : Database)

/-- Whether there is nothing in a file. -/
def Content.isEmpty : Content → Bool
  | .empty => true
  | _ => false

/-- What is in a file, if the node is one. -/
def Content.ofNode? : Node → Option Content
  | .directory => none
  -- a single byte is less than any header
  | .file (_ :: _ :: _) => some .foreign
  | .file _ => some .empty
  | .database content => some (.database content)

/-- Look for the file whose permissions a new file takes, if one is named. -/
def findLike (access : Access) : Step Unit := do
  match access.like? with
  | some p => demand ((← get).pathExists p)
  | none => return

/-- Find the file at an address, or make it. -/
def findFile (a : Address) (access : Access) : Step Content := do
  match (← get).node? a with
  | some node =>
    match Content.ofNode? node with
    | some content => return content
    | none => throw .database
  | none =>
    demand access.creates
    putNode a (.file [])
    return .empty

/-- Lock a file by a directory beside it, if that is how files are locked. -/
def lock (a : Address) (access : Access) : Step Unit := do
  if access.layer = .dotted then
    let d ← get
    demand (d.hasRoom a ".lock" && (d.node? (beside a ".lock")).isNone)

/-- Undo what a journal holds.  An empty database has nothing to undo, and loses its journal
unless that takes a lock that cannot be had.  Where a directory is the lock, the journal seems to
be in use and is left alone. -/
def undoJournal (a : Address) (access : Access) (isEmpty : Bool) : Step Unit := do
  if access.layer = .dotted then return
  match ((← get).node? (beside a "-journal")).filter Node.counts with
  | none => return
  | some node =>
    if isEmpty then
      if !node.isDirectory && !(access.isReadOnly && access.layer.hasLog) then
        eraseBeside a "-journal"
    else if node.isDirectory then throw .database
    else if node.isPending then
      demand (!access.isReadOnly)
      eraseBeside a "-journal"

/-- Continue a log, and say whether there is one.  An empty database loses its log. -/
def continueLog (a : Address) (access : Access) (isEmpty : Bool) : Step Bool := do
  match ((← get).node? (beside a "-wal")).filter Node.counts with
  | none => return false
  | some node =>
    demand (!node.isDirectory)
    if isEmpty then
      eraseBeside a "-wal"
      return false
    else
      demand access.layer.hasLog
      return true

/-- Whether the index of a log cannot be kept in a file, because a directory is in its place. -/
def lacksLogIndex (d : Disk) (a : Address) (access : Access) : Bool :=
  access.layer = .shared && (d.node? (beside a "-shm")).any Node.isDirectory

/-- Leave the index of a log, if it is kept in a file. -/
def leaveLogIndex (a : Address) (access : Access) : Step Unit := do
  if access.layer = .shared then
    -- what the index of a log holds is of no account here, only that it is there
    if access.isReadOnly then putNode (beside a "-shm") (.file [255]) else eraseBeside a "-shm"

/-- Leave a log, if there is one.  It is taken away with its index by one that may write both. -/
def leaveLog (a : Address) (access : Access) (isLogged : Bool) : Step Unit := do
  if isLogged then
    if (← get).lacksLogIndex a access then touchBeside a "-wal" []
    else if access.isReadOnly then
      touchBeside a "-wal" []
      leaveLogIndex a access
    else
      eraseBeside a "-wal"
      leaveLogIndex a access

/-! ## Parts -/

/-- The parts that a database may have, each with a table of its own. -/
inductive Part
  | store
  | index
deriving DecidableEq, Repr

namespace Part

/-- Whether a database has a part. -/
def isIn (part : Part) (content : Database) : Bool :=
  match part with
  | .store => content.store.isSome
  | .index => content.index.isSome

/-- A database with a part added, without rows, unless it has it. -/
def addTo (part : Part) (content : Database) : Database :=
  match part with
  | .store => { content with store := some (content.store.getD {}) }
  | .index => { content with index := some (content.index.getD Table.empty) }

/-- What was added is there. -/
theorem isIn_addTo (part : Part) (content : Database) : part.isIn (part.addTo content) = true := by
  cases part <;> rfl

end Part

/-! ## Opening -/

/-- An open database. -/
structure Opened where
  /-- Where its file is; none for a database in memory. -/
  address : Option Address
  content : Database
  /-- Whether it may only be read. -/
  isSealed : Bool := false
  /-- The files beside it while it is open, by what their names end in. -/
  traces : List (String × Bytes) := []

namespace Opened

/-- The rows of the column store in a database. -/
def store (o : Opened) : PagedStore := o.content.store.getD {}

/-- The rows of the index in a database. -/
def index (o : Opened) : Snapshot := o.content.index.getD Table.empty

end Opened

/-- The files beside a database while it is open: its log, in which changes may have been made
already, and the index of the log. -/
def tracesOf (layer : Layer) (isChanged : Bool) : List (String × Bytes) :=
  let log := ("-wal", if isChanged then [255] else [])
  match layer with
  | .shared => [log, ("-shm", [255])]
  | .exclusive => [log]
  | _ => []

/-- Make a database of an empty file. -/
def prepare (a : Address) (access : Access) (part : Part) : Step Opened := do
  demand (!access.isReadOnly && (← get).hasRoom a "-journal")
  let content : Database := { isLogged := access.layer.hasLog }
  eraseBeside a "-journal"
  putNode a (.database content)
  -- the file is a database from here on, even if its part cannot be added
  let isStuck := (← get).lacksLogIndex a access
  leaveLog a access content.isLogged
  demand !isStuck
  putNode a (.database (part.addTo content))
  return {
    address := a
    content := part.addTo content
    traces := tracesOf access.layer true }

/-- Keep the changes of a database in a log from now on, if that can be done and is not yet. -/
def keepLog (a : Address) (access : Access) (content : Database) (inLog : Bool) :
    Step Database := do
  if access.layer.hasLog && !inLog && !content.isLogged then
    demand (!access.isReadOnly && (← get).hasRoom a "-journal")
    eraseBeside a "-journal"
    putNode a (.database { content with isLogged := true })
    return { content with isLogged := true }
  else return content

/-- Add a part to a database that may be written and does not have it.  A change that is not kept
in a log takes the journal away. -/
def complete (a : Address) (access : Access) (part : Part) (content : Database)
    (isSealed : Bool) : Step Unit := do
  if part.isIn content || isSealed then return
  else if access.layer.hasLog then putNode a (.database (part.addTo content))
  else
    eraseBeside a "-journal"
    putNode a (.database (part.addTo content))

/-- Whether a database may only be read. -/
def isSealed (d : Disk) (a : Address) (access : Access) : Bool :=
  access.isReadOnly || access.layer.hasLog && d.lacksLogIndex a access

/-- Enter a database that is there, its log in use or not, and see to it that it has a part. -/
def enterDatabase (a : Address) (access : Access) (part : Part) (content : Database)
    (inLog : Bool) : Step Opened := do
  demand (access.layer.hasLog || !content.isLogged)
  let content ← keepLog a access content inLog
  let d ← get
  complete a access part content (d.isSealed a access)
  leaveLog a access access.layer.hasLog
  demand (part.isIn content || !d.isSealed a access)
  return {
    address := a
    content := part.addTo content
    isSealed := d.isSealed a access
    traces := tracesOf access.layer (!part.isIn content) }

/-- Open a file that is taken as it is. -/
def openFixed (a : Address) (part : Part) (found : Content) : Step Opened := do
  match found with
  | .database content =>
    demand (part.isIn content)
    return { address := a, content, isSealed := true }
  | _ => throw .database

/-- Go on with what was found in a file, its log in use or not. -/
def enterFound (a : Address) (access : Access) (part : Part) (inLog : Bool) :
    Content → Step Opened
  | .empty => prepare a access part
  | .foreign => do
    leaveLog a access inLog
    throw .database
  | .database content => enterDatabase a access part content inLog

/-- Open a file with what lies beside it. -/
def openShared (a : Address) (access : Access) (part : Part) (found : Content) :
    Step Opened := do
  lock a access
  undoJournal a access found.isEmpty
  let inLog ← continueLog a access found.isEmpty
  enterFound a access part inLog found

/-- Open the database in the file at an address. -/
def openFile (a : Address) (access : Access) (part : Part) : Step Opened := do
  findLike access
  let found ← findFile a access
  if access.isFixed then openFixed a part found else openShared a access part found

/-- Open the database of a name for a part of it.  What is done on the disk stays even if the
database cannot be opened in the end. -/
def openDatabase (d : Disk) (p : Path) (part : Part) : Except Failure Opened × Disk :=
  match d.makeParent p with
  | (.error _, d) => (.error .files, d)
  | (.ok _, d) =>
    match Locator.ofPath? p with
    | none => (.error .database, d)
    | some .memory => (.ok { address := none, content := {} }, d)
    | some (.file file access) =>
      match d.fileOf? file with
      | none => (.error .database, d)
      | some a => (openFile a access part).run.run d

/-- Leave a database open, with its files as they are. -/
def breakOff (d : Disk) (o : Opened) : Disk :=
  match o.address with
  | none => d
  | some a => o.traces.foldl (fun d trace => d.put (beside a trace.1) (.file trace.2)) d

/-! ## Saving -/

/-- The database at an address; an empty one where there is none. -/
def databaseAt (d : Disk) (a : Address) : Database :=
  match d.node? a with
  | some (.database content) => content
  | _ => {}

/-- Write an open database, if it is in a file.  Changes that are not kept in a log go through a
journal, which is gone when they are made. -/
def save (d : Disk) (o : Opened) (isChanged : Bool) (change : Database → Database) : Disk :=
  match o.address with
  | none => d
  | some a =>
    let content := d.databaseAt a
    let d := d.put a (.database (change content))
    if isChanged && !content.isLogged then d.erase (beside a "-journal") else d

/-- Write the rows of a column store into an open database. -/
def saveStore (d : Disk) (o : Opened) (store : PagedStore) : Disk :=
  d.save o (store ≠ o.store) fun content => { content with store := some store }

/-- Write the rows of an index into an open database. -/
def saveIndex (d : Disk) (o : Opened) (index : Snapshot) : Disk :=
  d.save o (index.rows ≠ o.index.rows) fun content => { content with index := some index }

end Disk

end ShardIndex
