import ShardIndex.Path
import ShardIndex.Snapshot
import ShardIndex.Source.Paged
import Std.Data.TreeMap

/-!
# The disk

A disk is a tree of directories and files, laid out as a table of nodes by their addresses.  An
address is the list of names from the root; a path is a text, and leads to an address by a walk
that begins at the root or in the current directory.

A file holds bytes or a database.  A database has a table for the rows of a column store, or for
the rows of an index, or both.
-/

namespace ShardIndex

/-- What is in a database file. -/
structure Database where
  /-- The rows of a column store; none if there is no table for them. -/
  store : Option PagedStore := none
  /-- The rows of an index; none if there is no table for them. -/
  index : Option Snapshot := none
  /-- Whether changes are kept in a log beside the file while it is in use. -/
  isLogged : Bool := true

/-- The names from the root to a place on a disk. -/
abbrev Address := List String

/-- What is at a place on a disk. -/
inductive Node
  | directory
  | file (content : Bytes)
  | database (content : Database)

/-- Why a path leads nowhere, or to nothing that can be read or written. -/
inductive Obstacle
  | missing
  /-- It goes through a file. -/
  | notDirectory
  /-- It is a directory, and a file is needed. -/
  | isDirectory
  | nameTooLong
  /-- It has a null character in it. -/
  | nullInName
  /-- What is there is no text. -/
  | notText
deriving DecidableEq, Repr

/-- How an obstacle is reported. -/
def Obstacle.message : Obstacle → String
  | .missing => "No such file or directory (os error 2)"
  | .notDirectory => "Not a directory (os error 20)"
  | .isDirectory => "Is a directory (os error 21)"
  | .nameTooLong => "File name too long (os error 36)"
  | .nullInName => "file name contained an unexpected NUL byte"
  | .notText => "stream did not contain valid UTF-8"

/-- Whether a file with an obstacle can be opened for reading, so that the obstacle is met only by
what reads from it. -/
def Obstacle.comesLate : Obstacle → Bool
  | .isDirectory => true
  | .notText => true
  | _ => false

/-- The encoding of a text. -/
def Bytes.ofText (text : String) : Bytes := text.toUTF8.toList

/-- A tree of directories and files. -/
structure Disk where
  /-- The nodes other than the root, by address. -/
  nodes : Std.TreeMap Address Node := ∅
  current : Address := []

namespace Disk

/-! ## Nodes -/

/-- What is at an address.  The root is always there. -/
def node? (d : Disk) (a : Address) : Option Node :=
  if a = [] then some .directory else d.nodes[a]?

/-- Put a node at an address, in place of the one that was there. -/
def put (d : Disk) (a : Address) (n : Node) : Disk := { d with nodes := d.nodes.insert a n }

/-- Putting a node changes what is at its address, and nothing else. -/
theorem node?_put (d : Disk) {a : Address} (n : Node) (b : Address) (h : a ≠ []) :
    (d.put a n).node? b = if b = a then some n else d.node? b := by
  by_cases hb : b = a
  · subst hb
    simp [node?, put, h]
  · have hab : a ≠ b := fun e => hb e.symm
    simp [node?, put, Std.TreeMap.getElem?_insert, hb, hab]

/-- Take away what is at an address. -/
def erase (d : Disk) (a : Address) : Disk := { d with nodes := d.nodes.erase a }

/-- Taking a node away changes nothing at any other address. -/
theorem node?_erase (d : Disk) {a : Address} (b : Address) (h : a ≠ []) :
    (d.erase a).node? b = if b = a then none else d.node? b := by
  by_cases hb : b = a
  · subst hb
    simp [node?, erase, h]
  · have hab : a ≠ b := fun e => hb e.symm
    simp [node?, erase, Std.TreeMap.getElem?_erase, hb, hab]

/-! ## Walking along a path -/

/-- Whether there is a directory at an address, and what is wrong if there is none. -/
def enter (d : Disk) (a : Address) : Except Obstacle Unit :=
  match d.node? a with
  | some .directory => .ok ()
  | some _ => .error .notDirectory
  | none => .error .missing

/-- The place of a name in a directory. -/
def child (a : Address) (name : String) : Address :=
  if name = "." then a
  else if name = ".." then a.dropLast
  else a ++ [name]

/-- Walk through names from an address.  All of them but the last must lead to directories. -/
def walk (d : Disk) : Address → List String → Except Obstacle Address
  | a, [] => .ok a
  | a, name :: rest => do
    d.enter a
    if Path.maxName < name.utf8ByteSize then .error .nameTooLong
    else d.walk (child a name) rest

/-- The names of a path; one that ends in a slash goes on into the directory. -/
def steps (p : Path) : List String :=
  let names := Path.names p
  if p.toList.getLast? = some '/' then names ++ ["."] else names

/-- Where a path begins. -/
def origin (d : Disk) (p : Path) : Address := if Path.isAbsolute p then [] else d.current

/-- Where a path leads.  There may be nothing there yet. -/
def locate (d : Disk) (p : Path) : Except Obstacle Address :=
  if p.toList.isEmpty then .error .missing
  else if Path.hasNull p then .error .nullInName
  else if Path.isTooLong p then .error .nameTooLong
  else d.walk (d.origin p) (steps p)

/-- Whether there is anything at a path. -/
def pathExists (d : Disk) (p : Path) : Bool :=
  match d.locate p with
  | .ok a => (d.node? a).isSome
  | .error _ => false

/-! ## Reading and writing -/

/-- The content of the file at a path, if it is made of bytes; a database counts as bytes that
are no text. -/
def readBytes (d : Disk) (p : Path) : Except Obstacle Bytes := do
  match d.node? (← d.locate p) with
  | none => .error .missing
  | some .directory => .error .isDirectory
  | some (.file content) => .ok content
  | some (.database _) => .error .notText

/-- The text in the file at a path. -/
def readText (d : Disk) (p : Path) : Except Obstacle String := do
  match (← d.readBytes p).text? with
  | some text => .ok text
  | none => .error .notText

/-- Where a file can be made at a path, or where there is one. -/
def fileAddress (d : Disk) (p : Path) : Except Obstacle Address := do
  let a ← d.locate p
  match d.node? a with
  | some .directory => .error .isDirectory
  | _ => .ok a

/-- Write a file, over the one that was there. -/
def write (d : Disk) (p : Path) (content : Bytes) : Except Obstacle Disk :=
  (d.fileAddress p).map fun a => d.put a (.file content)

/-- Make a file unless there is one. -/
def touch (d : Disk) (p : Path) : Except Obstacle Disk :=
  (d.fileAddress p).map fun a => if (d.node? a).isSome then d else d.put a (.file [])

/-! ## Directories -/

/-- Make the directories along a list of names where they are missing.  Those made before one
that cannot be made stay. -/
def makeAlong (d : Disk) : Address → List String → Except Obstacle Address × Disk
  | a, [] => (.ok a, d)
  | a, name :: rest =>
    let next := child a name
    match d.node? next with
    | some .directory => d.makeAlong next rest
    | some _ => (.error .notDirectory, d)
    | none =>
      if Path.maxName < name.utf8ByteSize then (.error .nameTooLong, d)
      else (d.put next .directory).makeAlong next rest

/-- The names on a path that lead somewhere else. -/
def stops (p : Path) : List String := (Path.names p).filter fun n => n ≠ "."

/-- Make the directory that a path lies in. -/
def makeParent (d : Disk) (p : Path) : Except Obstacle Address × Disk :=
  if Path.hasNull (Path.parent p) then (.error .nullInName, d)
  else if Path.isTooLong (Path.parent p) then (.error .nameTooLong, d)
  else d.makeAlong (d.origin p) (stops p).dropLast

end Disk

end ShardIndex
