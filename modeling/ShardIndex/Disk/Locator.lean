import ShardIndex.Path
import ShardIndex.Text.Hex
import ShardIndex.Text.Numeral

/-!
# Where a database is kept

A database is named by a path, or by a text that begins with `file:`.  Such a text is read as

    file:[//host]path[?name=value&name=value...][#remark]

where the host is left out or is `localhost`, and every byte may be written as a percent sign
with two hexadecimal digits.  An escaped null byte ends the part in which it stands.  Of the
options, `mode` says how the file may be used, `cache` whether it is shared, and `vfs` by which
layer it is reached; `nolock` and `immutable` do without locks, and `modeof` names a file whose
permissions a new file takes.  Others have no effect.  A database without a path is kept in
memory, and so is one whose path is `:memory:`.
-/

namespace ShardIndex

/-- How the files of a database are reached.  The layers differ in how they lock a file, and
so in whether its changes can be kept in a log. -/
inductive Layer
  /-- Locks on the file, and a log with an index file beside it. -/
  | shared
  /-- A lock on the file for good, and a log with its index in memory. -/
  | exclusive
  /-- No locks, and no log. -/
  | unlocked
  /-- A directory beside the file as a lock, and no log. -/
  | dotted
deriving DecidableEq, Repr

namespace Layer

/-- Whether changes can be kept in a log. -/
def hasLog : Layer → Bool
  | .shared => true
  | .exclusive => true
  | _ => false

/-- The layer of a name. -/
def ofName? : String → Option Layer
  | "unix" => some .shared
  | "unix-excl" => some .exclusive
  | "unix-none" => some .unlocked
  | "unix-dotfile" => some .dotted
  | _ => none

end Layer

/-- How a database file is used. -/
structure Access where
  creates : Bool := true
  isReadOnly : Bool := false
  /-- Whether the file is taken as it is: nothing beside it counts, and it may only be read. -/
  isFixed : Bool := false
  layer : Layer := .shared
  /-- A file that must be there, for its permissions. -/
  like? : Option Path := none
deriving DecidableEq, Repr

/-- Where a database is kept. -/
inductive Locator
  | file (path : Path) (access : Access)
  /-- In memory, for as long as it is open. -/
  | memory
deriving DecidableEq, Repr

namespace Locator

/-! ## Escapes -/

/-- The number of a hexadecimal digit. -/
def digit? (b : UInt8) : Option Nat := Text.Hex.value? (Char.ofNat b.toNat)

/-- Bytes with their escapes resolved, up to an escaped null byte. -/
def unescape : Bytes → Bytes
  | 37 :: high :: low :: rest =>
    match digit? high, digit? low with
    | some x, some y =>
      if x = 0 ∧ y = 0 then [] else UInt8.ofNat (16 * x + y) :: unescape rest
    | _, _ => 37 :: unescape (high :: low :: rest)
  | b :: rest => b :: unescape rest
  | [] => []

/-- The text of some bytes; bytes that encode no text are taken one by one. -/
def textOf (bytes : Bytes) : String :=
  bytes.text?.getD (String.ofList (bytes.map fun b => Char.ofNat b.toNat))

/-- A part of a text with its escapes resolved. -/
def part (bytes : Bytes) : String := textOf (unescape bytes)

/-! ## Options -/

/-- The name and the value of an option, parted by the first equals sign. -/
def option (piece : Bytes) : String × String :=
  (part (piece.takeWhile fun b => b ≠ 61), part ((piece.dropWhile fun b => b ≠ 61).drop 1))

/-- The options that have a name, in order. -/
def options (text : Bytes) : List (String × String) :=
  ((Text.pieces 38 text).map option).filter fun o => o.1 ≠ ""

/-- How a database may be used. -/
inductive Mode
  | read
  | write
  | create
  /-- It is kept in memory. -/
  | memory
deriving DecidableEq, Repr

namespace Mode

/-- The mode of a name. -/
def ofName? : String → Option Mode
  | "ro" => some .read
  | "rw" => some .write
  | "rwc" => some .create
  | "memory" => some .memory
  | _ => none

/-- What a mode grants. -/
def grant : Mode → Nat
  | .read => 1
  | .write => 2
  | .create => 6
  | .memory => 128

/-- What has to be granted already for a mode to be chosen. -/
def demand : Mode → Nat
  | .memory => 0
  | mode => mode.grant

end Mode

/-- What the options of a database ask for. -/
structure Request where
  mode : Mode := .create
  layer : String := "unix"
deriving DecidableEq, Repr

namespace Request

/-- Follow an option.  A mode cannot grant more than the one before it. -/
def follow (r : Request) (o : String × String) : Option Request :=
  match o.1 with
  | "vfs" => some { r with layer := o.2 }
  | "cache" => if o.2 = "shared" ∨ o.2 = "private" then some r else none
  | "mode" => do
    let mode ← Mode.ofName? o.2
    if mode.demand ≤ r.mode.grant then some { r with mode := mode } else none
  | _ => some r

/-- Whether a text says yes: a word for it, or a number whose last eight bits are not all
nought. -/
def isYes (text : String) : Bool :=
  let digits := text.toList.takeWhile Char.isDigit
  if digits.isEmpty then String.ofList (text.toList.map Char.toLower) ∈ ["on", "yes", "true"]
  else
    match Text.Numeral.unsigned? 2147483647 digits with
    | some n => n % 256 ≠ 0
    | none => false

/-- Whether an option is given and says yes; the first of its name counts. -/
def isSet (options : List (String × String)) (name : String) : Bool :=
  (options.lookup name).any isYes

/-- How a file is reached by a layer: without locks if they are not wanted, and never with a lock
for good if it may only be read. -/
def layerOf (r : Request) (options : List (String × String)) (layer : Layer) : Layer :=
  if isSet options "nolock" then .unlocked
  else if layer = .exclusive ∧ r.mode = .read then .shared
  else layer

/-- Where a database of some name is kept.  One in memory is empty, and could not be prepared if
it might only be read. -/
def locate (r : Request) (options : List (String × String)) (name : Path) : Option Locator :=
  let memory := if r.mode = .read then none else some Locator.memory
  if r.layer = "memdb" then memory
  else do
    let layer ← Layer.ofName? r.layer
    if r.mode = .memory ∨ name = "" ∨ name = ":memory:" then memory
    else
      return .file name {
        creates := r.mode = .create
        isReadOnly := r.mode = .read
        isFixed := isSet options "immutable"
        layer := r.layerOf options layer
        like? := options.lookup "modeof" }

end Request

/-! ## Names -/

/-- What is behind the host of a text, if that is left out or is this machine. -/
def afterHost : Bytes → Option Bytes
  | 47 :: 47 :: rest =>
    let host := textOf (rest.takeWhile fun b => b ≠ 47)
    if host = "" ∨ host = "localhost" then some (rest.dropWhile fun b => b ≠ 47) else none
  | text => some text

/-- Where the database is kept that is named by a text behind `file:`. -/
def ofUri? (text : Bytes) : Option Locator := do
  let text := (← afterHost text).takeWhile fun b => b ≠ 35
  let asked := options ((text.dropWhile fun b => b ≠ 63).drop 1)
  let request ← asked.foldlM Request.follow {}
  request.locate asked (part (text.takeWhile fun b => b ≠ 63))

/-- Where the database of a name is kept. -/
def ofPath? (p : Path) : Option Locator :=
  if Path.hasNull p then none
  else if p.startsWith "file:" then ofUri? ((octets p).drop 5)
  else Request.locate {} [] p

/-- A path that does not begin like a URI, and is not one of the two names of memory, is the
path of the file itself. -/
theorem ofPath?_eq_file {p : Path} (hnull : Path.hasNull p = false)
    (huri : p.startsWith "file:" = false) (hempty : p ≠ "") (hmemory : p ≠ ":memory:") :
    ofPath? p = some (.file p {}) := by
  simp [ofPath?, hnull, huri, Request.locate, Request.layerOf, Request.isSet, Layer.ofName?,
    hempty, hmemory]

end Locator

end ShardIndex
