import ShardIndex.Command
import ShardIndex.Text.Numeral

/-!
# The command line

A command line is a list of words: options, then the name of a command, then the options of the
command.  The configuration file may be named on either side.

An option has a long name after two hyphens, and perhaps a letter after one.  Its value is the
next word, or stands in the same word: behind an equals sign, or at once behind the letter.  A
value that begins with a hyphen and goes on after it can only stand in the same word.  No option
may be given twice on one side.

A value that is a word of its own is looked at only when the next option comes.  One in front of a
command's name therefore waits until the command has been read, and a question behind the name is
answered whatever that value is.
-/

namespace ShardIndex.Command

open Text (Numeral.signed? Numeral.unsigned? Numeral.maxWord)

/-- The commands by name. -/
inductive Verb
  | ingest
  | bootstrapRaw
  | bootstrapDownsample
  | refresh
  | stats
  | config
deriving DecidableEq, Repr

/-- The options that take a value. -/
inductive Flag
  | config
  | dataset
  | shard
  | file
  | checkpoint
  | parallelism
  | rawDataset
  | fromHour
  | toHour
  | output
deriving DecidableEq, Repr

/-- What is asked for instead of a command. -/
inductive Inquiry
  | help
  /-- How a command is used; at length or in short. -/
  | helpOn (v : Verb) (long : Bool)
  /-- How to ask how a command is used. -/
  | helpOnHelp
  | version
deriving DecidableEq, Repr

/-- Why a command line names no command. -/
inductive Stop
  | inquiry (q : Inquiry)
  | misuse
deriving DecidableEq, Repr

namespace Verb

/-- All commands. -/
def all : List Verb := [.ingest, .bootstrapRaw, .bootstrapDownsample, .refresh, .stats, .config]

/-- The name of a command. -/
def name : Verb → String
  | .ingest => "ingest"
  | .bootstrapRaw => "bootstrap-raw"
  | .bootstrapDownsample => "bootstrap-downsample"
  | .refresh => "refresh"
  | .stats => "stats"
  | .config => "config"

/-- The command of a name. -/
def ofName? (word : String) : Option Verb := all.find? fun v => v.name = word

/-- The options of a command. -/
def flags : Verb → List Flag
  | .ingest => [.dataset, .shard, .file, .config]
  | .bootstrapRaw => [.dataset, .shard, .config]
  | .bootstrapDownsample => [.dataset, .shard, .checkpoint, .parallelism, .config]
  | .refresh => [.dataset, .shard, .rawDataset, .fromHour, .toHour, .parallelism, .config]
  | .stats => [.dataset, .shard, .config]
  | .config => [.output, .config]

end Verb

namespace Flag

/-- The long name of an option. -/
def long : Flag → String
  | .config => "config"
  | .dataset => "dataset"
  | .shard => "shard"
  | .file => "file"
  | .checkpoint => "checkpoint"
  | .parallelism => "parallelism"
  | .rawDataset => "raw-dataset"
  | .fromHour => "from-hour"
  | .toHour => "to-hour"
  | .output => "output"

/-- The letter of an option. -/
def letter? : Flag → Option Char
  | .config => some 'c'
  | .file => some 'f'
  | .parallelism => some 'p'
  | .output => some 'o'
  | _ => none

/-- The number of a shard. -/
def shardNumber? (text : String) : Option Nat :=
  (Numeral.signed? text.toList).bind fun n =>
    if 0 ≤ n ∧ n ≤ 4294967295 then some n.toNat else none

/-- A number of records in flight. -/
def count? (text : String) : Option Nat := Numeral.unsigned? Numeral.maxWord text.toList

/-- Whether an option can have a value. -/
def accepts (f : Flag) (text : String) : Bool :=
  match f with
  | .config => !text.toList.isEmpty
  | .file => !text.toList.isEmpty
  | .output => !text.toList.isEmpty
  | .shard => (shardNumber? text).isSome
  | .parallelism => (count? text).isSome
  | .checkpoint => (Numeral.signed? text.toList).isSome
  | .fromHour => (Numeral.signed? text.toList).isSome
  | .toHour => (Numeral.signed? text.toList).isSome
  | .dataset => true
  | .rawDataset => true

end Flag

/-! ## Options -/

/-- Options with their values, in order. -/
abbrev Given := List (Flag × String)

/-- One more option, unless it was given before or cannot have this value. -/
def Given.add (given : Given) (f : Flag) (value : String) : Except Stop Given :=
  if (given.lookup f).isSome || !f.accepts value then .error .misuse
  else .ok (given ++ [(f, value)])

/-- The options with one whose value has waited, if there is one. -/
def Given.settle (given : Given) (waiting : Option (Flag × String)) : Except Stop Given :=
  match waiting with
  | some (f, value) => given.add f value
  | none => .ok given

/-- A side of the command line: what may be said there. -/
structure Side where
  flags : List Flag
  /-- What the option for help asks for, at length or in short. -/
  help : Bool → Inquiry
  /-- Whether a command may be named, and the version asked for. -/
  isFirst : Bool

namespace Side

/-- The words in front of a command's name. -/
def first : Side := ⟨[.config], fun _ => .help, true⟩

/-- The words behind a command's name. -/
def behind (v : Verb) : Side := ⟨v.flags, .helpOn v, false⟩

/-- What a word says. -/
inductive Word
  | option (f : Flag) (value : String)
  /-- An option whose value is the next word. -/
  | awaiting (f : Flag)
  | inquiry (q : Inquiry)
  /-- Nothing that may be said here. -/
  | unknown

/-- A word after its two hyphens. -/
def longWord (s : Side) (body : List Char) : Word :=
  let name := String.ofList (body.takeWhile (· ≠ '='))
  match s.flags.find? fun f => f.long = name, body.dropWhile (· ≠ '=') with
  | some f, [] => .awaiting f
  | some f, _ :: value => .option f (String.ofList value)
  | none, [] =>
    if name = "help" then .inquiry (s.help true)
    else if name = "version" ∧ s.isFirst then .inquiry .version
    else .unknown
  | none, _ :: _ => .unknown

/-- A word after its one hyphen: a letter and what is behind it. -/
def shortWord (s : Side) (letter : Char) (body : List Char) : Word :=
  match s.flags.find? fun f => f.letter? = some letter, body with
  | some f, [] => .awaiting f
  | some f, '=' :: value => .option f (String.ofList value)
  | some f, value => .option f (String.ofList value)
  | none, _ =>
    if letter = 'h' then .inquiry (s.help false)
    else if letter = 'V' ∧ s.isFirst then .inquiry .version
    else .unknown

/-- What a word says on a side.  A single hyphen is no option. -/
def word (s : Side) (w : String) : Word :=
  match w.toList with
  | '-' :: '-' :: body => s.longWord body
  | '-' :: letter :: body => s.shortWord letter body
  | _ => .unknown

/-- Whether a word can be the value of an option in front of it. -/
def isValue (w : String) : Bool :=
  match w.toList with
  | '-' :: _ :: _ => false
  | _ => true

/-- The name of a command among the words, with the words behind it. -/
structure Named where
  /-- The name, which may be that of no command. -/
  name : String
  rest : List String

/-- What has been read on a side. -/
structure Reading where
  given : Given
  /-- The option whose value was the last word, and has not been looked at. -/
  waiting : Option (Flag × String) := none
  named : Option Named := none

/-- The options that have been read, with the one whose value has waited. -/
def Reading.all (r : Reading) : Except Stop Given := r.given.settle r.waiting

/-- Read options up to the end, or up to a name where one may stand, after some that have been read
already.  Two hyphens alone say that no options follow, and then nothing else may follow either. -/
def read (s : Side) (given : Given) (waiting : Option (Flag × String)) :
    List String → Except Stop Reading
  | [] => .ok { given, waiting }
  | w :: rest =>
    if w = "--" then if rest.isEmpty then .ok { given, waiting } else .error .misuse
    else
      match s.word w with
      | .option f value => do s.read (← (← given.settle waiting).add f value) none rest
      | .awaiting f =>
        match rest with
        | value :: rest =>
          if isValue value then do s.read (← given.settle waiting) (some (f, value)) rest
          else .error .misuse
        | [] => .error .misuse
      | .inquiry q => do
        let _ ← given.settle waiting
        .error (.inquiry q)
      | .unknown =>
        if s.isFirst then .ok { given, waiting, named := some ⟨w, rest⟩ } else .error .misuse

end Side

/-! ## Commands -/

namespace Given

/-- A text that must be given. -/
def text (given : Given) (f : Flag) : Except Stop String :=
  match given.lookup f with
  | some value => .ok value
  | none => .error .misuse

/-- A number that must be given. -/
def number (given : Given) (f : Flag) : Except Stop Int := do
  match Numeral.signed? (← given.text f).toList with
  | some n => .ok n
  | none => .error .misuse

/-- A number that may be given. -/
def number? (given : Given) (f : Flag) : Option Int :=
  (given.lookup f).bind fun value => Numeral.signed? value.toList

/-- A number without sign that may be given. -/
def count? (given : Given) (f : Flag) : Option Nat := (given.lookup f).bind Flag.count?

/-- The shard, number nought unless another is given. -/
def shard (given : Given) : Except Stop Shard := do
  return ⟨← given.text .dataset, ((given.lookup .shard).bind Flag.shardNumber?).getD 0⟩

/-- The command that options make of a verb. -/
def command (given : Given) : Verb → Except Stop Command
  | .ingest => do return .ingest (← given.shard) (← given.text .file)
  | .bootstrapRaw => do return .rebuild (← given.shard)
  | .bootstrapDownsample => do
    return .rebuildLive (← given.shard) (given.number? .checkpoint) (given.count? .parallelism)
  | .refresh => do
    return .refresh (← given.shard) (← given.text .rawDataset) (← given.number .fromHour)
      (← given.number .toHour) (given.count? .parallelism)
  | .stats => do return .stats (← given.shard)
  | .config => .ok (.writeConfig (given.lookup .output))

end Given

/-- What is asked for by the words behind the name of the help command. -/
def helpOn : List String → Stop
  | [] => .inquiry .help
  | [name] =>
    match Verb.ofName? name with
    | some v => .inquiry (.helpOn v true)
    | none => if name = "help" then .inquiry .helpOnHelp else .misuse
  | _ => .misuse

/-- The command that a command line names. -/
def ofWords (words : List String) : Except Stop Invocation := do
  let front ← Side.first.read [] none words
  match front.named with
  | none => .error .misuse
  | some named =>
    match Verb.ofName? named.name with
    | none => .error (if named.name = "help" then helpOn named.rest else .misuse)
    | some v =>
      let behind ← (Side.behind v).read [] none named.rest
      let given ← behind.all
      let command ← given.command v
      let before ← front.all
      return ⟨command, (given.lookup .config).or (before.lookup .config)⟩

end ShardIndex.Command
