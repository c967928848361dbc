import ShardIndex.Command.Line

/-!
# How the program is used

The texts that answer the questions on a command line.
-/

namespace ShardIndex.Command

namespace Flag

/-- What an option is for. -/
def purpose : Flag → String
  | .config => "Config file (default: standard locations, then environment)"
  | .dataset => "Dataset name"
  | .shard => "Shard number"
  | .file => "One \x7b\"key_hex\", \"start\", \"end\", \"hour\"\x7d object per line"
  | .checkpoint => "Persisted checkpoint (epoch ms); clamped to the retention window"
  | .parallelism => "Concurrent records (default: config, then available cores)"
  | .rawDataset => "Raw dataset the updated part keys are read from"
  | .fromHour => "First hour bucket (hours since epoch)"
  | .toHour => "Last hour bucket, inclusive"
  | .output => "Output path (default: stdout)"

/-- The value that an option has unless one is given. -/
def usual? : Flag → Option String
  | .shard => some "0"
  | _ => none

/-- Whether an option must be given. -/
def isRequired : Flag → Bool
  | .dataset => true
  | .file => true
  | .rawDataset => true
  | .fromHour => true
  | .toHour => true
  | _ => false

/-- An option with a name for its value. -/
def shape (f : Flag) : String :=
  let name := String.ofList (f.long.toList.map fun c => if c = '-' then '_' else c.toUpper)
  "--" ++ f.long ++ " <" ++ name ++ ">"

end Flag

/-- What a command is for. -/
def Verb.purpose : Verb → String
  | .ingest => "Load partition keys from a JSON lines file into the column store"
  | .bootstrapRaw => "Rebuild the index from every partition key, sequentially"
  | .bootstrapDownsample =>
    "Rebuild the index from keys still live after a checkpoint, in parallel"
  | .refresh => "Upsert downsample keys for records updated in an hour range"
  | .stats => "Show index statistics"
  | .config => "Generate default config file"

/-- What else there is to know about a command. -/
def Verb.detail? : Verb → Option String
  | .refresh =>
    some ("Reads raw part keys of `--raw-dataset` from the column store and writes their " ++
      "downsample keys into the index of `--dataset`.")
  | _ => none

namespace Inquiry

/-- A text with blanks behind it up to some width. -/
def padded (width : Nat) (text : String) : String :=
  text ++ String.ofList (List.replicate (width - text.length) ' ')

/-- An option in a list: its letter, its shape, what it is for, and its usual value. -/
structure Item where
  letter : Option Char
  shape : String
  purpose : String
  /-- The usual value. -/
  usual : Option String := none

namespace Item

/-- The item of an option. -/
def ofFlag (f : Flag) : Item := ⟨f.letter?, f.shape, f.purpose, f.usual?⟩

/-- The beginning of an item. -/
def head (i : Item) : String :=
  match i.letter with
  | some c => "  -" ++ String.singleton c ++ ", "
  | none => "      "

/-- The usual value between brackets. -/
def note (i : Item) : Option String := i.usual.map fun value => "[default: " ++ value ++ "]"

/-- An item on one line. -/
def line (width : Nat) (i : Item) : String :=
  i.head ++ padded width i.shape ++ "  " ++ i.purpose ++ (i.note.elim "" fun n => " " ++ n) ++ "\n"

/-- An item over several lines. -/
def paragraph (i : Item) : String :=
  let margin := "          "
  i.head ++ i.shape ++ "\n" ++ margin ++ i.purpose ++ "\n" ++
    i.note.elim "" fun n => margin ++ "\n" ++ margin ++ n ++ "\n"

end Item

/-- The widest of some texts. -/
def widest (texts : List String) : Nat := texts.foldl (fun n t => max n t.length) 0

/-- A list of options, each on one line. -/
def options (items : List Item) : String :=
  let width := widest (items.map Item.shape)
  "Options:\n" ++ String.join (items.map (Item.line width))

/-- What the help command is for. -/
def helpPurpose : String := "Print this message or the help of the given subcommand(s)"

/-- How the program is used. -/
def general : String :=
  let commands :=
    (Verb.all.map fun v => (v.name, v.purpose)) ++
      [("help", helpPurpose)]
  let width := widest (commands.map Prod.fst)
  let line := fun c : String × String => "  " ++ padded width c.1 ++ "  " ++ c.2 ++ "\n"
  "Build and refresh partition key indexes for Chronicle shards\n\n" ++
    "Usage: chronicle-index [OPTIONS] <COMMAND>\n\n" ++
    "Commands:\n" ++ String.join (commands.map line) ++ "\n" ++
    options
      [.ofFlag .config, ⟨some 'h', "--help", "Print help", none⟩,
        ⟨some 'V', "--version", "Print version", none⟩]

/-- The line that shows how a command is used. -/
def usage (v : Verb) : String :=
  let required := (v.flags.filter Flag.isRequired).map fun f => " " ++ f.shape
  "Usage: chronicle-index " ++ v.name ++ " [OPTIONS]" ++ String.join required ++ "\n\n"

/-- The options of a command: its own, and behind them that for the configuration file. -/
def itemsOf (v : Verb) : List Item :=
  ((v.flags.filter fun f => f ≠ .config) ++ [Flag.config]).map Item.ofFlag

/-- How a command is used, in short. -/
def briefly (v : Verb) : String :=
  let help := if v.detail?.isSome then "Print help (see more with '--help')" else "Print help"
  v.purpose ++ "\n\n" ++ usage v ++ options (itemsOf v ++ [⟨some 'h', "--help", help, none⟩])

/-- How a command is used, at length. -/
def fully (v : Verb) (detail : String) : String :=
  let items := itemsOf v ++ [⟨some 'h', "--help", "Print help (see a summary with '-h')", none⟩]
  v.purpose ++ "\n\n" ++ detail ++ "\n\n" ++ usage v ++ "Options:\n" ++
    String.intercalate "\n" (items.map Item.paragraph)

/-- How the help command is used. -/
def onHelp : String :=
  helpPurpose ++ "\n\n" ++ "Usage: chronicle-index help [COMMAND]...\n\n" ++
    "Arguments:\n  [COMMAND]...  Print help for the subcommand(s)\n"

/-- The answer to a question. -/
def answer : Inquiry → String
  | .help => general
  | .helpOn v false => briefly v
  | .helpOn v true =>
    match v.detail? with
    | some detail => fully v detail
    | none => briefly v
  | .helpOnHelp => onHelp
  | .version => "chronicle-index 0.1.0\n"

end Inquiry

end ShardIndex.Command
