import ShardIndex.Config
import ShardIndex.Text.Numeral
import ShardIndex.Text.Toml

/-!
# Settings from a document

A configuration document has a section for each group of settings.  A section gives its settings
by name or, as a list, by position; what it leaves out has its usual value, and names that are
not known do not count.  A date in the place of a section says nothing.
-/

namespace ShardIndex.Config

open Text (Toml)

/-- The settings of a section. -/
inductive Section
  | named (members : Toml.Members)
  | listed (values : List Toml)

namespace Section

/-- The section that a value is. -/
def ofToml? : Toml → Option Section
  | .table _ members => some (.named members)
  | .moment => some (.named [])
  | .array values => some (.listed values)
  | .tables elements => some (.listed elements)
  | _ => none

/-- The value of a setting, by its name or by its position. -/
def value? (s : Section) (name : String) (position : Nat) : Option Toml :=
  match s with
  | .named members => members.lookup name
  | .listed values => values[position]?

/-- A setting that may be left out. -/
def setting {α : Type} (s : Section) (name : String) (position : Nat) (usual : α)
    (read : Toml → Option α) : Option α :=
  match s.value? name position with
  | none => some usual
  | some v => read v

/-- A setting that must be there. -/
def required {α : Type} (s : Section) (name : String) (position : Nat)
    (read : Toml → Option α) : Option α :=
  (s.value? name position).bind read

end Section

/-- A text. -/
def textOf? : Toml → Option String
  | .text s => some s
  | _ => none

/-- A number without sign. -/
def countOf? : Toml → Option Nat
  | .integer n => if 0 ≤ n then some n.toNat else none
  | _ => none

/-- A list of values, each read alike. -/
def listOf? {α : Type} (read : Toml → Option α) : Toml → Option (List α)
  | .array values => values.mapM read
  | .tables elements => elements.mapM read
  | _ => none

/-- A schema with what it is downsampled into. -/
def definitionOf? (v : Toml) : Option Schema.Definition := do
  let s ← Section.ofToml? v
  let name ← s.required "name" 0 textOf?
  let downsample ← s.setting "downsample" 1 none fun v => (textOf? v).map some
  return ⟨name, downsample⟩

/-- The section on files. -/
def storageOf? (usual : Storage) (v : Toml) : Option Storage := do
  let s ← Section.ofToml? v
  let dataDir ← s.setting "data_dir" 0 usual.dataDir textOf?
  let pageSize ← s.setting "scan_batch_size" 1 usual.pageSize countOf?
  return ⟨dataDir, pageSize⟩

/-- The section on building. -/
def buildingOf? (usual : Building) (v : Toml) : Option Building := do
  let s ← Section.ofToml? v
  let parallelism ← s.setting "parallelism" 0 usual.parallelism fun v => (countOf? v).map some
  let retentionHours ← s.setting "downsample_ttl_hours" 1 usual.retentionHours countOf?
  let schemas ← s.setting "schemas" 2 usual.schemas (listOf? definitionOf?)
  return ⟨parallelism, retentionHours, schemas⟩

/-- The log file, which may be left out where settings have names. -/
def logFileOf? (s : Section) : Option (Option Path) :=
  match s with
  | .named _ => s.setting "file" 2 none fun v => (textOf? v).map some
  | .listed _ => s.required "file" 2 fun v => (textOf? v).map some

/-- The section on logs. -/
def loggingOf? (usual : Logging) (v : Toml) : Option Logging := do
  let s ← Section.ofToml? v
  let level ← s.setting "level" 0 usual.level textOf?
  let format ← s.setting "format" 1 usual.format textOf?
  let file ← logFileOf? s
  return ⟨level, format, file⟩

/-- The configuration that a document gives, over the usual one. -/
def ofDocument? (usual : Config) (members : Toml.Members) : Option Config := do
  let s := Section.named members
  let storage ← s.setting "store" 0 usual.storage (storageOf? usual.storage)
  let building ← s.setting "bootstrap" 1 usual.building (buildingOf? usual.building)
  let logging ← s.setting "logging" 2 usual.logging (loggingOf? usual.logging)
  return ⟨storage, building, logging⟩

end ShardIndex.Config
