import ShardIndex.Config
import ShardIndex.Text.Numeral

/-!
# Settings from the environment

Variables of the environment say where the standard directories are, and some of them override a
setting.  A number that cannot be read is left aside with a notice.
-/

namespace ShardIndex

/-- The variables of the environment. -/
structure Environment where
  entries : List (String × String) := []
  /-- The home directory that the account of the user names. -/
  account : Option Path := none
deriving DecidableEq, Repr

namespace Environment

/-- The value of a variable. -/
def get? (e : Environment) (name : String) : Option String := e.entries.lookup name

/-- The home directory: what a variable says, unless it is empty, or else that of the account. -/
def home? (e : Environment) : Option Path :=
  ((e.get? "HOME").filter fun home => !home.toList.isEmpty).or e.account

/-- The home directory of a user in a list of accounts, whose fields are parted by colons. -/
def homeOf (user : String) (accounts : List String) : Option Path :=
  accounts.findSome? fun account =>
    let fields := account.splitOn ":"
    if fields[2]? = some user then fields[5]? else none

/-- A standard directory: what a variable says, if that is an absolute path, or else its usual
place below the home directory. -/
def standardDirectory (e : Environment) (name usual : String) : Option Path :=
  match (e.get? name).filter Path.isAbsolute with
  | some directory => some directory
  | none => e.home?.map fun home => Path.join home usual

/-- Where data is kept unless the configuration says otherwise. -/
def dataDir (e : Environment) : Path :=
  match e.standardDirectory "XDG_DATA_HOME" ".local/share" with
  | some directory => Path.join directory "chronicle-index"
  | none => "./chronicle_index_data"

/-- Where the configuration file of a user is. -/
def userConfig? (e : Environment) : Option Path :=
  (e.standardDirectory "XDG_CONFIG_HOME" ".config").map fun directory =>
    Path.join (Path.join directory "chronicle-index") "config.toml"

/-- The configuration without any file. -/
def standardConfig (e : Environment) : Config := { storage := { dataDir := e.dataDir } }

end Environment

namespace Config

/-- Something that was left aside while the configuration was put together. -/
inductive Notice
  | notNumber (name value : String)
  | unusable (file : Path)
deriving DecidableEq, Repr

/-- Override a number by a variable, or leave it and say so. -/
def overrideNumber (e : Environment) (name : String) (set : Nat → Config → Config)
    (c : Config) : Config × List Notice :=
  match e.get? name with
  | none => (c, [])
  | some text =>
    match Text.Numeral.unsigned? Text.Numeral.maxWord text.toList with
    | some n => (set n c, [])
    | none => (c, [.notNumber name text])

/-- Override a text by a variable. -/
def overrideText (e : Environment) (name : String) (set : String → Config → Config)
    (c : Config) : Config :=
  match e.get? name with
  | none => c
  | some text => set text c

/-- Override settings by the variables of the environment. -/
def override (e : Environment) (c : Config) : Config × List Notice :=
  let c := overrideText e "CHRONICLE_INDEX_DATA_DIR"
    (fun text c => { c with storage := { c.storage with dataDir := text } }) c
  let (c, notices) := overrideNumber e "CHRONICLE_INDEX_PARALLELISM"
    (fun n c => { c with building := { c.building with parallelism := some n } }) c
  let (c, notices') := overrideNumber e "CHRONICLE_INDEX_TTL_HOURS"
    (fun n c => { c with building := { c.building with retentionHours := n } }) c
  let c := overrideText e "CHRONICLE_INDEX_LOG_LEVEL"
    (fun text c => { c with logging := { c.logging with level := text } }) c
  let c := overrideText e "CHRONICLE_INDEX_LOG_FORMAT"
    (fun text c => { c with logging := { c.logging with format := text } }) c
  (c, notices ++ notices')

/-- The configuration that the environment alone gives. -/
def ofEnvironment (e : Environment) : Config × List Notice := override e e.standardConfig

end Config

end ShardIndex
