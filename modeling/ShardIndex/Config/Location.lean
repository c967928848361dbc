import ShardIndex.Config.Document
import ShardIndex.Config.Environment
import ShardIndex.Disk
import ShardIndex.Text.Quoted
import ShardIndex.Text.Toml.Reader

/-!
# Finding the configuration

The configuration comes from a file that was named, or else from the first usable one of the
standard files, or else from the environment alone.
-/

namespace ShardIndex.Config

/-- Why a configuration file cannot be used. -/
inductive Problem
  | unreadable (file : Path) (cause : Obstacle)
  | malformed (file : Path)
deriving DecidableEq, Repr

/-- How a problem is reported. -/
def Problem.message : Problem → String
  | .unreadable file cause =>
    "Failed to read config file " ++ Text.Quoted.quote file ++ ": " ++ cause.message
  | .malformed _ => "Failed to parse config file"

/-- The configuration in a file. -/
def load (e : Environment) (d : Disk) (file : Path) : Except Problem Config :=
  match d.readText file with
  | .error cause => .error (.unreadable file cause)
  | .ok text =>
    match (Text.Toml.read text).bind (ofDocument? e.standardConfig) with
    | none => .error (.malformed file)
    | some c => .ok c

/-- The configuration in a file, with what the environment overrides. -/
def loadOverridden (e : Environment) (d : Disk) (file : Path) :
    Except Problem (Config × List Notice) :=
  (load e d file).map (override e)

/-- The standard files, in the order in which they are tried. -/
def standardFiles (e : Environment) : List Path :=
  e.userConfig?.toList ++ ["/etc/chronicle-index/config.toml", "./config.toml"]

/-- The configuration in the first of some files that is there and can be used, or else from the
environment alone.  Those that are there and cannot be used are left aside with a notice. -/
def loadFirst (e : Environment) (d : Disk) : List Path → Config × List Notice
  | [] => ofEnvironment e
  | file :: rest =>
    if d.pathExists file then
      match loadOverridden e d file with
      | .ok found => found
      | .error _ =>
        let (c, notices) := loadFirst e d rest
        (c, .unusable file :: notices)
    else loadFirst e d rest

/-- The configuration when no file was named. -/
def loadStandard (e : Environment) (d : Disk) : Config × List Notice :=
  loadFirst e d (standardFiles e)

end ShardIndex.Config
