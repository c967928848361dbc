import ShardIndex.Config.Location

/-!
# Why a command fails

The causes for which a command ends early, with the line that reports each.
-/

namespace ShardIndex.Command

/-- The cause for which a command ends early. -/
inductive Problem
  | configuration (cause : Config.Problem)
  | log (file : Path)
  | store (file : Path)
  | index (file : Path)
  | input (file : Path)
  /-- A batch of records is so large that its bytes cannot be counted. -/
  | batchSize (records : Nat)
  /-- A batch of records is so large that no memory could hold it. -/
  | batchRoom (records : Nat)
  | reading (cause : Obstacle)
  | line (number : Nat)
  | key (number : Nat)
  | output (file : Path)
  | failure (cause : Failure)
deriving DecidableEq, Repr

open Text.Quoted (quote)

/-- Whether a problem stops the program on the spot, with its files as they are. -/
def Problem.isAbrupt : Problem → Bool
  | .batchRoom _ => true
  | _ => false

/-- The exit code of a command with a problem.  A batch whose bytes cannot be counted breaks the
command down, and one that no memory could hold stops the program. -/
def Problem.code : Problem → Nat
  | .batchSize _ => 101
  | .batchRoom _ => 134
  | _ => 1

/-- The line that reports a problem. -/
def Problem.message : Problem → String
  | .configuration cause => cause.message
  | .log file => "Failed to open log file " ++ file
  | .store file => "Failed to open column store " ++ quote file
  | .index file => "Failed to open index " ++ quote file
  | .input file => "Failed to open " ++ quote file
  | .batchSize records => "A batch of " ++ toString records ++ " records is too large"
  | .batchRoom records => "A batch of " ++ toString records ++ " records does not fit into memory"
  | .reading cause => cause.message
  | .line number => "Invalid record on line " ++ toString number
  | .key number => "Invalid key_hex on line " ++ toString number
  | .output file => "Failed to write config to " ++ quote file
  | .failure cause => cause.message

end ShardIndex.Command
