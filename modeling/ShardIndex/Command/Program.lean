import ShardIndex.Command.Help
import ShardIndex.Command.Run

/-!
# The program

A run of the program takes the words of a command line and a disk, and ends in one of four ways,
each with an exit code.
-/

namespace ShardIndex.Command

/-- How a run of the program ends. -/
inductive Ending
  | done (report : Report)
  | failed (cause : Problem)
  | answered (q : Inquiry)
  /-- The words are no command line. -/
  | misused
deriving DecidableEq, Repr

namespace Ending

/-- The exit code. -/
def code : Ending → Nat
  | .done _ => 0
  | .answered _ => 0
  | .failed cause => cause.code
  | .misused => 2

/-- What is written to the output, after some milliseconds. -/
def output (elapsed : Nat) : Ending → String
  | .done report => report.render elapsed
  | .answered q => q.answer
  | .failed _ => ""
  | .misused => ""

end Ending

/-- Run the program. -/
def runWords (k : Circumstances) (words : List String) (d : Disk) : Ending × Disk :=
  match ofWords words with
  | .error (.inquiry q) => (.answered q, d)
  | .error .misuse => (.misused, d)
  | .ok i =>
    match i.run k d with
    | (.ok report, d) => (.done report, d)
    | (.error p, d) => (.failed p, d)

end ShardIndex.Command
