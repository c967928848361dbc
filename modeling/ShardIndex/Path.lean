import ShardIndex.Key
import ShardIndex.Text.Pieces

/-!
# Paths

A path is a text of names with slashes between them.  It is absolute when it begins with a
slash; putting an absolute path behind another one drops the other.
-/

namespace ShardIndex

/-- A path as it is written. -/
abbrev Path := String

namespace Path

/-- Whether a path begins at the root. -/
def isAbsolute (p : Path) : Bool := p.toList.head? == some '/'

/-- A path behind another one. -/
def join (base rest : Path) : Path :=
  if isAbsolute rest then rest
  else if base.toList.isEmpty || base.toList.getLast? == some '/' then base ++ rest
  else base ++ "/" ++ rest

/-- The names of a path, in order; doubled slashes separate like single ones. -/
def names (p : Path) : List String :=
  ((Text.pieces '/' p.toList).filter fun name => !name.isEmpty).map String.ofList

/-- A path spelled backwards, without the slashes and the single dots at its end that lead
nowhere else. -/
def withoutTail : List Char → List Char
  | '/' :: rest => withoutTail rest
  | '.' :: '/' :: rest => withoutTail rest
  | backwards => backwards

/-- The path of the directory that a path lies in. -/
def parent (p : Path) : Path :=
  String.ofList
    (withoutTail ((withoutTail p.toList.reverse).dropWhile fun c => c ≠ '/')).reverse

/-! ## Limits -/

/-- A name has at most so many bytes. -/
def maxName : Nat := 255

/-- A path has at most so many bytes. -/
def maxLength : Nat := 4095

/-- Whether there is a null character in a path. -/
def hasNull (p : Path) : Bool := p.toList.any fun c => c.toNat = 0

/-- Whether a path has more bytes than a path may have. -/
def isTooLong (p : Path) : Bool := maxLength < p.utf8ByteSize

end Path

end ShardIndex
