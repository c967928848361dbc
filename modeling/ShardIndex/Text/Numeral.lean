import ShardIndex.Time

/-!
# Decimal numerals

Whole numbers as they are written in settings and on the command line: ASCII digits, leading
zeros allowed, with a plus in front if one likes and, where numbers are signed, a minus.
Nothing else is read, and neither is a number outside the range asked for.
-/

namespace ShardIndex.Text.Numeral

/-- Whether a character is a decimal digit. -/
def isDigit (c : Char) : Bool := '0' ≤ c && c ≤ '9'

/-- The value of a decimal digit. -/
def digitValue (c : Char) : Nat := c.toNat - 48

/-- The number that digits stand for, most significant first. -/
def valueOf (digits : List Char) : Nat := digits.foldl (fun n c => 10 * n + digitValue c) 0

/-- A run of digits, at least one. -/
def digits? (text : List Char) : Option Nat :=
  if text.isEmpty || text.any (fun c => !isDigit c) then none else some (valueOf text)

/-- A number without sign, at most a largest one. -/
def unsigned? (largest : Nat) (text : List Char) : Option Nat :=
  let body :=
    match text with
    | '+' :: rest => rest
    | _ => text
  (digits? body).filter fun n => n ≤ largest

/-- A number with or without sign, in the range of times. -/
def signed? (text : List Char) : Option Int :=
  let value : Option Int :=
    match text with
    | '+' :: rest => (digits? rest).map fun n => (n : Int)
    | '-' :: rest => (digits? rest).map fun n => -(n : Int)
    | _ => (digits? text).map fun n => (n : Int)
  value.filter fun n => minTime ≤ n ∧ n ≤ maxTime

/-- The largest number in an unsigned word of 64 bits. -/
def maxWord : Nat := 18446744073709551615

end ShardIndex.Text.Numeral
