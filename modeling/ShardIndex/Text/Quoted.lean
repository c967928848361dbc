import ShardIndex.Text.Hex
import ShardIndex.Text.Hidden

/-!
# Quoted paths

How messages show a path: between double quotes, with double quotes and backslashes behind a
backslash, line ends, tabs and the null character by a letter, and other hidden characters by
number.
-/

namespace ShardIndex.Text.Quoted

/-- A character as it is shown between quotes. -/
def shown (c : Char) : List Char :=
  if c = '"' then ['\\', '"']
  else if c = '\\' then ['\\', '\\']
  else if c = '\n' then ['\\', 'n']
  else if c = '\r' then ['\\', 'r']
  else if c = '\t' then ['\\', 't']
  else if c.toNat = 0 then ['\\', '0']
  else if isHidden c then
    ['\\', 'u', '{'] ++ (Nat.toDigits 16 c.toNat) ++ ['}']
  else [c]

/-- A text between quotes. -/
def quote (text : String) : String := String.ofList ('"' :: text.toList.flatMap shown ++ ['"'])

end ShardIndex.Text.Quoted
