import ShardIndex.Text.Hex

/-!
# JSON values and their two layouts

A value is written either without any blanks (`compact`) or over several lines, indented by two
blanks a level (`pretty`).  Members of an object keep their order.

The type of texts is a parameter.  What is written has strings for texts; what is read may
contain a text that is no sequence of characters, because it names half of a surrogate pair, and
then has nothing in its place.
-/

namespace ShardIndex.Text

/-- A JSON value over some type of texts. -/
inductive Json (τ : Type)
  | null
  | bool (b : Bool)
  | integer (n : Int)
  /-- A number with a fraction, an exponent or a negative zero. -/
  | decimal
  | text (s : τ)
  | array (items : List (Json τ))
  | object (members : List (τ × Json τ))

namespace Json

/-! ## Texts -/

/-- A character of a text as it is written between quotes. -/
def escape (c : Char) : List Char :=
  if c = '"' then ['\\', '"']
  else if c = '\\' then ['\\', '\\']
  else if c = '\n' then ['\\', 'n']
  else if c = '\r' then ['\\', 'r']
  else if c = '\t' then ['\\', 't']
  else if c.toNat = 8 then ['\\', 'b']
  else if c.toNat = 12 then ['\\', 'f']
  else if c.toNat < 32 then
    ['\\', 'u', '0', '0', Hex.digit (c.toNat / 16), Hex.digit (c.toNat % 16)]
  else [c]

/-- A text between quotes. -/
def quote (s : String) : String := String.ofList ('"' :: s.toList.flatMap escape ++ ['"'])

/-! ## Layouts -/

/-- The texts of values with a comma between them. -/
def commaSeparated (texts : List String) : String := String.intercalate "," texts

mutual

/-- A value without blanks. -/
def compact : Json String → String
  | .null => "null"
  | .bool b => if b then "true" else "false"
  | .integer n => toString n
  | .decimal => "-0.0"
  | .text s => quote s
  | .array items => "[" ++ commaSeparated (compactItems items) ++ "]"
  | .object members => "\x7b" ++ commaSeparated (compactMembers members) ++ "\x7d"

/-- The items of an array, each without blanks. -/
def compactItems : List (Json String) → List String
  | [] => []
  | v :: rest => compact v :: compactItems rest

/-- The members of an object, each without blanks. -/
def compactMembers : List (String × Json String) → List String
  | [] => []
  | (name, v) :: rest => (quote name ++ ":" ++ compact v) :: compactMembers rest

end

/-- The blanks in front of a line at some level. -/
def margin (level : Nat) : String := String.ofList (List.replicate (2 * level) ' ')

/-- Lines between brackets, each on a line of its own, one level deeper than the brackets. -/
def block (opening closing : String) (level : Nat) (lines : List String) : String :=
  match lines with
  | [] => opening ++ closing
  | _ =>
    opening ++ "\n" ++
      String.intercalate ",\n" (lines.map fun l => margin (level + 1) ++ l) ++
      "\n" ++ margin level ++ closing

mutual

/-- A value over several lines, at some level. -/
def prettyAt (level : Nat) : Json String → String
  | .null => "null"
  | .bool b => if b then "true" else "false"
  | .integer n => toString n
  | .decimal => "-0.0"
  | .text s => quote s
  | .array items => block "[" "]" level (prettyItems (level + 1) items)
  | .object members => block "\x7b" "\x7d" level (prettyMembers (level + 1) members)

/-- The items of an array at some level. -/
def prettyItems (level : Nat) : List (Json String) → List String
  | [] => []
  | v :: rest => prettyAt level v :: prettyItems level rest

/-- The members of an object at some level. -/
def prettyMembers (level : Nat) : List (String × Json String) → List String
  | [] => []
  | (name, v) :: rest => (quote name ++ ": " ++ prettyAt level v) :: prettyMembers level rest

end

/-- A value over several lines. -/
def pretty (v : Json String) : String := prettyAt 0 v

end Json

end ShardIndex.Text
