import ShardIndex.Text.Hex
import ShardIndex.Text.Numeral
import ShardIndex.Text.Toml

/-!
# Reading TOML

The grammar of TOML 1.0.  A text either is a document or is not; nothing is said about where it
goes wrong.  Values may be nested less than eighty levels deep, and a dotted key has fewer than
eighty parts.
-/

namespace ShardIndex.Text.Toml

open Numeral (isDigit valueOf)

/-! ## Characters -/

/-- Blanks within a line. -/
def isWhite (c : Char) : Bool := c == ' ' || c == '\t'

/-- Characters that may stand in comments, and between quotes but for the quotes themselves. -/
def isPlain (c : Char) : Bool := c == '\t' || (32 ≤ c.toNat && c.toNat ≠ 127)

/-- Characters of a key without quotes. -/
def isBare (c : Char) : Bool :=
  isDigit c || ('a' ≤ c && c ≤ 'z') || ('A' ≤ c && c ≤ 'Z') || c == '-' || c == '_'

/-- What is left after blanks. -/
def skipWhite (s : List Char) : List Char := s.dropWhile isWhite

/-- What is left after the end of a line. -/
def lineEnd : List Char → Option (List Char)
  | '\n' :: rest => some rest
  | '\r' :: '\n' :: rest => some rest
  | _ => none

/-- What is left after a comment, if there is one. -/
def skipComment : List Char → List Char
  | '#' :: rest => rest.dropWhile isPlain
  | s => s

/-- What is left after the rest of a line, which may hold blanks and a comment. -/
def lineRest (s : List Char) : Option (List Char) :=
  match skipComment (skipWhite s) with
  | [] => some []
  | s => lineEnd s

/-- What is left after blanks, line ends and comments.  The number bounds how many there are. -/
def skipLines : Nat → List Char → List Char
  | 0, s => s
  | n + 1, s =>
    match skipComment (skipWhite s) with
    | '\n' :: rest => skipLines n rest
    | '\r' :: '\n' :: rest => skipLines n rest
    | rest => rest

/-- What is left after blanks, line ends and comments. -/
def skipAll (s : List Char) : List Char := skipLines s.length s

/-! ## Texts -/

/-- The character of a code point, unless it is half of a surrogate pair or out of range. -/
def scalar? (n : Nat) : Option Char := if n.isValidChar then some (Char.ofNat n) else none

/-- A number of hexadecimal digits. -/
def hexDigits : Nat → List Char → Option (Nat × List Char)
  | 0, s => some (0, s)
  | n + 1, c :: rest => do
    let d ← Hex.value? c
    let (low, rest) ← hexDigits n rest
    return (d * Nat.pow 16 n + low, rest)
  | _ + 1, [] => none

/-- The character after a backslash. -/
def escaped : List Char → Option (Char × List Char)
  | 'b' :: rest => some (Char.ofNat 8, rest)
  | 't' :: rest => some ('\t', rest)
  | 'n' :: rest => some ('\n', rest)
  | 'f' :: rest => some (Char.ofNat 12, rest)
  | 'r' :: rest => some ('\r', rest)
  | '"' :: rest => some ('"', rest)
  | '\\' :: rest => some ('\\', rest)
  | 'u' :: rest => do
    let (n, rest) ← hexDigits 4 rest
    return (← scalar? n, rest)
  | 'U' :: rest => do
    let (n, rest) ← hexDigits 8 rest
    return (← scalar? n, rest)
  | _ => none

/-- The characters up to a closing double quote. -/
def basicText : Nat → List Char → Option (List Char × List Char)
  | 0, _ => none
  | n + 1, s =>
    match s with
    | '"' :: rest => some ([], rest)
    | '\\' :: rest => do
      let (c, rest) ← escaped rest
      let (cs, rest) ← basicText n rest
      return (c :: cs, rest)
    | c :: rest =>
      if isPlain c then (basicText n rest).map fun found => (c :: found.1, found.2) else none
    | [] => none

/-- The characters up to a closing single quote. -/
def literalText : List Char → Option (List Char × List Char)
  | '\'' :: rest => some ([], rest)
  | c :: rest =>
    if isPlain c then (literalText rest).map fun found => (c :: found.1, found.2) else none
  | [] => none

/-- What is left of a text over several lines after its opening quotes: a line end that follows
at once does not count. -/
def afterOpening (s : List Char) : List Char := (lineEnd s).getD s

/-- What is left after blanks and line ends. -/
def skipBreaks : List Char → List Char
  | ' ' :: rest => skipBreaks rest
  | '\t' :: rest => skipBreaks rest
  | '\n' :: rest => skipBreaks rest
  | '\r' :: '\n' :: rest => skipBreaks rest
  | s => s

/-- What is left after a backslash at the end of a line: the line end, and blanks and line ends
after it, do not count. -/
def continuation (s : List Char) : Option (List Char) :=
  (lineEnd (skipWhite s)).map skipBreaks

/-- A run of the closing quote of a text over several lines: three close it, and up to two more
belong to it. -/
def closing (quote : Char) (s : List Char) : Option (List Char × List Char) :=
  let run := (s.takeWhile (· == quote)).length
  if run < 3 then none
  else
    let inside := min run 5 - 3
    some (List.replicate inside quote, s.drop (inside + 3))

/-- The characters up to three double quotes. -/
def basicLines : Nat → List Char → Option (List Char × List Char)
  | 0, _ => none
  | n + 1, s =>
    match closing '"' s with
    | some found => some found
    | none =>
      match s with
      | '\\' :: rest =>
        match continuation rest with
        | some rest => basicLines n rest
        | none => do
          let (c, rest) ← escaped rest
          let (cs, rest) ← basicLines n rest
          return (c :: cs, rest)
      | '\n' :: rest => (basicLines n rest).map fun found => ('\n' :: found.1, found.2)
      | '\r' :: '\n' :: rest => (basicLines n rest).map fun found => ('\n' :: found.1, found.2)
      | c :: rest =>
        if isPlain c then (basicLines n rest).map fun found => (c :: found.1, found.2) else none
      | [] => none

/-- The characters up to three single quotes. -/
def literalLines : Nat → List Char → Option (List Char × List Char)
  | 0, _ => none
  | n + 1, s =>
    match closing '\'' s with
    | some found => some found
    | none =>
      match s with
      | '\n' :: rest => (literalLines n rest).map fun found => ('\n' :: found.1, found.2)
      | '\r' :: '\n' :: rest => (literalLines n rest).map fun found => ('\n' :: found.1, found.2)
      | c :: rest =>
        if isPlain c then (literalLines n rest).map fun found => (c :: found.1, found.2) else none
      | [] => none

/-- A text in quotes of any kind. -/
def anyText (s : List Char) : Option (String × List Char) :=
  let found : Option (List Char × List Char) :=
    match s with
    | '"' :: '"' :: '"' :: rest => basicLines (s.length + 1) (afterOpening rest)
    | '\'' :: '\'' :: '\'' :: rest => literalLines (s.length + 1) (afterOpening rest)
    | '"' :: rest => basicText (s.length + 1) rest
    | '\'' :: rest => literalText rest
    | _ => none
  found.map fun found => (String.ofList found.1, found.2)

/-! ## Keys -/

/-- One part of a key. -/
def keyPart (s : List Char) : Option (String × List Char) :=
  match s with
  | '"' :: rest =>
    (basicText (s.length + 1) rest).map fun found => (String.ofList found.1, found.2)
  | '\'' :: rest => (literalText rest).map fun found => (String.ofList found.1, found.2)
  | _ =>
    match s.span isBare with
    | ([], _) => none
    | (name, rest) => some (String.ofList name, rest)

/-- The parts of a key, with dots between them and blanks around each. -/
def keyParts : Nat → List Char → Option (List String × List Char)
  | 0, _ => none
  | n + 1, s => do
    let (name, rest) ← keyPart (skipWhite s)
    match skipWhite rest with
    | '.' :: rest =>
      let (names, rest) ← keyParts n rest
      return (name :: names, rest)
    | rest => return ([name], rest)

/-- How deep values may be nested, and how long a key may be: less than this. -/
def depthLimit : Nat := 80

/-- A key of fewer parts than the limit. -/
def key (s : List Char) : Option (List String × List Char) := keyParts (depthLimit - 1) s

/-! ## Numbers -/

/-- Digits, which may have single underscores between them. -/
def groupedDigits (isOne : Char → Bool) : Nat → List Char → Option (List Char × List Char)
  | 0, _ => none
  | n + 1, c :: rest =>
    if !isOne c then none
    else
      let more :=
        match rest with
        | '_' :: r => groupedDigits isOne n r
        | r => groupedDigits isOne n r
      match more with
      | some (cs, rest) => some (c :: cs, rest)
      | none => some ([c], rest)
  | _ + 1, [] => none

/-- A sign in front of a text: whether it is a minus, and what is left. -/
def sign : List Char → Bool × List Char
  | '+' :: rest => (false, rest)
  | '-' :: rest => (true, rest)
  | s => (false, s)

/-- The digits of a whole number, which begin with zero only for zero itself. -/
def wholeDigits (s : List Char) : Option (List Char × List Char) :=
  match s with
  | '0' :: rest => some (['0'], rest)
  | _ => groupedDigits isDigit s.length s

/-- The number that digits to a base stand for. -/
def valueToBase (base : Nat) (digits : List Char) : Nat :=
  digits.foldl (fun n c => base * n + (Hex.value? c).getD 0) 0

/-- A whole number in the signed range of 64 bits. -/
def inRange (n : Int) : Option Int := if minTime ≤ n ∧ n ≤ maxTime then some n else none

/-- A whole number to a base that its first two characters name. -/
def based (base : Nat) (isOne : Char → Bool) (s : List Char) : Option (Int × List Char) := do
  let (digits, rest) ← groupedDigits isOne s.length s
  return (← inRange (valueToBase base digits), rest)

/-- A whole number. -/
def integer? (s : List Char) : Option (Int × List Char) :=
  match s with
  | '0' :: 'x' :: rest => based 16 (fun c => (Hex.value? c).isSome) rest
  | '0' :: 'o' :: rest => based 8 (fun c => '0' ≤ c && c ≤ '7') rest
  | '0' :: 'b' :: rest => based 2 (fun c => c == '0' || c == '1') rest
  | _ => do
    let (negative, rest) := sign s
    let (digits, rest) ← wholeDigits rest
    let n : Int := valueOf digits
    return (← inRange (if negative then -n else n), rest)

/-- What is left after an exponent. -/
def exponent? : List Char → Option (Int × List Char)
  | c :: rest =>
    if c = 'e' ∨ c = 'E' then do
      let (negative, rest) := sign rest
      let (digits, rest) ← groupedDigits isDigit rest.length rest
      let n : Int := valueOf digits
      return (if negative then -n else n, rest)
    else none
  | [] => none

/-- Whether digits with a power of ten lie beyond the range of numbers of double precision, the
rounding of which is to the nearest. -/
def isTooLarge (mantissa : Nat) (power : Int) : Bool :=
  let size : Int := (Nat.toDigits 10 mantissa).length + power
  if mantissa = 0 ∨ size < 300 then false
  else if 400 < size then true
  else
    let bound := Nat.pow 2 1024 - Nat.pow 2 970
    if 0 ≤ power then bound ≤ mantissa * Nat.pow 10 power.toNat
    else bound * Nat.pow 10 (-power).toNat ≤ mantissa

/-- What is left after a number with a fraction or an exponent.  A positive one must not be too
large; a negative one may be. -/
def fractional? (s : List Char) : Option (List Char) := do
  let (negative, rest) := sign s
  let (whole, rest) ← wholeDigits rest
  let (fraction, power, rest) ←
    match rest with
    | '.' :: rest => do
      let (fraction, rest) ← groupedDigits isDigit rest.length rest
      match exponent? rest with
      | some (power, rest) => some (fraction, power, rest)
      | none => some (fraction, (0 : Int), rest)
    | rest => (exponent? rest).map fun found => ([], found.1, found.2)
  let tooLarge := isTooLarge (valueOf (whole ++ fraction)) (power - fraction.length)
  if tooLarge && !negative then none else some rest

/-- What is left after a word that a text begins with. -/
def word (w : String) (s : List Char) : Option (List Char) :=
  if w.toList.isPrefixOf s then some (s.drop w.length) else none

/-- What is left after an infinity or what is not a number. -/
def special? (s : List Char) : Option (List Char) :=
  let (_, rest) := sign s
  (word "inf" rest).or (word "nan" rest)

/-! ## Dates and times -/

/-- A number of exactly so many digits. -/
def fixedDigits (n : Nat) (s : List Char) : Option (Nat × List Char) :=
  let ds := s.take n
  if ds.length = n ∧ ds.all isDigit then some (valueOf ds, s.drop n) else none

/-- Two digits in a range. -/
def twoDigits (least greatest : Nat) (s : List Char) : Option (Nat × List Char) := do
  let (n, rest) ← fixedDigits 2 s
  if least ≤ n ∧ n ≤ greatest then some (n, rest) else none

/-- What is left after a character that a text must begin with. -/
def expect (c : Char) : List Char → Option (List Char)
  | d :: rest => if c = d then some rest else none
  | [] => none

/-- The number of days of a month. -/
def daysOf (year month : Nat) : Nat :=
  if month = 2 then
    if year % 4 = 0 ∧ (year % 100 ≠ 0 ∨ year % 400 = 0) then 29 else 28
  else if month = 4 ∨ month = 6 ∨ month = 9 ∨ month = 11 then 30
  else 31

/-- What is left after a date. -/
def date? (s : List Char) : Option (List Char) := do
  let (year, rest) ← fixedDigits 4 s
  let rest ← expect '-' rest
  let (month, rest) ← twoDigits 1 12 rest
  let rest ← expect '-' rest
  let (_, rest) ← twoDigits 1 (daysOf year month) rest
  return rest

/-- What is left after a time of day. -/
def time? (s : List Char) : Option (List Char) := do
  let (_, rest) ← twoDigits 0 23 s
  let rest ← expect ':' rest
  let (_, rest) ← twoDigits 0 59 rest
  let rest ← expect ':' rest
  let (_, rest) ← twoDigits 0 60 rest
  match rest with
  | '.' :: c :: more => if isDigit c then some (more.dropWhile isDigit) else some rest
  | _ => some rest

/-- What is left after an offset from universal time. -/
def offset? : List Char → Option (List Char)
  | 'Z' :: rest => some rest
  | 'z' :: rest => some rest
  | c :: rest =>
    if c = '+' ∨ c = '-' then do
      let (_, rest) ← twoDigits 0 23 rest
      let rest ← expect ':' rest
      let (_, rest) ← twoDigits 0 59 rest
      return rest
    else none
  | [] => none

/-- What is left after a date, a time of day, or both. -/
def moment? (s : List Char) : Option (List Char) :=
  match date? s with
  | none => time? s
  | some rest =>
    match rest with
    | c :: more =>
      if c = 'T' ∨ c = 't' ∨ c = ' ' then
        match time? more with
        | some rest => some ((offset? rest).getD rest)
        | none => some rest
      else some rest
    | [] => some []

/-! ## Values -/

/-- A number, a date or a time. -/
def scalarValue (s : List Char) : Option (Toml × List Char) :=
  match moment? s with
  | some rest => some (.moment, rest)
  | none =>
    match (fractional? s).or (special? s) with
    | some rest => some (.float, rest)
    | none => (integer? s).map fun found => (.integer found.1, found.2)

mutual

/-- The value that a text begins with.  The first number bounds how long it is, the second is
how deep it stands. -/
def value : Nat → Nat → List Char → Option (Toml × List Char)
  | 0, _, _ => none
  | n + 1, depth, s =>
    match s with
    | '"' :: _ => (anyText s).map fun found => (.text found.1, found.2)
    | '\'' :: _ => (anyText s).map fun found => (.text found.1, found.2)
    | '[' :: rest =>
      if depth + 1 < depthLimit then
        (items n (depth + 1) rest).map fun found => (.array found.1, found.2)
      else none
    | '{' :: rest =>
      if depth + 1 < depthLimit then
        match skipWhite rest with
        | '}' :: rest => (ofPairs []).map fun t => (t, rest)
        | rest => do
          let (found, rest) ← pairs n (depth + 1) rest
          return (← ofPairs found, rest)
      else none
    | 't' :: _ => (word "true" s).map fun rest => (.bool true, rest)
    | 'f' :: _ => (word "false" s).map fun rest => (.bool false, rest)
    | s => scalarValue s

/-- The items of an array up to its closing bracket; the last may have a comma behind it. -/
def items : Nat → Nat → List Char → Option (List Toml × List Char)
  | 0, _, _ => none
  | n + 1, depth, s =>
    match skipAll s with
    | ']' :: rest => some ([], rest)
    | s => do
      let (v, rest) ← value n depth s
      match skipAll rest with
      | ',' :: rest =>
        let (vs, rest) ← items n depth rest
        return (v :: vs, rest)
      | ']' :: rest => return ([v], rest)
      | _ => none

/-- The keys and values of an inline table up to its closing bracket. -/
def pairs : Nat → Nat → List Char → Option (List (List String × Toml) × List Char)
  | 0, _, _ => none
  | n + 1, depth, s => do
    let (k, rest) ← key s
    let rest ← expect '=' rest
    let (v, rest) ← value n depth (skipWhite rest)
    match skipWhite rest with
    | ',' :: rest =>
      let (found, rest) ← pairs n depth rest
      return ((k, v) :: found, rest)
    | '}' :: rest => return ([(k, v)], rest)
    | _ => none

end

/-! ## Documents -/

/-- A document in the making: its tables, and the path of the last header. -/
structure Draft where
  root : Members := []
  /-- The path of the table that values now go into. -/
  path : List String := []

/-- Read one line that is neither empty nor a comment: a header, or a key with its value. -/
def line (d : Draft) (s : List Char) : Option (Draft × List Char) :=
  match s with
  | '[' :: '[' :: rest => do
    let (path, rest) ← key rest
    let rest ← lineRest (← expect ']' (← expect ']' rest))
    return ({ root := ← openElement path d.root, path := path }, rest)
  | '[' :: rest => do
    let (path, rest) ← key rest
    let rest ← lineRest (← expect ']' rest)
    return ({ root := ← openTable path d.root, path := path }, rest)
  | _ => do
    let (k, rest) ← key s
    let rest ← expect '=' rest
    let (v, rest) ← value (2 * s.length + 2) 0 (skipWhite rest)
    let rest ← lineRest rest
    return ({ d with root := ← assignAt d.path k v d.root }, rest)

/-- Read the lines of a document.  The number bounds how many there are. -/
def lines : Nat → Draft → List Char → Option Draft
  | 0, _, _ => none
  | n + 1, d, s =>
    match skipWhite s with
    | [] => some d
    | '#' :: rest => (lineRest ('#' :: rest)).bind (lines n d)
    | '\n' :: rest => lines n d rest
    | '\r' :: rest => (expect '\n' rest).bind (lines n d)
    | s => (line d s).bind fun found => lines n found.1 found.2

/-- The members of the document that a text is.  A byte order mark in front does not count. -/
def read (text : String) : Option Members :=
  let s :=
    match text.toList with
    | c :: rest => if c.toNat = 0xFEFF then rest else c :: rest
    | [] => []
  (lines (s.length + 1) {} s).map Draft.root

end ShardIndex.Text.Toml
