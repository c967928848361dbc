import ShardIndex.Text.Json

/-!
# Reading JSON

The grammar of JSON without extensions: no comments, no trailing commas, no leading zeros, no
control characters inside quotes, nothing but blanks after the value.  An escape may name half
of a surrogate pair; the text it stands in is then no sequence of characters unless the other
half follows at once.
-/

namespace ShardIndex.Text.Json

/-- What is read: texts may be ill-formed. -/
abbrev Read := Json (Option String)

/-- Whether a character may stand between the tokens. -/
def isSpace (c : Char) : Bool := c == ' ' || c == '\n' || c == '\t' || c == '\r'

/-- What is left after blanks. -/
def skip (s : List Char) : List Char := s.dropWhile isSpace

/-! ## Numbers -/

/-- Whether a character is a decimal digit. -/
def isDigit (c : Char) : Bool := '0' ≤ c && c ≤ '9'

/-- The digits in front of a text, at least one. -/
def digits (s : List Char) : Option (List Char × List Char) :=
  match s.span isDigit with
  | ([], _) => none
  | found => some found

/-- The number that digits stand for. -/
def valueOf (ds : List Char) : Nat := ds.foldl (fun n c => 10 * n + (c.toNat - 48)) 0

/-- A fraction in front of a text, if there is one: whether it was there, and what is left. -/
def fraction : List Char → Option (Bool × List Char)
  | '.' :: rest => (digits rest).map fun found => (true, found.2)
  | s => some (false, s)

/-- An exponent in front of a text, if there is one. -/
def exponent : List Char → Option (Bool × List Char)
  | c :: rest =>
    if c = 'e' ∨ c = 'E' then
      let rest :=
        match rest with
        | '+' :: r => r
        | '-' :: r => r
        | r => r
      (digits rest).map fun found => (true, found.2)
    else some (false, c :: rest)
  | [] => some (false, [])

/-- A number without its sign: a run of digits that does not begin with a needless zero, a
fraction and an exponent. -/
def magnitude (s : List Char) : Option (Nat × Bool × List Char) := do
  let (ds, rest) ← digits s
  if ds.length ≠ 1 ∧ ds.head? = some '0' then none
  else
    let (fractional, rest) ← fraction rest
    let (scaled, rest) ← exponent rest
    return (valueOf ds, fractional || scaled, rest)

/-- A number in front of a text. -/
def number (s : List Char) : Option (Read × List Char) :=
  match s with
  | '-' :: rest => do
    let (n, isDecimal, rest) ← magnitude rest
    -- a negative zero is no whole number
    return (if isDecimal ∨ n = 0 then .decimal else .integer (-(n : Int)), rest)
  | _ => do
    let (n, isDecimal, rest) ← magnitude s
    return (if isDecimal then .decimal else .integer n, rest)

/-! ## Texts -/

/-- One unit of a text between quotes. -/
inductive Piece
  | char (c : Char)
  /-- Half of a surrogate pair. -/
  | half (n : Nat)
deriving DecidableEq, Repr

/-- The piece that a number of four digits stands for. -/
def pieceOf (n : Nat) : Piece :=
  if 0xD800 ≤ n ∧ n ≤ 0xDFFF then .half n else .char (Char.ofNat n)

/-- The piece after a backslash. -/
def escaped : List Char → Option (Piece × List Char)
  | '"' :: rest => some (.char '"', rest)
  | '\\' :: rest => some (.char '\\', rest)
  | '/' :: rest => some (.char '/', rest)
  | 'b' :: rest => some (.char (Char.ofNat 8), rest)
  | 'f' :: rest => some (.char (Char.ofNat 12), rest)
  | 'n' :: rest => some (.char '\n', rest)
  | 'r' :: rest => some (.char '\r', rest)
  | 't' :: rest => some (.char '\t', rest)
  | 'u' :: a :: b :: c :: d :: rest => do
    let a ← Hex.value? a
    let b ← Hex.value? b
    let c ← Hex.value? c
    let d ← Hex.value? d
    return (pieceOf (4096 * a + 256 * b + 16 * c + d), rest)
  | _ => none

/-- The pieces up to the closing quote.  The number bounds how many there are. -/
def pieces : Nat → List Char → Option (List Piece × List Char)
  | 0, _ => none
  | n + 1, s =>
    match s with
    | [] => none
    | '"' :: rest => some ([], rest)
    | '\\' :: rest => do
      let (p, rest) ← escaped rest
      let (ps, rest) ← pieces n rest
      return (p :: ps, rest)
    | c :: rest =>
      if c.toNat < 32 then none
      else do
        let (ps, rest) ← pieces n rest
        return (.char c :: ps, rest)

/-- The characters that pieces stand for, if every half has its other half. -/
def join : List Piece → Option (List Char)
  | [] => some []
  | .char c :: rest => (join rest).map (c :: ·)
  | .half high :: .half low :: rest =>
    if high < 0xDC00 ∧ 0xDC00 ≤ low then
      (join rest).map
        (Char.ofNat (0x10000 + 1024 * (high - 0xD800) + (low - 0xDC00)) :: ·)
    else none
  | .half _ :: _ => none

/-- A text whose opening quote is already read. -/
def quoted (s : List Char) : Option (Option String × List Char) := do
  let (ps, rest) ← pieces (s.length + 1) s
  return ((join ps).map String.ofList, rest)

/-! ## Values -/

/-- What is left after a word that a text begins with. -/
def word (w : List Char) (s : List Char) : Option (List Char) :=
  if w.isPrefixOf s then some (s.drop w.length) else none

mutual

/-- The value in front of a text.  The number bounds how deep and how long it is. -/
def value : Nat → List Char → Option (Read × List Char)
  | 0, _ => none
  | n + 1, s =>
    match skip s with
    | 'n' :: rest => (word ['u', 'l', 'l'] rest).map fun r => (.null, r)
    | 't' :: rest => (word ['r', 'u', 'e'] rest).map fun r => (.bool true, r)
    | 'f' :: rest => (word ['a', 'l', 's', 'e'] rest).map fun r => (.bool false, r)
    | '"' :: rest => (quoted rest).map fun found => (.text found.1, found.2)
    | '[' :: rest =>
      match skip rest with
      | ']' :: rest => some (.array [], rest)
      | rest => (items n rest).map fun found => (.array found.1, found.2)
    | '{' :: rest =>
      match skip rest with
      | '}' :: rest => some (.object [], rest)
      | rest => (members n rest).map fun found => (.object found.1, found.2)
    | s => number s

/-- The items of an array up to its closing bracket. -/
def items : Nat → List Char → Option (List Read × List Char)
  | 0, _ => none
  | n + 1, s => do
    let (v, rest) ← value n s
    match skip rest with
    | ',' :: rest =>
      let (vs, rest) ← items n rest
      return (v :: vs, rest)
    | ']' :: rest => return ([v], rest)
    | _ => none

/-- The members of an object up to its closing bracket. -/
def members : Nat → List Char → Option (List (Option String × Read) × List Char)
  | 0, _ => none
  | n + 1, s =>
    match skip s with
    | '"' :: rest => do
      let (name, rest) ← quoted rest
      match skip rest with
      | ':' :: rest =>
        let (v, rest) ← value n rest
        match skip rest with
        | ',' :: rest =>
          let (ms, rest) ← members n rest
          return ((name, v) :: ms, rest)
        | '}' :: rest => return ([(name, v)], rest)
        | _ => none
      | _ => none
    | _ => none

end

/-- The value that a whole text is. -/
def read (text : String) : Option Read := do
  let s := text.toList
  let (v, rest) ← value (2 * s.length + 2) s
  if (skip rest).isEmpty then some v else none

/-! ## Fields -/

/-- The value of a field that occurs exactly once. -/
def field? (name : String) (ms : List (Option String × Read)) : Option Read :=
  match ms.filter fun m => m.1 = some name with
  | [(_, v)] => some v
  | _ => none

/-- The values of some fields, each of which must occur exactly once; other fields are passed
over, but every name must be well formed.  An array of as many items stands for the fields in
their order. -/
def fields? (names : List String) : Read → Option (List Read)
  | .array vs => if vs.length = names.length then some vs else none
  | .object ms =>
    if ms.any fun m => m.1.isNone then none else names.mapM fun name => field? name ms
  | _ => none

/-- A whole number in a range. -/
def integerIn? (least greatest : Int) : Read → Option Int
  | .integer n => if least ≤ n ∧ n ≤ greatest then some n else none
  | _ => none

end ShardIndex.Text.Json
