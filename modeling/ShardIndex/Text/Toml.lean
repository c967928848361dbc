import ShardIndex.Key

/-!
# TOML documents

A document is a table of named values, built up line by line: a header opens a table, or a new
element of an array of tables, and each line below puts a value into it, perhaps through tables
named by a dotted key.  A table remembers how it came about, because that decides what later
lines may still add to it:

* a table with a header of its own, or written inline, takes no second header;
* a table that only a longer header mentions may get its header later;
* a table made by a dotted key may be extended by dotted keys alone.
-/

namespace ShardIndex.Text

/-- How a table came about. -/
inductive TableOrigin
  /-- By a header of its own. -/
  | header
  /-- By being mentioned in a longer header. -/
  | mention
  /-- By a dotted key. -/
  | dottedKey
  /-- By being written between braces. -/
  | inlined
  /-- By a dotted key between braces. -/
  | inlinedKey
deriving DecidableEq, Repr

/-- A TOML value. -/
inductive Toml
  | text (s : String)
  | integer (n : Int)
  /-- A number with a fraction or an exponent, an infinity, or no number at all. -/
  | float
  | bool (b : Bool)
  /-- A date, a time, or both. -/
  | moment
  | array (items : List Toml)
  /-- A table, with its members in the order of their appearance. -/
  | table (origin : TableOrigin) (members : List (String × Toml))
  /-- An array of tables, each under a header in double brackets. -/
  | tables (elements : List Toml)

namespace Toml

/-- The named values of a table. -/
abbrev Members := List (String × Toml)

/-- Put a value under a name: in the place of the value it had, or else at the end. -/
def put (name : String) (v : Toml) : Members → Members
  | [] => [(name, v)]
  | (n, w) :: rest => if n = name then (n, v) :: rest else (n, w) :: put name v rest

/-- The table without members that a line makes on its way, by a header or by a dotted key. -/
def stub (origin : TableOrigin) : Toml := .table origin []

/-! ## Lines of a document -/

/-- Change the table at the end of a path of names in a header.  Tables that are missing on the
way are made; an array of tables leads to its last element. -/
def alongHeader (f : Members → Option Members) : List String → Members → Option Members
  | [], ms => f ms
  | name :: rest, ms =>
    match (ms.lookup name).getD (stub .mention) with
    | .table .inlined _ => none
    | .table .inlinedKey _ => none
    | .table origin inner => do
      let inner ← alongHeader f rest inner
      return put name (.table origin inner) ms
    | .tables elements =>
      match elements.getLast? with
      | some (.table origin inner) => do
        let inner ← alongHeader f rest inner
        return put name (.tables (elements.dropLast ++ [.table origin inner])) ms
      | _ => none
    | _ => none

/-- Split a path of names into all but the last, and the last. -/
def splitLast : List String → Option (List String × String)
  | [] => none
  | [name] => some ([], name)
  | name :: rest => (splitLast rest).map fun found => (name :: found.1, found.2)

/-- Open a table by its header. -/
def openTable (path : List String) (root : Members) : Option Members := do
  let (parents, name) ← splitLast path
  let opened := fun ms : Members =>
    match ms.lookup name with
    | none => some (put name (stub .header) ms)
    | some (.table .mention inner) => some (put name (.table .header inner) ms)
    | some _ => none
  alongHeader opened parents root

/-- Open a new element of an array of tables by its header. -/
def openElement (path : List String) (root : Members) : Option Members := do
  let (parents, name) ← splitLast path
  let opened := fun ms : Members =>
    match ms.lookup name with
    | none => some (put name (.tables [stub .header]) ms)
    | some (.tables elements) => some (put name (.tables (elements ++ [stub .header])) ms)
    | some _ => none
  alongHeader opened parents root

/-- Put a value under a name that is not taken. -/
def putNew (name : String) (v : Toml) (ms : Members) : Option Members :=
  match ms.lookup name with
  | none => some (put name v ms)
  | some _ => none

/-- Put a value at the end of a dotted key, below a table that was reached through a table of
the given origin. -/
def alongKey (name : String) (v : Toml) : List String → TableOrigin → Members → Option Members
  | [], origin, ms => if origin = .dottedKey then putNew name v ms else none
  | step :: rest, _, ms =>
    match (ms.lookup step).getD (stub .dottedKey) with
    | .table .dottedKey inner => do
      let inner ← alongKey name v rest .dottedKey inner
      return put step (.table .dottedKey inner) ms
    | .table .mention inner => do
      let inner ← alongKey name v rest .mention inner
      return put step (.table .mention inner) ms
    | .tables elements =>
      match elements.getLast? with
      | some (.table origin inner) => do
        let inner ← alongKey name v rest origin inner
        return put step (.tables (elements.dropLast ++ [.table origin inner])) ms
      | _ => none
    | _ => none

/-- Put a value under a key, dotted or not, into the table that a header has opened. -/
def assign (key : List String) (v : Toml) (ms : Members) : Option Members := do
  let (steps, name) ← splitLast key
  if steps.isEmpty then putNew name v ms else alongKey name v steps .header ms

/-- Put a value under a key into the table at the end of a path of headers. -/
def assignAt (path key : List String) (v : Toml) (root : Members) : Option Members :=
  alongHeader (assign key v) path root

/-! ## Inline tables -/

/-- Put a value at the end of a dotted key between braces. -/
def alongInlineKey (name : String) (v : Toml) : List String → Members → Option Members
  | [], ms => putNew name v ms
  | step :: rest, ms =>
    match (ms.lookup step).getD (stub .inlinedKey) with
    | .table .inlinedKey inner => do
      let inner ← alongInlineKey name v rest inner
      return put step (.table .inlinedKey inner) ms
    | _ => none

/-- The inline table of keys and values. -/
def ofPairs (pairs : List (List String × Toml)) : Option Toml := do
  let put := fun ms (p : List String × Toml) => do
    let (steps, name) ← splitLast p.1
    alongInlineKey name p.2 steps ms
  return .table .inlined (← pairs.foldlM put [])

end Toml

end ShardIndex.Text
