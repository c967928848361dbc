import ShardIndex.Schema.Id

/-!
# The registry of schemas

The raw schemas that are known, each with the schema its series are downsampled into.  A name is
registered once, and a name whose id is already taken by another one is refused.  A raw key is
projected to the key of its downsampled series by exchanging the schema id in front.
-/

namespace ShardIndex.Schema

/-- A schema as it is declared. -/
structure Definition where
  name : String
  /-- The schema its series are downsampled into, if they are. -/
  downsample : Option String
deriving DecidableEq, Repr

/-- The id of the declared schema. -/
def Definition.id (d : Definition) : UInt16 := idOf d.name

/-- The known schemas, in the order in which they were registered. -/
structure Registry where
  definitions : List Definition
deriving DecidableEq, Repr

namespace Registry

/-- The registry that knows no schema. -/
def empty : Registry := ⟨[]⟩

/-- The definition that owns an id. -/
def find? (r : Registry) (id : UInt16) : Option Definition :=
  r.definitions.find? fun d => d.id = id

/-- Register a schema; the id it gets, or why it is refused. -/
def register (r : Registry) (d : Definition) : Except Failure (UInt16 × Registry) :=
  match r.find? d.id with
  | some existing =>
    if existing.name = d.name then .error (.schemaRepeated d.name)
    else .error (.schemaCollision d.name existing.name d.id)
  | none => .ok (d.id, ⟨r.definitions ++ [d]⟩)

/-- Register schemas one after another, going on after one that is refused. -/
def registerAll : Registry → List Definition → List (Except Failure UInt16) × Registry
  | r, [] => ([], r)
  | r, d :: rest =>
    match r.register d with
    | .error e => let (results, r) := r.registerAll rest; (.error e :: results, r)
    | .ok (id, r) => let (results, r) := r.registerAll rest; (.ok id :: results, r)

/-- The registry of a list of definitions, which fails at the first one refused. -/
def ofDefinitions (definitions : List Definition) : Except Failure Registry :=
  definitions.foldlM (fun r d => (r.register d).map Prod.snd) empty

/-- How many schemas are known. -/
def size (r : Registry) : Nat := r.definitions.length

/-- The name of the schema that a key belongs to. -/
def schemaName (r : Registry) (key : Key) : Option String := do
  let (id, _) ← decodeKey key
  let d ← r.find? id
  return d.name

/-- The key under which the series of a raw key is downsampled. -/
def downsampleKey (r : Registry) (key : Key) : Option Key := do
  let (id, series) ← decodeKey key
  let d ← r.find? id
  let target ← d.downsample
  return encodeKey target series

/-- A record under its downsampled key, with its window. -/
def downsampleRecord (r : Registry) (record : Record) : Option Record :=
  (r.downsampleKey record.key).map record.withKey

end Registry

end ShardIndex.Schema
