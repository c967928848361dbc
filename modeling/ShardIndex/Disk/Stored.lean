import ShardIndex.Disk
import ShardIndex.Text.Json.Reader

/-!
# Databases as bytes

How a database lies in a file: a heading, and then one JSON object with the rows of the column
store, the rows of the index, and whether changes are kept in a log.  A part that the database does
not have is null.
-/

namespace ShardIndex

open Text (Json)

namespace Database

/-- The first line of a database file. -/
def heading : String := "shard index database 1\n"

/-! ## Writing -/

/-- A row of a column store: its number, its shard, and what is filed there. -/
def storedToJson (row : StoredRow) : Json String :=
  .array
    [.integer row.number, .text row.filed.shard.dataset, .integer row.filed.shard.number,
      .text (Text.Hex.text row.filed.record.key), .integer row.filed.record.startTime,
      .integer row.filed.record.endTime, .integer row.filed.hour]

/-- A row of an index: its key and its entry. -/
def indexedToJson (row : Key × Entry) : Json String :=
  .array
    [.text (Text.Hex.text row.1), .integer row.2.id, .integer row.2.startTime,
      .integer row.2.endTime]

/-- The rows of a part, if there is one. -/
def partToJson (rows : Option (List (Json String))) : Json String := rows.elim .null .array

/-- A database as text. -/
def text (db : Database) : String :=
  heading ++
    (Json.object
      [("store", partToJson (db.store.map fun store => store.rows.map storedToJson)),
        ("index", partToJson (db.index.map fun index => index.rows.map indexedToJson)),
        ("logged", .bool db.isLogged)]).compact ++ "\n"

/-! ## Reading -/

/-- A key in hexadecimal. -/
def keyOfJson? : Json.Read → Option Key
  | .text (some s) => Text.Hex.decode s.toList
  | _ => none

/-- A number without sign. -/
def numberOfJson? : Json.Read → Option Nat
  | .integer n => if 0 ≤ n then some n.toNat else none
  | _ => none

/-- A number. -/
def timeOfJson? : Json.Read → Option Int
  | .integer n => some n
  | _ => none

/-- A row of a column store. -/
def storedOfJson? : Json.Read → Option StoredRow
  | .array [number, .text (some dataset), shard, key, startTime, endTime, hour] => do
    let record : Record := ⟨← keyOfJson? key, ← timeOfJson? startTime, ← timeOfJson? endTime⟩
    return ⟨← numberOfJson? number,
      ⟨⟨dataset, ← numberOfJson? shard⟩, record, ← timeOfJson? hour⟩⟩
  | _ => none

/-- A row of an index. -/
def indexedOfJson? : Json.Read → Option (Key × Entry)
  | .array [key, id, startTime, endTime] => do
    return (← keyOfJson? key,
      ⟨← numberOfJson? id, ← timeOfJson? startTime, ← timeOfJson? endTime⟩)
  | _ => none

/-- The rows of a part, if there is one. -/
def partOfJson? {α : Type} (row? : Json.Read → Option α) : Json.Read → Option (Option (List α))
  | .null => some none
  | .array rows => (rows.mapM row?).map some
  | _ => none

/-- The database that a text is. -/
def ofText? (s : String) : Option Database := do
  let body ←
    if heading.toList.isPrefixOf s.toList then some (s.toList.drop heading.length) else none
  match ← Json.fields? ["store", "index", "logged"] (← Json.read (String.ofList body)) with
  | [store, index, .bool isLogged] =>
    return {
      store := (← partOfJson? storedOfJson? store).map fun rows => ⟨rows⟩
      index := (← partOfJson? indexedOfJson? index).map Table.ofList
      isLogged }
  | _ => none

end Database

namespace Node

/-- The node of a file with some bytes. -/
def ofBytes (content : Bytes) : Node :=
  match content.text?.bind Database.ofText? with
  | some db => .database db
  | none => .file content

/-- The bytes of a file. -/
def bytes? : Node → Option Bytes
  | .directory => none
  | .file content => some content
  | .database db => some (Bytes.ofText db.text)

end Node

end ShardIndex
