import ShardIndex.Record
import ShardIndex.Text.Blank
import ShardIndex.Text.Json.Reader

/-!
# Records as JSON

A record is written as an object of its key, as a list of bytes, and its two times.  A line of an
ingest file holds a key in hexadecimal, two times and the hour of the update.
-/

namespace ShardIndex

open Text (Json)

/-- A record as a JSON value. -/
def Record.toJson (r : Record) : Json String :=
  .object
    [("part_key", .array (r.key.map fun b => .integer b.toNat)),
      ("start_time", .integer r.startTime), ("end_time", .integer r.endTime)]

/-- A record as text. -/
def Record.text (r : Record) : String := r.toJson.compact

/-- A time read from JSON. -/
def timeOfJson? (v : Json.Read) : Option Int := Json.integerIn? minTime maxTime v

/-- Bytes read from a JSON list of numbers. -/
def bytesOfJson? : Json.Read → Option Bytes
  | .array vs => vs.mapM fun v => (Json.integerIn? 0 255 v).map fun n => UInt8.ofNat n.toNat
  | _ => none

/-- The record that a text is. -/
def Record.ofText? (text : String) : Option Record := do
  let v ← Json.read text
  match ← Json.fields? ["part_key", "start_time", "end_time"] v with
  | [key, startTime, endTime] =>
    return ⟨← bytesOfJson? key, ← timeOfJson? startTime, ← timeOfJson? endTime⟩
  | _ => none

/-- One line of an ingest file, with its key still as text. -/
structure IngestLine where
  /-- The key, in hexadecimal. -/
  keyText : String
  startTime : Int
  endTime : Int
  hour : Int
deriving DecidableEq, Repr

namespace IngestLine

/-- The line that a text is. -/
def ofText? (text : String) : Option IngestLine := do
  let v ← Json.read text
  match ← Json.fields? ["key_hex", "start", "end", "hour"] v with
  | [.text (some key), startTime, endTime, hour] =>
    return ⟨key, ← timeOfJson? startTime, ← timeOfJson? endTime, ← timeOfJson? hour⟩
  | _ => none

/-- The key of the line, white space around it aside. -/
def key? (l : IngestLine) : Option Key := Text.Hex.decode (Text.trim l.keyText.toList)

end IngestLine

end ShardIndex
