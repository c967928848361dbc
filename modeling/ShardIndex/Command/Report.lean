import ShardIndex.Lifecycle
import ShardIndex.Text.Json
import ShardIndex.Text.Quoted
import ShardIndex.Path

/-!
# What a command reports

A command that ends well reports what it has done, as a JSON object over several lines or as
plain text.  How long it took is put in when the report is written.
-/

namespace ShardIndex.Command

open Text (Json)

/-- What a command that ended well has to say. -/
inductive Report
  /-- Records were stored or written into an index. -/
  | summary (operation : String) (shard : Shard) (count : Nat) (latest : Option Event)
  | statistics (shard : Shard) (file : Path) (entries : Nat) (maxId : Option PartId)
  | written (file : Path)
  /-- A text as it is. -/
  | text (content : String)
deriving DecidableEq, Repr

namespace Report

/-- A value that may be missing. -/
def optional {α : Type} (f : α → Json String) (o : Option α) : Json String := o.elim .null f

/-- An event as JSON. -/
def ofEvent (e : Event) : Json String :=
  .object [("state", .text e.stage.name), ("timestamp_ms", .integer e.time)]

/-- The text of a report after some milliseconds. -/
def render (elapsed : Nat) : Report → String
  | .summary operation shard count latest =>
    (Json.object
      [("operation", .text operation), ("shard", .text shard.name), ("count", .integer count),
        ("elapsed_ms", .integer elapsed), ("lifecycle", optional ofEvent latest)]).pretty ++ "\n"
  | .statistics shard file entries maxId =>
    (Json.object
      [("shard", .text shard.name), ("path", .text file), ("entries", .integer entries),
        ("max_part_id", optional (fun id : PartId => .integer id) maxId)]).pretty ++ "\n"
  | .written file => "Config written to " ++ Text.Quoted.quote file ++ "\n"
  | .text content => content

end Report

end ShardIndex.Command
