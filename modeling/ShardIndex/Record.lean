import ShardIndex.Time

/-!
# Records, entries and shards

A record says that a series existed from one time to another; the column store hands records out
and an index turns each into an entry under an id.  A shard is one numbered part of a dataset.
-/

namespace ShardIndex

/-- One key with the window in which its series was alive. -/
structure Record where
  key : Key
  startTime : Int
  endTime : Int
deriving DecidableEq, Repr

namespace Record

/-- A record's window must not end before it begins. -/
def validate (r : Record) : Except Failure Unit :=
  if r.endTime < r.startTime then .error (.windowReversed r.startTime r.endTime) else .ok ()

/-- The same window under another key. -/
def withKey (r : Record) (key : Key) : Record := { r with key := key }

theorem validate_eq_ok_iff {r : Record} : r.validate = .ok () ↔ r.startTime ≤ r.endTime := by
  unfold validate
  split <;> simp <;> omega

end Record

/-- What an index holds for a key. -/
structure Entry where
  id : PartId
  startTime : Int
  endTime : Int
deriving DecidableEq, Repr

namespace Entry

/-- An entry after another write for its key: the later id, and the least window that holds
both. -/
def merge (e later : Entry) : Entry :=
  ⟨later.id, min e.startTime later.startTime, max e.endTime later.endTime⟩

/-- The entry after a write for a key that may have one already. -/
def mergeInto (existing : Option Entry) (later : Entry) : Entry :=
  match existing with
  | none => later
  | some e => e.merge later

end Entry

/-- The entry that a record makes under an id. -/
def Record.entry (r : Record) (id : PartId) : Entry := ⟨id, r.startTime, r.endTime⟩

/-- One numbered part of a dataset. -/
structure Shard where
  dataset : String
  number : Nat
deriving DecidableEq, Repr

/-- The name under which reports show a shard. -/
def Shard.name (s : Shard) : String := s.dataset ++ "/" ++ toString s.number

end ShardIndex
