import ShardIndex.Failure
import ShardIndex.Word

/-!
# Hours and milliseconds

Times are milliseconds since the epoch, kept in a signed word of 64 bits: a result beyond either
end of that range stops at the end (`clip`).  Updates are filed by the hour in which they
happened, and a span of hours includes both its ends.  The hours of a span are words too, and they
are counted up one by one (`HourCursor`) without ever asking for an hour after the last.
-/

namespace ShardIndex

/-- The least time that can be written down. -/
def minTime : Int := -9223372036854775808

/-- The greatest time that can be written down. -/
def maxTime : Int := 9223372036854775807

/-- A number held inside the range of times. -/
def clip (t : Int) : Int := max minTime (min t maxTime)

theorem clip_mono {s t : Int} (h : s ≤ t) : clip s ≤ clip t := by
  unfold clip
  omega

/-- Milliseconds in one hour. -/
def millisPerHour : Int := 3600000

/-- When an hour begins. -/
def hourStart (hour : Int) : Int := clip (hour * millisPerHour)

/-- How long a retention of some hours is.  A count of hours is read as a signed word of 64 bits,
so the upper half of the unsigned range counts backwards. -/
def retentionMillis (hours : Nat) : Int :=
  clip (Int.bmod hours 18446744073709551616 * millisPerHour)

/-- The time up to which an index is taken to be complete: what was persisted, but never further
back than the retention reaches. -/
def effectiveCheckpoint (persisted : Option Int) (now retention : Int) : Int :=
  match persisted with
  | none => clip (now - retention)
  | some checkpoint => max checkpoint (clip (now - retention))

/-! ## Hours one by one -/

/-- Hours that are counted up to a last one, which is included. -/
structure HourCursor where
  next : Int64
  last : Int64
  /-- Whether the last hour was given. -/
  spent : Bool := false
deriving DecidableEq, Repr

namespace HourCursor

/-- What asking for the next hour comes to. -/
inductive Turn
  | hour (h : Int64) (rest : HourCursor)
  | finished
  /-- There is no word for the hour after this one. -/
  | overflowed
deriving DecidableEq, Repr

/-- Ask for the next hour. -/
def turn (c : HourCursor) : Turn :=
  if c.spent ∨ c.last < c.next then .finished
  else if c.next < c.last then
    if c.next = Int64.maxValue then .overflowed else .hour c.next { c with next := c.next + 1 }
  else .hour c.next { c with spent := true }

/-- The next hours, at most as many as asked for. -/
def take : Nat → HourCursor → List Int64
  | 0, _ => []
  | n + 1, c =>
    match c.turn with
    | .hour h rest => h :: take n rest
    | .finished => []
    | .overflowed => []

end HourCursor

/-! ## Spans of hours -/

/-- Hours from a first to a last one, both included. -/
structure HourSpan where
  first : Int
  last : Int
  first_le_last : first ≤ last

namespace HourSpan

/-- The span between two bounds, unless they come in the wrong order. -/
def ofBounds (first last : Int) : Except Failure HourSpan :=
  if h : first ≤ last then .ok ⟨first, last, h⟩ else .error (.hoursReversed first last)

theorem ofBounds_of_le {first last : Int} (h : first ≤ last) :
    ofBounds first last = .ok ⟨first, last, h⟩ :=
  dif_pos h

theorem ofBounds_of_not_le {first last : Int} (h : ¬ first ≤ last) :
    ofBounds first last = .error (.hoursReversed first last) :=
  dif_neg h

/-- How many hours the span has. -/
def length (s : HourSpan) : Nat := (s.last - s.first + 1).toNat

/-- The number of hours as it is reported, in an unsigned word: one more than they are apart. -/
def count (s : HourSpan) : Nat :=
  (Word.addUpTo (Word.distance (.ofInt s.last) (.ofInt s.first)) 1).toNat

/-- The hours, ascending. -/
def hours (s : HourSpan) : List Int := (List.range s.length).map fun i : Nat => s.first + i

/-- The hours, to be counted up. -/
def cursor (s : HourSpan) : HourCursor := { next := .ofInt s.first, last := .ofInt s.last }

/-- The first hours, at most as many as asked for, ascending. -/
def firstHours (s : HourSpan) (n : Nat) : List Int := (s.cursor.take n).map Int64.toInt

/-- The last hours, at most as many as asked for, descending. -/
def lastHours (s : HourSpan) (n : Nat) : List Int :=
  (List.range (min n s.length)).map fun i : Nat => s.last - i

/-- When the first hour begins. -/
def startTime (s : HourSpan) : Int := hourStart s.first

/-- When the last hour begins. -/
def endTime (s : HourSpan) : Int := hourStart s.last

end HourSpan

end ShardIndex
