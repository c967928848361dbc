/-!
# Partition keys

A partition key is an opaque sequence of bytes that names one series.  Keys are ordered byte by
byte, a proper initial part before the whole, and that order fixes how tables of keys are laid
out.
-/

namespace ShardIndex

/-- A sequence of bytes. -/
abbrev Bytes := List UInt8

/-- The bytes that identify one series. -/
abbrev Key := Bytes

/-- The integer that stands for a key within one shard's index. -/
abbrev PartId := Nat

/-- The largest id that may be handed out: ids fit a signed column of 32 bits. -/
def maxPartId : PartId := 2147483647

/-- The largest value that an id field can hold. -/
def maxIdField : Nat := 4294967295

namespace Key

theorem lt_trans {a b c : Key} (h : a < b) (h' : b < c) : a < c := List.lt_trans h h'

theorem lt_irrefl (a : Key) : ¬ a < a := List.lt_irrefl a

/-- Two keys of which neither comes first are one key. -/
theorem eq_of_not_lt {a b : Key} (h : ¬ a < b) (h' : ¬ b < a) : a = b :=
  List.le_antisymm (List.not_lt.1 h') (List.not_lt.1 h)

theorem ne_of_lt {a b : Key} (h : a < b) : a ≠ b := fun e => lt_irrefl b (e ▸ h)

end Key

/-- The bytes of a text in the variable-length encoding of Unicode by octets. -/
def octets (text : String) : Bytes :=
  text.toList.flatMap String.utf8EncodeChar

/-- The text that bytes are the encoding of. -/
def Bytes.text? (content : Bytes) : Option String := String.fromUTF8? ⟨content.toArray⟩

end ShardIndex
