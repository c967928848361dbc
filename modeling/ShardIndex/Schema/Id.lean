import ShardIndex.Record

/-!
# Schema ids and the layout of keys

A schema is known by an id of 16 bits: the cyclic redundancy check of its name, in 32 bits, with
its two halves folded together by exclusive or.  Distinct names may therefore share an id.  A
key begins with the id of its schema, low byte first, and goes on with the bytes that identify
the series.
-/

namespace ShardIndex.Schema

/-- One bit of the check: shift out the low bit, and fold in the polynomial where it was set. -/
def checkBit (r : UInt32) : UInt32 :=
  if r &&& 1 = 1 then (r >>> 1) ^^^ 0xEDB88320 else r >>> 1

/-- Eight bits of the check. -/
def checkByte (r : UInt32) (b : UInt8) : UInt32 :=
  let r := r ^^^ b.toUInt32
  checkBit (checkBit (checkBit (checkBit (checkBit (checkBit (checkBit (checkBit r)))))))

/-- The cyclic redundancy check over bytes, low bits first. -/
def cyclicCheck (bytes : Bytes) : UInt32 :=
  bytes.foldl checkByte 0xFFFFFFFF ^^^ 0xFFFFFFFF

/-- The id of a schema name. -/
def idOf (name : String) : UInt16 :=
  let check := cyclicCheck (octets name)
  ((check >>> 16) ^^^ (check &&& 0xFFFF)).toUInt16

/-- The key of a series under a schema id. -/
def keyOf (id : UInt16) (series : Bytes) : Key :=
  UInt8.ofNat (id.toNat % 256) :: UInt8.ofNat (id.toNat / 256) :: series

/-- The key of a series under a schema name. -/
def encodeKey (schema : String) (series : Bytes) : Key := keyOf (idOf schema) series

/-- The schema id and the series of a key; a key of fewer than two bytes has neither. -/
def decodeKey : Key → Option (UInt16 × Bytes)
  | low :: high :: series => some (UInt16.ofNat (low.toNat + 256 * high.toNat), series)
  | _ => none

/-- The parts of a key are those it was made of. -/
theorem decodeKey_keyOf (id : UInt16) (series : Bytes) :
    decodeKey (keyOf id series) = some (id, series) := by
  have hid : id.toNat < 65536 := id.toNat_lt
  have low : (UInt8.ofNat (id.toNat % 256)).toNat = id.toNat % 256 := by
    rw [UInt8.toNat_ofNat']; omega
  have high : (UInt8.ofNat (id.toNat / 256)).toNat = id.toNat / 256 := by
    rw [UInt8.toNat_ofNat']; omega
  have whole : UInt16.ofNat (id.toNat % 256 + 256 * (id.toNat / 256)) = id := by
    rw [Nat.mod_add_div]; exact UInt16.ofNat_toNat
  simp only [keyOf, decodeKey, low, high, whole]

end ShardIndex.Schema
