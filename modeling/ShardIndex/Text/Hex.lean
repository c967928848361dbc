import ShardIndex.Key

/-!
# Hexadecimal text

Each byte is written as two digits, the high half first.  Digits are written in lower case and
read in either case; a text of odd length, or with any other character, is not read.
Main statement: what is written reads back (`decode_encode`).
-/

namespace ShardIndex.Text.Hex

/-- The digit of a number below sixteen. -/
def digit (n : Nat) : Char :=
  if n < 10 then Char.ofNat (48 + n) else Char.ofNat (87 + n)

/-- The number that a digit of either case stands for. -/
def value? (c : Char) : Option Nat :=
  if '0' ≤ c ∧ c ≤ '9' then some (c.toNat - 48)
  else if 'a' ≤ c ∧ c ≤ 'f' then some (c.toNat - 87)
  else if 'A' ≤ c ∧ c ≤ 'F' then some (c.toNat - 55)
  else none

/-- The two digits of a byte. -/
def pair (b : UInt8) : List Char := [digit (b.toNat / 16), digit (b.toNat % 16)]

/-- Bytes as text. -/
def encode (bytes : Bytes) : List Char := bytes.flatMap pair

/-- Text as bytes, if it has that form. -/
def decode : List Char → Option Bytes
  | [] => some []
  | [_] => none
  | hi :: lo :: rest => do
    let high ← value? hi
    let low ← value? lo
    let bytes ← decode rest
    return UInt8.ofNat (16 * high + low) :: bytes

/-- Bytes as a string. -/
def text (bytes : Bytes) : String := String.ofList (encode bytes)

/-- The four digits of a word of two bytes. -/
def word (w : UInt16) : String :=
  text [UInt8.ofNat (w.toNat / 256), UInt8.ofNat (w.toNat % 256)]

/-- The sixteen digits of a word of eight bytes, high byte first. -/
def longWord (w : UInt64) : String :=
  text ((List.range 8).reverse.map fun i => UInt8.ofNat (w.toNat / Nat.pow 256 i % 256))

theorem value?_digit : ∀ n < 16, value? (digit n) = some n := by decide

theorem decode_pair (b : UInt8) (rest : List Char) :
    decode (pair b ++ rest) = (decode rest).map (b :: ·) := by
  have hb : b.toNat < 256 := b.toNat_lt
  have split : UInt8.ofNat (16 * (b.toNat / 16) + b.toNat % 16) = b := by
    rw [Nat.div_add_mod]; exact UInt8.ofNat_toNat
  simp only [pair, List.cons_append, List.nil_append, decode,
    value?_digit _ (by omega : b.toNat / 16 < 16), value?_digit _ (by omega : b.toNat % 16 < 16),
    split, Option.bind_eq_bind, Option.bind_some]
  cases decode rest <;> rfl

/-- What is written reads back. -/
theorem decode_encode (bytes : Bytes) : decode (encode bytes) = some bytes := by
  induction bytes with
  | nil => rfl
  | cons b bytes ih =>
    show decode (pair b ++ encode bytes) = _
    rw [decode_pair, ih]
    rfl

end ShardIndex.Text.Hex
