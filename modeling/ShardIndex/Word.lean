/-!
# Arithmetic at the ends of the range

Hours and times are signed words of 64 bits, counts are unsigned ones.  A sum or a product that does
not fit stops at the end of the range instead of starting over at the other end.  The distance of
two signed words always fits an unsigned one, though the difference may not fit a signed one.
-/

namespace ShardIndex.Word

/-- How far two signed words are apart.  Read as unsigned words, the smaller is taken from the
greater, and the difference may start over. -/
def distance (a b : Int64) : UInt64 :=
  if a < b then b.toUInt64 - a.toUInt64 else a.toUInt64 - b.toUInt64

/-- The sum of two unsigned words, or the greatest word if it does not fit. -/
def addUpTo (a b : UInt64) : UInt64 :=
  if a.toBitVec.uaddOverflow b.toBitVec then 18446744073709551615 else a + b

/-- The product of two signed words, or the outermost word of its sign if it does not fit. -/
def mulWithin (a b : Int64) : Int64 :=
  if a.toBitVec.smulOverflow b.toBitVec then
    if decide (a < 0) = decide (b < 0) then Int64.maxValue else Int64.minValue
  else a * b

/-- A signed word read as an unsigned one is the same, or greater by the whole range. -/
theorem toNat_toUInt64 (a : Int64) :
    (a.toUInt64.toNat : Int) = if a.toInt < 0 then a.toInt + 18446744073709551616 else a.toInt := by
  have bound := a.toUInt64.toNat_lt
  have value := a.toBitVec.toInt_eq_toNat_cond
  rw [Int64.toInt_toBitVec, Int64.toNat_toBitVec] at value
  split at value <;> split <;> omega

theorem toNat_distance (a b : Int64) : (distance a b).toNat = (a.toInt - b.toInt).natAbs := by
  have ha := toNat_toUInt64 a
  have hb := toNat_toUInt64 b
  have hlow := a.le_toInt
  have hhigh := a.toInt_lt
  have hlow' := b.le_toInt
  have hhigh' := b.toInt_lt
  unfold distance
  split
  all_goals
    rename_i h
    rw [Int64.lt_iff_toInt_lt] at h
    rw [UInt64.toNat_sub]
    split at ha <;> split at hb <;> omega

theorem toNat_addUpTo (a b : UInt64) :
    (addUpTo a b).toNat = min (a.toNat + b.toNat) 18446744073709551615 := by
  unfold addUpTo BitVec.uaddOverflow
  rw [UInt64.toNat_toBitVec, UInt64.toNat_toBitVec]
  split
  · rename_i h
    rw [decide_eq_true_eq] at h
    have greatest : (18446744073709551615 : UInt64).toNat = 18446744073709551615 := rfl
    omega
  · rename_i h
    rw [decide_eq_true_eq] at h
    rw [UInt64.toNat_add]
    omega

/-- Factors of one sign have no negative product. -/
theorem mul_nonneg_of_signs {a b : Int} (h : a < 0 ↔ b < 0) : 0 ≤ a * b := by
  by_cases ha : a < 0
  · exact Int.mul_nonneg_of_nonpos_of_nonpos (Int.le_of_lt ha) (Int.le_of_lt (h.1 ha))
  · exact Int.mul_nonneg (Int.not_lt.1 ha) (Int.not_lt.1 (mt h.2 ha))

/-- Factors of different signs have no positive product. -/
theorem mul_nonpos_of_signs {a b : Int} (h : ¬ (a < 0 ↔ b < 0)) : a * b ≤ 0 := by
  by_cases ha : a < 0
  · have hb : 0 ≤ b := by omega
    exact Int.mul_nonpos_of_nonpos_of_nonneg (Int.le_of_lt ha) hb
  · have hb : b < 0 := by omega
    exact Int.mul_nonpos_of_nonneg_of_nonpos (Int.not_lt.1 ha) (Int.le_of_lt hb)

theorem toInt_mulWithin (a b : Int64) :
    (mulWithin a b).toInt =
      max (-9223372036854775808) (min (a.toInt * b.toInt) 9223372036854775807) := by
  unfold mulWithin
  split
  · rename_i h
    simp only [BitVec.smulOverflow, Int64.toInt_toBitVec, Bool.or_eq_true, decide_eq_true_eq] at h
    have signs : decide (a < 0) = decide (b < 0) ↔ (a.toInt < 0 ↔ b.toInt < 0) := by
      rw [decide_eq_decide, Int64.lt_iff_toInt_lt, Int64.lt_iff_toInt_lt, Int64.toInt_zero]
    split
    · rename_i hsigns
      have := mul_nonneg_of_signs (signs.1 hsigns)
      rw [Int64.toInt_maxValue]
      omega
    · rename_i hsigns
      have := mul_nonpos_of_signs (mt signs.2 hsigns)
      rw [Int64.toInt_minValue]
      omega
  · rename_i h
    have fits := h
    simp only [BitVec.smulOverflow, Int64.toInt_toBitVec, Bool.or_eq_true, decide_eq_true_eq]
      at fits
    have product := BitVec.toInt_mul_of_not_smulOverflow h
    rw [← Int64.toBitVec_mul, Int64.toInt_toBitVec, Int64.toInt_toBitVec, Int64.toInt_toBitVec]
      at product
    omega

end ShardIndex.Word
