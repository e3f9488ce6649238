import Mathlib

namespace Library

/-! Sums and differences of machine integers as those of their values, where these fit. -/

/-- The conversion of a fraction whose whole part a machine integer can hold. -/
def truncate (x : ℚ) : Int32 := Int32.ofInt (x.num.tdiv x.den)

variable {a b : Int32}

theorem toInt_sub_of_nonneg (ha : 0 ≤ a.toInt) (hb : 0 ≤ b.toInt) :
    (a - b).toInt = a.toInt - b.toInt := by
  have hlt := a.toInt_lt
  have hle := b.toInt_lt
  rw [Int32.toInt_sub, Int.bmod_eq_of_le]
  · omega
  · omega

theorem toInt_add_of_lt (ha : 0 ≤ a.toInt) (h : a.toInt + b.toInt < 2 ^ 31) :
    (a + b).toInt = a.toInt + b.toInt := by
  have hle := b.le_toInt
  rw [Int32.toInt_add, Int.bmod_eq_of_le]
  · omega
  · omega

theorem toInt_add_overflow (h : 2 ^ 31 ≤ a.toInt + b.toInt) : (a + b).toInt < 0 := by
  have ha := a.toInt_lt
  have hb := b.toInt_lt
  rw [Int32.toInt_add, Int.bmod_def]
  split_ifs <;> omega

theorem toInt_add_pos_iff (ha : 0 ≤ a.toInt) :
    0 < (a + b).toInt ↔ 0 < a.toInt + b.toInt ∧ a.toInt + b.toInt < 2 ^ 31 := by
  obtain hlt | hover := Int.lt_or_le (a.toInt + b.toInt) (2 ^ 31)
  · rw [toInt_add_of_lt ha hlt, and_iff_left hlt]
  · have hnegative := toInt_add_overflow hover
    omega

end Library
