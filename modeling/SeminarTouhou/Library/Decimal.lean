import Mathlib

namespace Library

/-- The decimal form of `n` with zeros behind it, up to `width` digits. -/
def padded (width n : ℕ) : List Char :=
  Nat.toDigits 10 n ++ List.replicate (width - (Nat.toDigits 10 n).length) '0'

theorem padded_length {width n : ℕ} (h : (Nat.toDigits 10 n).length ≤ width) :
    (padded width n).length = width := by
  rw [padded, List.length_append, List.length_replicate]
  omega

theorem ofDigitChars_padded (width n : ℕ) : Nat.ofDigitChars 10 (padded width n) 0 =
    10 ^ (width - (Nat.toDigits 10 n).length) * n := by
  rw [padded, Nat.ofDigitChars_append, Nat.ofDigitChars_ten_toDigits, Nat.ofDigitChars_replicate_zero]

theorem toDigits_mul_pow {n : ℕ} (hn : 0 < n) (k : ℕ) :
    Nat.toDigits 10 (n * 10 ^ k) = Nat.toDigits 10 n ++ List.replicate k '0' := by
  induction k with
  | zero => rw [Nat.pow_zero, Nat.mul_one, List.replicate_zero, List.append_nil]
  | succ k ih =>
    have hpos : 0 < n * 10 ^ k := Nat.mul_pos hn (Nat.pow_pos (by decide))
    have hsucc : n * 10 ^ (k + 1) = 10 * (n * 10 ^ k) + 0 := by ring
    rw [hsucc, ← Nat.toDigits_append_toDigits (by decide) hpos (by decide), ih, List.append_assoc,
      List.replicate_succ']
    rfl

theorem padded_mul_pow {width n k : ℕ} (h : (Nat.toDigits 10 (n * 10 ^ k)).length ≤ width) :
    padded width (n * 10 ^ k) = padded width n := by
  obtain rfl | hn := Nat.eq_zero_or_pos n
  · rw [Nat.zero_mul]
  · rw [toDigits_mul_pow hn, List.length_append, List.length_replicate] at h
    rw [padded, padded, toDigits_mul_pow hn, List.length_append, List.length_replicate,
      List.append_assoc, List.replicate_append_replicate]
    congr 2
    omega

/-- Padding on the right forgets how many zeros a number ends with, and nothing else. -/
theorem padded_inj_iff {width x y : ℕ} (hx : (Nat.toDigits 10 x).length ≤ width)
    (hy : (Nat.toDigits 10 y).length ≤ width) :
    padded width x = padded width y ↔ ∃ k, x = y * 10 ^ k ∨ y = x * 10 ^ k := by
  constructor
  · intro h
    have hvalue := congrArg (fun s => Nat.ofDigitChars 10 s 0) h
    simp only [ofDigitChars_padded] at hvalue
    generalize width - (Nat.toDigits 10 x).length = m at hvalue
    generalize width - (Nat.toDigits 10 y).length = n at hvalue
    obtain ⟨k, rfl⟩ | ⟨k, rfl⟩ := (Nat.le_total m n).imp Nat.exists_eq_add_of_le Nat.exists_eq_add_of_le
    · refine ⟨k, Or.inl ?_⟩
      rw [Nat.pow_add, Nat.mul_assoc] at hvalue
      rw [Nat.eq_of_mul_eq_mul_left (Nat.pow_pos (by decide)) hvalue, Nat.mul_comm]
    · refine ⟨k, Or.inr ?_⟩
      rw [Nat.pow_add, Nat.mul_assoc] at hvalue
      rw [← Nat.eq_of_mul_eq_mul_left (Nat.pow_pos (by decide)) hvalue, Nat.mul_comm]
  · rintro ⟨k, rfl | rfl⟩
    · exact padded_mul_pow hx
    · exact (padded_mul_pow hy).symm

end Library
