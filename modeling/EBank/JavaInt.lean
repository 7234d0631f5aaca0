import Mathlib.Data.Int.Basic
import Mathlib.Tactic.Linarith

namespace EBank.JavaInt

def IsInt (x : ℤ) : Prop := -2 ^ 31 ≤ x ∧ x < 2 ^ 31

instance (x : ℤ) : Decidable (IsInt x) := inferInstanceAs (Decidable (_ ∧ _))

/-- The narrowing `(int) x`, which is also the wrap of an `int` sum: the low 32 bits, signed. -/
def narrow (x : ℤ) : ℤ := (x + 2 ^ 31) % 2 ^ 32 - 2 ^ 31

theorem narrow_isInt (x : ℤ) : IsInt (narrow x) := by
  simp only [IsInt, narrow]
  omega

theorem narrow_of_isInt {x : ℤ} (h : IsInt x) : narrow x = x := by
  simp only [IsInt] at h
  simp only [narrow]
  omega

theorem narrow_eq_iff {x n : ℤ} (hn : 0 ≤ n) (hn' : n < 2 ^ 31) : narrow x = n ↔ x % 2 ^ 32 = n := by
  simp only [narrow]
  omega

theorem narrow_neg_of_overflow {x : ℤ} (h : 2 ^ 31 ≤ x) (h' : x < 2 ^ 32) : narrow x < 0 := by
  simp only [narrow]
  omega

end EBank.JavaInt
