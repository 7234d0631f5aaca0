import Mathlib.Data.List.Basic
import Mathlib.Data.Int.Basic

namespace EBank.Decimal

def read (cs : List Char) : Option ℕ :=
  if cs ≠ [] ∧ cs.all Char.isDigit then some (Nat.ofDigitChars 10 cs 0) else none

theorem toDigits_injective : Function.Injective (Nat.toDigits 10) := by
  intro m n h
  rw [← Nat.ofDigitChars_ten_toDigits (n := m), h, Nat.ofDigitChars_ten_toDigits]

theorem toDigits_ne_nil (n : ℕ) : Nat.toDigits 10 n ≠ [] := by
  rw [← Nat.toList_repr]
  intro h
  exact Nat.repr_ne_empty (String.toList_eq_nil_iff.mp h)

theorem isDigit_toDigits {n : ℕ} {c : Char} (h : c ∈ Nat.toDigits 10 n) : c.isDigit = true :=
  Nat.isDigit_of_mem_toDigits (by decide) (by decide) h

theorem separator_notMem {c : Char} (hc : c.isDigit = false) (n : ℕ) : c ∉ Nat.toDigits 10 n := by
  intro h
  rw [isDigit_toDigits h] at hc
  cases hc

theorem read_toDigits (n : ℕ) : read (Nat.toDigits 10 n) = some n := by
  rw [read, if_pos, Nat.ofDigitChars_ten_toDigits]
  refine ⟨toDigits_ne_nil n, ?_⟩
  rw [List.all_eq_true]
  intro c
  exact isDigit_toDigits

theorem toList_toString (n : ℕ) : (toString (n : ℤ)).toList = Nat.toDigits 10 n := Nat.toList_repr

theorem append_toDigits_inj {s : List Char} {m n : ℕ} (h : s ++ Nat.toDigits 10 m = s ++ Nat.toDigits 10 n) :
    m = n := toDigits_injective (List.append_cancel_left h)

theorem takeWhile_toDigits {c : Char} (hc : c.isDigit = false) (n : ℕ) (s : List Char) :
    (Nat.toDigits 10 n ++ c :: s).takeWhile Char.isDigit = Nat.toDigits 10 n := by
  rw [List.takeWhile_append_of_pos (fun _ => isDigit_toDigits), List.takeWhile_cons_of_neg, List.append_nil]
  rw [hc]
  exact Bool.false_ne_true

theorem toDigits_append_inj {c : Char} (hc : c.isDigit = false) {m n : ℕ} {s t : List Char}
    (h : Nat.toDigits 10 m ++ c :: s = Nat.toDigits 10 n ++ c :: t) : m = n ∧ s = t := by
  have hdigits : Nat.toDigits 10 m = Nat.toDigits 10 n := by
    rw [← takeWhile_toDigits hc m s, h, takeWhile_toDigits hc n t]
  rw [hdigits] at h
  exact ⟨toDigits_injective hdigits, (List.cons.inj (List.append_cancel_left h)).2⟩

end EBank.Decimal
