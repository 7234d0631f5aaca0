import Mathlib.Data.Prod.Lex
import Mathlib.Order.Cover
import Mathlib.Tactic.Linarith

namespace EBank

def isLeapYear (year : ℤ) : Bool := year % 4 = 0 && (year % 100 ≠ 0 || year % 400 = 0)

def lengthOfMonth (year : ℤ) (month : ℕ) : ℕ :=
  if month = 2 then (if isLeapYear year then 29 else 28)
  else if month = 4 ∨ month = 6 ∨ month = 9 ∨ month = 11 then 30
  else 31

@[ext]
structure LocalDate where
  year : ℤ
  month : ℕ
  day : ℕ
  month_valid : 1 ≤ month ∧ month ≤ 12
  day_valid : 1 ≤ day ∧ day ≤ lengthOfMonth year month
  deriving DecidableEq, Repr

namespace LocalDate

theorem lengthOfMonth_pos (year : ℤ) (month : ℕ) : 1 ≤ EBank.lengthOfMonth year month := by
  unfold EBank.lengthOfMonth
  split_ifs <;> omega

def lengthOfMonth (d : LocalDate) : ℕ := EBank.lengthOfMonth d.year d.month

def ofYearMonth (year : ℤ) (month : ℕ) (h : 1 ≤ month ∧ month ≤ 12) : LocalDate :=
  ⟨year, month, 1, h, le_rfl, lengthOfMonth_pos year month⟩

def withDayOfMonth (d : LocalDate) (day : ℕ) (h : 1 ≤ day ∧ day ≤ d.lengthOfMonth) : LocalDate :=
  { d with day := day, day_valid := h }

def firstDay (d : LocalDate) : LocalDate := d.withDayOfMonth 1 ⟨le_rfl, lengthOfMonth_pos _ _⟩

def lastDay (d : LocalDate) : LocalDate :=
  d.withDayOfMonth d.lengthOfMonth ⟨lengthOfMonth_pos _ _, le_rfl⟩

instance : LinearOrder LocalDate :=
  LinearOrder.lift' (fun d => toLex (d.year, toLex (d.month, d.day))) (by
    intro d e h
    have h' := toLex_inj.mp h
    simp only [Prod.mk.injEq, toLex_inj] at h'
    exact LocalDate.ext h'.1 h'.2.1 h'.2.2)

theorem le_iff (d e : LocalDate) :
    d ≤ e ↔ d.year < e.year ∨ d.year = e.year ∧ (d.month < e.month ∨ d.month = e.month ∧ d.day ≤ e.day) := by
  change toLex (d.year, toLex (d.month, d.day)) ≤ toLex (e.year, toLex (e.month, e.day)) ↔ _
  simp only [Prod.Lex.toLex_le_toLex]

def SameMonth (d e : LocalDate) : Prop := d.year = e.year ∧ d.month = e.month

instance (d e : LocalDate) : Decidable (SameMonth d e) := inferInstanceAs (Decidable (_ ∧ _))

theorem between_iff_sameMonth (d e : LocalDate) :
    d.firstDay ≤ e ∧ e ≤ d.lastDay ↔ SameMonth e d := by
  have he := e.day_valid
  simp only [le_iff, firstDay, lastDay, withDayOfMonth, lengthOfMonth, SameMonth]
  constructor
  · rintro ⟨hlo, hhi⟩
    omega
  · rintro ⟨hy, hm⟩
    rw [hy, hm] at he
    omega

theorem SameMonth.symm {d e : LocalDate} (h : SameMonth d e) : SameMonth e d := ⟨h.1.symm, h.2.symm⟩

theorem SameMonth.trans {d e f : LocalDate} (h : SameMonth d e) (h' : SameMonth e f) : SameMonth d f :=
  ⟨h.1.trans h'.1, h.2.trans h'.2⟩

theorem firstDay_sameMonth (d : LocalDate) : SameMonth d.firstDay d := ⟨rfl, rfl⟩

theorem firstDay_congr {d e : LocalDate} (h : SameMonth d e) : d.firstDay = e.firstDay :=
  LocalDate.ext h.1 h.2 rfl

theorem lastDay_congr {d e : LocalDate} (h : SameMonth d e) : d.lastDay = e.lastDay := by
  refine LocalDate.ext h.1 h.2 ?_
  simp only [lastDay, withDayOfMonth, lengthOfMonth, h.1, h.2]

theorem succ_month_valid {month : ℕ} (h : 1 ≤ month ∧ month ≤ 12) (hne : month ≠ 12) :
    1 ≤ month + 1 ∧ month + 1 ≤ 12 := by omega

def nextMonth (d : LocalDate) : LocalDate :=
  if h : d.month = 12 then ofYearMonth (d.year + 1) 1 ⟨le_rfl, Nat.le_add_left _ _⟩
  else ofYearMonth d.year (d.month + 1) (succ_month_valid d.month_valid h)

theorem lastDay_covBy_nextMonth (d : LocalDate) : d.lastDay ⋖ d.nextMonth.firstDay := by
  have hd := d.month_valid
  constructor
  · rw [← not_le, le_iff]
    unfold nextMonth
    split_ifs <;> simp only [firstDay, lastDay, withDayOfMonth, ofYearMonth] <;> omega
  · intro e hlo hhi
    have hday := e.day_valid
    have hmonth := e.month_valid
    rw [← not_le, le_iff] at hlo hhi
    -- a date of the same month after its last day, or one of the next month before the first
    by_cases hsame : e.year = d.year ∧ e.month = d.month
    · rw [hsame.1, hsame.2] at hday
      simp only [lastDay, withDayOfMonth, lengthOfMonth] at hlo
      omega
    · unfold nextMonth at hhi
      split_ifs at hhi <;> simp only [firstDay, lastDay, withDayOfMonth, ofYearMonth] at hlo hhi <;> omega

def january : LocalDate := ofYearMonth 2019 1 (by decide)

end LocalDate

end EBank
