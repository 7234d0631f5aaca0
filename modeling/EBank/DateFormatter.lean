import EBank.Models

/-!
`AccountController.DATE_FORMATTER`: the pattern `yyyy-MM` with the day of month defaulted to 1,
as `LocalDate.parse` applies it (strict fields, smart resolution).
-/

namespace EBank.DateFormatter

def digit (c : Char) : Option ℕ := if '0' ≤ c ∧ c ≤ '9' then some (c.toNat - 48) else none

def digits : ℕ → List Char → List ℕ × List Char
  | 0, cs => ([], cs)
  | _ + 1, [] => ([], [])
  | n + 1, c :: cs =>
    match digit c with
    | some d => (d :: (digits n cs).1, (digits n cs).2)
    | none => ([], c :: cs)

def number (ds : List ℕ) : ℕ := ds.foldl (fun n d => 10 * n + d) 0

-- `yyyy` is a year of era of 4 to 19 digits that exceeds its pad only with a plus sign
def parseYear : List Char → Option (ℤ × List Char)
  | '+' :: cs =>
    if 4 < (digits 19 cs).1.length then some (number (digits 19 cs).1, (digits 19 cs).2) else none
  | '-' :: cs =>
    if 4 ≤ (digits 19 cs).1.length ∧ number (digits 19 cs).1 ≠ 0 then
      some (-(number (digits 19 cs).1 : ℤ), (digits 19 cs).2)
    else none
  | cs =>
    if (digits 19 cs).1.length = 4 then some (number (digits 19 cs).1, (digits 19 cs).2) else none

def resolve (yearOfEra : ℤ) (month : ℕ) : Except JavaException LocalDate :=
  if h : (1 ≤ yearOfEra ∧ yearOfEra ≤ 999999999) ∧ 1 ≤ month ∧ month ≤ 12 then
    .ok (LocalDate.ofYearMonth yearOfEra month h.2)
  else .error .dateTimeParse

def parse (text : String) : Except JavaException LocalDate :=
  match parseYear text.toList with
  | some (yearOfEra, '-' :: cs) =>
    match digits 2 cs with
    | ([m, m'], []) => resolve yearOfEra (number [m, m'])
    | _ => .error .dateTimeParse
  | _ => .error .dateTimeParse

theorem resolve_ok {y : ℤ} {m : ℕ} {d : LocalDate} (h : resolve y m = .ok d) :
    d.day = 1 ∧ 1 ≤ d.year ∧ d.year ≤ 999999999 := by
  unfold resolve at h
  split_ifs at h with hv
  simp only [Except.ok.injEq] at h
  subst h
  exact ⟨rfl, hv.1.1, hv.1.2⟩

theorem resolve_error {y : ℤ} {m : ℕ} {e : JavaException} (h : resolve y m = .error e) :
    e = .dateTimeParse := by
  unfold resolve at h
  split_ifs at h
  simpa using h.symm

theorem parse_ok {text : String} {d : LocalDate} (h : parse text = .ok d) :
    d.day = 1 ∧ 1 ≤ d.year ∧ d.year ≤ 999999999 := by
  unfold parse at h
  split at h
  · split at h
    · exact resolve_ok h
    · simp at h
  · simp at h

theorem parse_error {text : String} {e : JavaException} (h : parse text = .error e) : e = .dateTimeParse := by
  unfold parse at h
  split at h
  · split at h
    · exact resolve_error h
    · simpa using h.symm
  · simpa using h.symm

example : parse "2019-21" = .error .dateTimeParse := by decide

end EBank.DateFormatter
