import EBank.DateFormatter
import Mathlib.Data.List.Induction
import Mathlib.Data.List.Basic

namespace EBank.DateFormatter

def IsDigits (cs : List Char) : Prop := ∀ c ∈ cs, '0' ≤ c ∧ c ≤ '9'

def digitValue (c : Char) : ℕ := c.toNat - 48

def value (cs : List Char) : ℕ := number (cs.map digitValue)

inductive YearText : List Char → ℕ → Prop
  | plain {ds : List Char} (four : ds.length = 4) (isDigits : IsDigits ds) : YearText ds (value ds)
  | signed {ds : List Char} (more : 4 < ds.length) (most : ds.length ≤ 19) (isDigits : IsDigits ds) :
      YearText ('+' :: ds) (value ds)

def Denotes (text : String) (d : LocalDate) : Prop :=
  ∃ ys ms year, text.toList = ys ++ '-' :: ms ∧ YearText ys year ∧ ms.length = 2 ∧ IsDigits ms ∧
    d.year = year ∧ d.month = value ms ∧ d.day = 1 ∧ 1 ≤ d.year ∧ d.year ≤ 999999999

theorem digit_eq_some_iff {c : Char} {n : ℕ} :
    digit c = some n ↔ ('0' ≤ c ∧ c ≤ '9') ∧ digitValue c = n := by
  unfold digit digitValue
  split_ifs with h <;> simp [h]

theorem digit_eq_none_iff {c : Char} : digit c = none ↔ ¬ ('0' ≤ c ∧ c ≤ '9') := by
  unfold digit
  split_ifs with h <;> simp [h]

theorem digits_spec (n : ℕ) (cs : List Char) :
    ∃ ds rest, cs = ds ++ rest ∧ IsDigits ds ∧ ds.length ≤ n ∧ digits n cs = (ds.map digitValue, rest) := by
  induction n generalizing cs with
  | zero => exact ⟨[], cs, rfl, by simp [IsDigits], le_rfl, rfl⟩
  | succ n ih =>
    cases cs with
    | nil => exact ⟨[], [], rfl, by simp [IsDigits], Nat.zero_le _, rfl⟩
    | cons c cs =>
      cases hc : digit c with
      | none => exact ⟨[], c :: cs, rfl, by simp [IsDigits], Nat.zero_le _, by simp [digits, hc]⟩
      | some d =>
        obtain ⟨ds, rest, hsplit, hdigits, hlength, hresult⟩ := ih cs
        obtain ⟨hrange, hvalue⟩ := digit_eq_some_iff.mp hc
        refine ⟨c :: ds, rest, by rw [hsplit]; rfl, ?_, by simpa using hlength, ?_⟩
        · intro x hx
          rcases List.mem_cons.mp hx with rfl | hx
          · exact hrange
          · exact hdigits x hx
        · simp [digits, hc, hresult, hvalue]

theorem digits_append {ds rest : List Char} {n : ℕ} (hdigits : IsDigits ds) (hlength : ds.length ≤ n)
    (hrest : ds.length = n ∨ ∀ c ∈ rest.head?, ¬ ('0' ≤ c ∧ c ≤ '9')) :
    digits n (ds ++ rest) = (ds.map digitValue, rest) := by
  induction ds generalizing n with
  | nil =>
    cases n with
    | zero => rfl
    | succ n =>
      cases rest with
      | nil => rfl
      | cons c rest =>
        have hc : digit c = none := by
          apply digit_eq_none_iff.mpr
          simpa using hrest
        simp [digits, hc]
  | cons c ds ih =>
    cases n with
    | zero => simp at hlength
    | succ n =>
      have hc : digit c = some (digitValue c) := digit_eq_some_iff.mpr ⟨hdigits c List.mem_cons_self, rfl⟩
      have htail := ih (fun x hx => hdigits x (List.mem_cons_of_mem _ hx)) (by simpa using hlength) (by simpa using hrest)
      simp [digits, hc, htail]

theorem parseYear_sound {cs rest : List Char} {y : ℤ} (h : parseYear cs = some (y, rest)) :
    y < 0 ∨ ∃ ys year, cs = ys ++ rest ∧ YearText ys year ∧ y = (year : ℤ) := by
  unfold parseYear at h
  split at h
  · rename_i cs
    obtain ⟨ds, rest', rfl, hdigits, hlength, hresult⟩ := digits_spec 19 cs
    rw [hresult] at h
    split_ifs at h with hmore
    obtain ⟨rfl, rfl⟩ := Prod.mk.inj (Option.some.inj h)
    right
    exact ⟨'+' :: ds, value ds, rfl, .signed (by simpa using hmore) hlength hdigits, rfl⟩
  · left
    split_ifs at h with hmore
    obtain ⟨rfl, -⟩ := Prod.mk.inj (Option.some.inj h)
    omega
  · obtain ⟨ds, rest', rfl, hdigits, hlength, hresult⟩ := digits_spec 19 cs
    rw [hresult] at h
    split_ifs at h with hfour
    obtain ⟨rfl, rfl⟩ := Prod.mk.inj (Option.some.inj h)
    right
    exact ⟨ds, value ds, rfl, .plain (by simpa using hfour) hdigits, rfl⟩

theorem head_isDigit {ds rest cs : List Char} {c : Char} (hne : ds ≠ []) (hdigits : IsDigits ds)
    (h : ds ++ rest = c :: cs) : '0' ≤ c ∧ c ≤ '9' := by
  obtain ⟨d, ds, rfl⟩ := List.exists_cons_of_ne_nil hne
  obtain ⟨rfl, -⟩ := List.cons.inj h
  exact hdigits d List.mem_cons_self

theorem parseYear_complete {ys rest : List Char} {year : ℕ} (h : YearText ys year) :
    parseYear (ys ++ '-' :: rest) = some ((year : ℤ), '-' :: rest) := by
  have hstop : ∀ c ∈ ('-' :: rest).head?, ¬ ('0' ≤ c ∧ c ≤ '9') := by
    rintro c hc
    obtain rfl := Option.some.inj hc
    decide
  cases h with
  | plain four isDigits =>
    have hdigits := digits_append (n := 19) isDigits (by omega) (.inr hstop)
    have hne : ys ≠ [] := by
      rintro rfl
      simp at four
    unfold parseYear
    split
    · rename_i heq
      exact absurd (head_isDigit hne isDigits heq) (by decide)
    · rename_i heq
      exact absurd (head_isDigit hne isDigits heq) (by decide)
    · rw [hdigits, if_pos (by simpa using four)]
      rfl
  | @signed ds more most isDigits =>
    have hdigits := digits_append isDigits most (.inr hstop)
    rw [List.cons_append, parseYear, hdigits, if_pos (by simpa using more)]
    rfl

theorem resolve_eq_ok_iff {y : ℤ} {m : ℕ} {d : LocalDate} :
    resolve y m = .ok d ↔ (1 ≤ d.year ∧ d.year ≤ 999999999) ∧ d.year = y ∧ d.month = m ∧ d.day = 1 := by
  unfold resolve
  split_ifs with h
  · constructor
    · intro hd
      obtain rfl := Except.ok.inj hd
      exact ⟨h.1, rfl, rfl, rfl⟩
    · rintro ⟨-, hy, hm, hd⟩
      exact congrArg Except.ok (LocalDate.ext hy.symm hm.symm hd.symm)
  · constructor
    · intro hd
      cases hd
    · rintro ⟨hrange, rfl, rfl, -⟩
      exact absurd ⟨hrange, d.month_valid⟩ h

theorem parse_eq_ok_iff (text : String) (d : LocalDate) : parse text = .ok d ↔ Denotes text d := by
  constructor
  · intro h
    unfold parse at h
    split at h
    · rename_i y cs hyear
      split at h
      · rename_i m m' hmonth
        obtain ⟨hrange, hy, hm, hday⟩ := resolve_eq_ok_iff.mp h
        obtain ⟨ms, rest, hcs, hdigits, -, hresult⟩ := digits_spec 2 cs
        obtain ⟨hms, rfl⟩ := Prod.mk.inj (hmonth.symm.trans hresult)
        rw [List.append_nil] at hcs
        rcases parseYear_sound hyear with hneg | ⟨ys, year, htext, hyears, hyear'⟩
        · omega
        · refine ⟨ys, ms, year, hcs ▸ htext, hyears, ?_, hdigits, hy.trans hyear', ?_, hday, hrange⟩
          · simpa using (congrArg List.length hms).symm
          · rw [hm, hms, value]
      · cases h
    · cases h
  · rintro ⟨ys, ms, year, htext, hyears, htwo, hdigits, hy, hm, hday, hrange⟩
    have hmonth : digits 2 (ms ++ []) = (ms.map digitValue, []) := digits_append hdigits htwo.le (.inl htwo)
    rw [List.append_nil] at hmonth
    obtain ⟨m, m', rfl⟩ := List.length_eq_two.mp htwo
    rw [parse, htext, parseYear_complete hyears]
    simp only [hmonth, List.map_cons, List.map_nil]
    exact resolve_eq_ok_iff.mpr ⟨hrange, hy, hm, hday⟩

def padded : ℕ → ℕ → List Char
  | 0, _ => []
  | width + 1, n => padded width (n / 10) ++ [Nat.digitChar (n % 10)]

theorem digitChar_isDigit : ∀ d < 10, ('0' ≤ Nat.digitChar d ∧ Nat.digitChar d ≤ '9') ∧
    digitValue (Nat.digitChar d) = d := by decide

theorem value_append (cs : List Char) (c : Char) : value (cs ++ [c]) = 10 * value cs + digitValue c := by
  simp [value, number]

theorem padded_spec (width n : ℕ) : (padded width n).length = width ∧ IsDigits (padded width n) ∧
    (n < 10 ^ width → value (padded width n) = n) := by
  induction width generalizing n with
  | zero =>
    refine ⟨rfl, by simp [padded, IsDigits], ?_⟩
    intro h
    rw [pow_zero, Nat.lt_one_iff] at h
    subst h
    rfl
  | succ width ih =>
    obtain ⟨hlength, hdigits, hvalue⟩ := ih (n / 10)
    obtain ⟨hrange, hdigit⟩ := digitChar_isDigit (n % 10) (Nat.mod_lt _ (by omega))
    refine ⟨by simp [padded, hlength], ?_, ?_⟩
    · intro c hc
      rcases List.mem_append.mp hc with hc | hc
      · exact hdigits c hc
      · obtain rfl := List.mem_singleton.mp hc
        exact hrange
    · intro h
      have hquotient : n / 10 < 10 ^ width := by
        rw [pow_succ] at h
        omega
      rw [padded, value_append, hvalue hquotient, hdigit]
      omega

theorem digitValue_inj {c c' : Char} (hc : '0' ≤ c) (hc' : '0' ≤ c') (h : digitValue c = digitValue c') :
    c = c' := by
  have hcode : 48 ≤ c.toNat := UInt32.le_iff_toNat_le.mp hc
  have hcode' : 48 ≤ c'.toNat := UInt32.le_iff_toNat_le.mp hc'
  apply Char.toNat_inj.mp
  unfold digitValue at h
  omega

theorem digitValue_lt {c : Char} (hc : '0' ≤ c ∧ c ≤ '9') : digitValue c < 10 := by
  have hcode : c.toNat ≤ 57 := UInt32.le_iff_toNat_le.mp hc.2
  unfold digitValue
  omega

theorem value_inj {cs cs' : List Char} (hlength : cs.length = cs'.length) (hcs : IsDigits cs)
    (hcs' : IsDigits cs') (h : value cs = value cs') : cs = cs' := by
  induction cs using List.reverseRecOn generalizing cs' with
  | nil => exact (List.eq_nil_of_length_eq_zero hlength.symm).symm
  | append_singleton cs c ih =>
    rcases List.eq_nil_or_concat' cs' with rfl | ⟨cs', c', rfl⟩
    · simp at hlength
    · rw [value_append, value_append] at h
      have hc := hcs c (by simp)
      have hc' := hcs' c' (by simp)
      have hlt := digitValue_lt hc
      have hlt' := digitValue_lt hc'
      have hlast : c = c' := digitValue_inj hc.1 hc'.1 (by omega)
      have hinit : cs = cs' := by
        apply ih (by simpa using hlength) (fun x hx => hcs x (List.mem_append_left _ hx))
          (fun x hx => hcs' x (List.mem_append_left _ hx))
        omega
      rw [hlast, hinit]

theorem value_lt {cs : List Char} (hcs : IsDigits cs) : value cs < 10 ^ cs.length := by
  induction cs using List.reverseRecOn with
  | nil => simp [value, number]
  | append_singleton cs c ih =>
    have hinit := ih fun x hx => hcs x (List.mem_append_left _ hx)
    have hlast := digitValue_lt (hcs c (by simp))
    rw [value_append, List.length_append, List.length_singleton, pow_succ]
    omega

theorem padded_value {cs : List Char} (hcs : IsDigits cs) : padded cs.length (value cs) = cs := by
  obtain ⟨hlength, hdigits, hvalue⟩ := padded_spec cs.length (value cs)
  exact value_inj hlength hdigits hcs (hvalue (value_lt hcs))

def monthText (d : LocalDate) : String :=
  String.ofList (padded 4 d.year.toNat ++ '-' :: padded 2 d.month)

def signedText (d : LocalDate) : String :=
  String.ofList ('+' :: padded 9 d.year.toNat ++ '-' :: padded 2 d.month)

theorem denotes_padded {d : LocalDate} {ys : List Char} (hyears : YearText ys d.year.toNat) (hday : d.day = 1)
    (hrange : 1 ≤ d.year ∧ d.year ≤ 999999999) :
    Denotes (String.ofList (ys ++ '-' :: padded 2 d.month)) d := by
  obtain ⟨htwo, hdigits, hvalue⟩ := padded_spec 2 d.month
  have hmonth := d.month_valid
  refine ⟨ys, _, _, String.toList_ofList, hyears, htwo, hdigits, by omega, ?_, hday, hrange⟩
  exact (hvalue (by omega)).symm

theorem denotes_monthText {d : LocalDate} (hday : d.day = 1) (hrange : 1 ≤ d.year ∧ d.year ≤ 9999) :
    Denotes (monthText d) d := by
  obtain ⟨hfour, hdigits, hvalue⟩ := padded_spec 4 d.year.toNat
  have hyears := YearText.plain hfour hdigits
  rw [hvalue (by omega)] at hyears
  exact denotes_padded hyears hday ⟨hrange.1, by omega⟩

theorem denotes_signedText {d : LocalDate} (hday : d.day = 1) (hrange : 1 ≤ d.year ∧ d.year ≤ 999999999) :
    Denotes (signedText d) d := by
  obtain ⟨hnine, hdigits, hvalue⟩ := padded_spec 9 d.year.toNat
  have hyears := YearText.signed (by omega) (by omega) hdigits
  rw [hvalue (by omega)] at hyears
  exact denotes_padded hyears hday hrange

theorem unsigned_text {text : String} {d : LocalDate} (h : Denotes text d)
    (hsign : text.toList.head? ≠ some '+') : text = monthText d ∧ d.year ≤ 9999 := by
  obtain ⟨ys, ms, year, htext, hyears, htwo, hdigits, hy, hm, -, -⟩ := h
  have hmonth := padded_value hdigits
  rw [htwo, ← hm] at hmonth
  cases hyears with
  | plain four isDigits =>
    have hyear := padded_value isDigits
    have hlt := value_lt isDigits
    rw [four] at hyear hlt
    refine ⟨?_, by omega⟩
    apply String.toList_injective
    rw [monthText, String.toList_ofList, hy, Int.toNat_natCast, hyear, hmonth, htext]
  | signed more most isDigits =>
    rw [htext] at hsign
    exact absurd rfl hsign

theorem monthText_unsigned (d : LocalDate) : (monthText d).toList.head? ≠ some '+' := by
  obtain ⟨hfour, hdigits, -⟩ := padded_spec 4 d.year.toNat
  rw [monthText, String.toList_ofList]
  intro hhead
  obtain ⟨rest, hrest⟩ := List.head?_eq_some_iff.mp hhead
  have hne : padded 4 d.year.toNat ≠ [] := by
    intro hnil
    rw [hnil] at hfour
    cases hfour
  exact absurd (head_isDigit hne hdigits hrest) (by decide)

theorem texts_of_month (d : LocalDate) :
    ((∃ text, parse text = .ok d) ↔ d.day = 1 ∧ 1 ≤ d.year ∧ d.year ≤ 999999999) ∧
      ((∃! text, text.toList.head? ≠ some '+' ∧ parse text = .ok d) ↔
        d.day = 1 ∧ 1 ≤ d.year ∧ d.year ≤ 9999) := by
  simp only [parse_eq_ok_iff]
  constructor
  · constructor
    · rintro ⟨text, ys, ms, year, -, -, -, -, -, -, hday, hrange⟩
      exact ⟨hday, hrange⟩
    · rintro ⟨hday, hrange⟩
      exact ⟨signedText d, denotes_signedText hday hrange⟩
  · constructor
    · rintro ⟨text, ⟨hsign, hdenotes⟩, -⟩
      have hyear := (unsigned_text hdenotes hsign).2
      obtain ⟨ys, ms, year, -, -, -, -, -, -, hday, hrange⟩ := hdenotes
      exact ⟨hday, hrange.1, hyear⟩
    · rintro ⟨hday, hrange⟩
      refine ⟨monthText d, ⟨monthText_unsigned d, denotes_monthText hday hrange⟩, ?_⟩
      rintro text ⟨hsign, hdenotes⟩
      exact (unsigned_text hdenotes hsign).1

end EBank.DateFormatter
