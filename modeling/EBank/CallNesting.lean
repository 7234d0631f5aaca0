import EBank.BFLoggerInstance

namespace EBank.Call

open BFLoggerInstance JavaInt

/-- The calls that move no level: an error or environment message other than `END` is one. -/
def Plain (c : Call) : Prop := c.opens = false ∧ c.closes = false

inductive Nested where
  | nil
  | call (c : Call) (plain : c.Plain) (rest : Nested)
  | pair (functionName : String) (body rest : Nested)

namespace Nested

def calls : Nested → List Call
  | nil => []
  | call c _ rest => c :: rest.calls
  | pair functionName body rest =>
    .logFunctionBegin functionName :: (body.calls ++ .logFunctionEnd :: rest.calls)

end Nested

def indented (name : String) (level : ℕ) (message : String) : LogLine :=
  ⟨.debug, "[" ++ name ++ "] " ++ (blanks level ++ message)⟩

def plainLine (name : String) (level : ℕ) : Call → Option LogLine
  | .logInfo message => some ⟨.info, "[" ++ name ++ "] " ++ message⟩
  | .logWarn message => some ⟨.warn, "[" ++ name ++ "] " ++ message⟩
  | .logEnv message => some ⟨.environment, message⟩
  | .logError message => some ⟨.error, "[" ++ name ++ "] " ++ message⟩
  | .logDebug message => some (indented name level message)
  | .logAnalytics message => some (indented name level message)
  | .logFunctionBegin _ => none
  | .logFunctionEnd => none

def indents : Call → Bool
  | .logDebug _ => true
  | .logAnalytics _ => true
  | _ => false

namespace Nested

def mirror (name : String) (level : ℕ) : Nested → List LogLine
  | nil => []
  | call c _ rest => (plainLine name level c).toList ++ rest.mirror name level
  | pair functionName body rest =>
    indented name level (FBEGIN ++ functionName) ::
      (body.mirror name (level + 1) ++ indented name level FEND :: rest.mirror name level)

def Fits (level : ℕ) : Nested → Prop
  | nil => True
  | call c _ rest => (c.indents → level < 2 ^ 31) ∧ rest.Fits level
  | pair _ body rest => level < 2 ^ 31 ∧ body.Fits (level + 1) ∧ rest.Fits level

end Nested

structure Prints (s s' : BFLoggerInstance) (lines : List LogLine) : Prop where
  logLevel : s'.logLevel = s.logLevel
  name : s'.name = s.name
  printed : s'.printed = s.printed ++ lines

theorem Prints.trans {s s' s'' : BFLoggerInstance} {lines lines' : List LogLine} (h : Prints s s' lines)
    (h' : Prints s' s'' lines') : Prints s s'' (lines ++ lines') := by
  refine ⟨h'.logLevel.trans h.logLevel, h'.name.trans h.name, ?_⟩
  rw [h'.printed, h.printed, List.append_assoc]

theorem performAll_append (cs ds : List Call) :
    performAll (cs ++ ds) = (do
      performAll cs
      performAll ds) := by
  induction cs with
  | nil => rfl
  | cons c cs ih => rw [List.cons_append, performAll, ih, performAll, bind_assoc]

theorem narrow_natCast {level : ℕ} (h : level < 2 ^ 31) : narrow level = level :=
  narrow_of_isInt ⟨by omega, by omega⟩

section
variable {level : ℕ} {s : BFLoggerInstance} (hlevel : s.logLevel = narrow level) (hle : level ≤ 2 ^ 31)
include hlevel

theorem logDebug_prints (h : level < 2 ^ 31) (message : String) :
    BFLoggerInstance.logDebug message s = .ok () (s.print .debug (indented s.name level message).message) := by
  rw [narrow_natCast h] at hlevel
  rw [logDebug_of_nonneg s message (by omega), hlevel, Int.toNat_natCast]
  rfl

include hle

theorem logDebug_raises (h : ¬ level < 2 ^ 31) (message : String) :
    BFLoggerInstance.logDebug message s = .error ⟨⟩ s := by
  apply logDebug_of_neg
  rw [hlevel]
  exact narrow_neg_of_overflow (by omega) (by omega)

theorem logDebug_cases (message : String) :
    (level < 2 ^ 31 ∧ ∃ s', BFLoggerInstance.logDebug message s = .ok () s' ∧
      Prints s s' [indented s.name level message]) ∨
    ¬ level < 2 ^ 31 ∧ ∃ e s', BFLoggerInstance.logDebug message s = .error e s' := by
  by_cases h : level < 2 ^ 31
  · exact .inl ⟨h, _, logDebug_prints hlevel h message, rfl, rfl, rfl⟩
  · exact .inr ⟨h, _, _, logDebug_raises hlevel hle h message⟩

theorem plain_perform {c : Call} (hc : c.Plain) :
    ((c.indents → level < 2 ^ 31) ∧ ∃ s', c.perform s = .ok () s' ∧
      Prints s s' (plainLine s.name level c).toList) ∨
    ¬ (c.indents → level < 2 ^ 31) ∧ ∃ e s', c.perform s = .error e s' := by
  cases c with
  | logInfo message => exact .inl ⟨fun h => absurd h Bool.false_ne_true, _, logInfo_eq s message, rfl, rfl, rfl⟩
  | logWarn message => exact .inl ⟨fun h => absurd h Bool.false_ne_true, _, logWarn_eq s message, rfl, rfl, rfl⟩
  | logEnv message =>
    have hne : message ≠ FEND := by simpa [closes] using hc.2
    refine .inl ⟨fun h => absurd h Bool.false_ne_true, _, logEnv_eq s message, ?_⟩
    rw [if_neg hne]
    exact ⟨rfl, rfl, rfl⟩
  | logError message =>
    have hne : message ≠ FEND := by simpa [closes] using hc.2
    refine .inl ⟨fun h => absurd h Bool.false_ne_true, _, logError_eq s message, ?_⟩
    rw [if_neg hne]
    exact ⟨rfl, rfl, rfl⟩
  | logDebug message =>
    rw [imp_iff_right (show (indents (.logDebug message)) = true from rfl)]
    exact logDebug_cases hlevel hle message
  | logAnalytics message =>
    rw [imp_iff_right (show (indents (.logAnalytics message)) = true from rfl), perform,
      logAnalytics_eq_logDebug]
    exact logDebug_cases hlevel hle message
  | logFunctionBegin functionName => exact absurd hc.1.symm Bool.false_ne_true
  | logFunctionEnd => exact absurd hc.2.symm Bool.false_ne_true

end

theorem begin_perform {level : ℕ} (h : level < 2 ^ 31) {s : BFLoggerInstance}
    (hlevel : s.logLevel = narrow level) (functionName : String) :
    ∃ s', perform (.logFunctionBegin functionName) s = .ok () s' ∧ s'.logLevel = narrow (level + 1 : ℕ) ∧
      s'.name = s.name ∧ s'.printed = s.printed ++ [indented s.name level (FBEGIN ++ functionName)] := by
  refine ⟨_, Procedure.bind_of_ok (logDebug_prints hlevel h (FBEGIN ++ functionName)), ?_, rfl, rfl⟩
  rw [narrow_natCast h] at hlevel
  rw [setLogLevel_logLevel, print_logLevel, hlevel]
  rfl

theorem end_perform {level : ℕ} (h : level < 2 ^ 31) {s : BFLoggerInstance}
    (hlevel : s.logLevel = narrow (level + 1 : ℕ)) :
    ∃ s', perform .logFunctionEnd s = .ok () s' ∧ s'.logLevel = narrow level ∧ s'.name = s.name ∧
      s'.printed = s.printed ++ [indented s.name level FEND] := by
  have hback : (s.setLogLevel (s.logLevel - 1)).logLevel = narrow level := by
    rw [setLogLevel_logLevel, hlevel]
    simp only [narrow]
    omega
  exact ⟨_, logDebug_prints hback h FEND, hback, rfl, rfl⟩

namespace Nested

theorem performAll_cases (n : Nested) {level : ℕ} (hle : level ≤ 2 ^ 31) {s : BFLoggerInstance}
    (hlevel : s.logLevel = narrow level) :
    (n.Fits level ∧ ∃ s', performAll n.calls s = .ok () s' ∧ Prints s s' (n.mirror s.name level)) ∨
    ¬ n.Fits level ∧ ∃ e s', performAll n.calls s = .error e s' := by
  induction n generalizing level s with
  | nil => exact .inl ⟨trivial, s, rfl, rfl, rfl, (List.append_nil _).symm⟩
  | call c plain rest ih =>
    rcases plain_perform hlevel hle plain with ⟨hfits, s', hperform, hprints⟩ | ⟨hnot, e, s', hperform⟩
    · have hlevel' : s'.logLevel = narrow level := hprints.logLevel.trans hlevel
      rcases ih hle hlevel' with ⟨hrest, s'', hperform', hprints'⟩ | ⟨hnot, hraised⟩
      · rw [hprints.name] at hprints'
        exact .inl ⟨⟨hfits, hrest⟩, s'', (performAll_cons_of_ok hperform _).trans hperform',
          hprints.trans hprints'⟩
      · refine .inr ⟨fun h => hnot h.2, ?_⟩
        rwa [calls, performAll_cons_of_ok hperform]
    · exact .inr ⟨fun h => hnot h.1, e, s', performAll_cons_of_error hperform _⟩
  | pair functionName body rest ihbody ihrest =>
    by_cases h : level < 2 ^ 31
    · obtain ⟨s₁, hbegin, hlevel₁, hname₁, hprinted₁⟩ := begin_perform h hlevel functionName
      rw [calls, performAll_cons_of_ok hbegin]
      rcases ihbody (show level + 1 ≤ 2 ^ 31 by omega) hlevel₁ with
        ⟨hbody, s₂, hperform₂, hprints₂⟩ | ⟨hnot, e, s₂, hperform₂⟩
      · rw [performAll_append, Procedure.bind_of_ok hperform₂]
        obtain ⟨s₃, hend, hlevel₃, hname₃, hprinted₃⟩ := end_perform h (hprints₂.logLevel.trans hlevel₁)
        rw [performAll_cons_of_ok hend]
        rcases ihrest hle hlevel₃ with ⟨hrest, s₄, hperform₄, hprints₄⟩ | ⟨hnot, hraised⟩
        · refine .inl ⟨⟨h, hbody, hrest⟩, s₄, hperform₄, ?_, ?_, ?_⟩
          · rw [hprints₄.logLevel, hlevel₃, hlevel]
          · rw [hprints₄.name, hname₃, hprints₂.name, hname₁]
          · rw [hprints₄.printed, hprinted₃, hname₃, hprints₂.printed, hprints₂.name, hprinted₁, hname₁]
            simp only [mirror, List.append_assoc, List.cons_append, List.nil_append]
        · exact .inr ⟨fun hfits => hnot hfits.2.2, hraised⟩
      · refine .inr ⟨fun hfits => hnot hfits.2.1, e, s₂, ?_⟩
        rw [performAll_append]
        exact Procedure.bind_of_error hperform₂
    · refine .inr ⟨fun hfits => h hfits.1, ⟨⟩, s, ?_⟩
      apply performAll_cons_of_error
      exact Procedure.bind_of_error (logDebug_raises hlevel hle h _)

/-- Well-nested calls mirror their nesting and leave the level as it was exactly when every line
they indent is less than `2 ^ 31` deep; else one of them raises. -/
theorem mirrors_iff (n : Nested) (s : BFLoggerInstance) (hs : 0 ≤ s.logLevel) :
    (∃ s', performAll n.calls s = .ok () s' ∧ s'.logLevel = s.logLevel ∧
      s'.printed = s.printed ++ n.mirror s.name s.logLevel.toNat) ↔ n.Fits s.logLevel.toNat := by
  have hlevel : s.logLevel = narrow s.logLevel.toNat := by
    rw [Int.toNat_of_nonneg hs]
    exact (narrow_of_isInt s.logLevel_isInt).symm
  have hint := s.logLevel_isInt.2
  rcases n.performAll_cases (show s.logLevel.toNat ≤ 2 ^ 31 by omega) hlevel with
    ⟨hfits, s', hperform, hprints⟩ | ⟨hnot, e, s', hperform⟩
  · exact iff_of_true ⟨s', hperform, hprints.logLevel, hprints.printed⟩ hfits
  · apply iff_of_false _ hnot
    rintro ⟨t, ht, -⟩
    rw [hperform] at ht
    cases ht

def debugInFunction : Nested := .pair "f" (.call (.logDebug "m") ⟨rfl, rfl⟩ .nil) .nil

theorem debugInFunction_mirrors : ∃ s', performAll debugInFunction.calls (fresh "main") = .ok () s' ∧
    s'.logLevel = 0 ∧ s'.printed = [indented "main" 0 "Function: f", indented "main" 1 "m", indented "main" 0 "END"] :=
  (mirrors_iff debugInFunction (fresh "main") le_rfl).mpr
    ⟨by decide, ⟨fun _ => by decide, trivial⟩, trivial⟩

theorem maxLevel_isInt : IsInt 2147483647 := by decide

theorem deepest_function_raises :
    ∃ e s', performAll debugInFunction.calls ⟨"main", none, [], 2147483647, maxLevel_isInt⟩ = .error e s' := by
  have hlevel : (2147483647 : ℤ) = narrow (2147483647 : ℕ) := (narrow_natCast (by decide)).symm
  rcases @performAll_cases debugInFunction 2147483647 (by decide)
    ⟨"main", none, [], 2147483647, maxLevel_isInt⟩ hlevel with ⟨hfits, -⟩ | ⟨-, hraised⟩
  · exact absurd (hfits.2.1.1 rfl) (by decide)
  · exact hraised

end Nested

end EBank.Call
