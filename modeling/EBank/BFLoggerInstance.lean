import EBank.JavaInt
import EBank.Procedure

/-!
The logger instance of a thread. What log4j receives is kept as a list of lines; its calls do not
raise, and memory is not bounded.
-/

namespace EBank

open JavaInt

structure NegativeArraySizeException where
  deriving DecidableEq, Repr

inductive Level where
  | debug
  | info
  | warn
  | error
  | environment
  deriving DecidableEq, Repr

structure LogLine where
  level : Level
  message : String
  deriving DecidableEq, Repr

structure BFLoggerInstance where
  threadName : String
  appenderName : Option String
  printed : List LogLine
  logLevel : ℤ
  logLevel_isInt : IsInt logLevel

/-- A method call on the instance: what was changed before an exception stays changed. -/
abbrev Logging := EStateM NegativeArraySizeException BFLoggerInstance

namespace BFLoggerInstance

def FBEGIN : String := "Function: "

def FEND : String := "END"

theorem zero_isInt : IsInt 0 := ⟨by decide, by decide⟩

def fresh (threadName : String) : BFLoggerInstance := ⟨threadName, none, [], 0, zero_isInt⟩

def setLogLevel (s : BFLoggerInstance) (x : ℤ) : BFLoggerInstance :=
  { s with logLevel := narrow x, logLevel_isInt := narrow_isInt x }

def getAppenderName : Logging String := do
  let s ← get
  match s.appenderName with
  | some name => return name
  | none => do
    set { s with appenderName := some s.threadName }
    return s.threadName

-- the logger is created under the appender name
def getLogger : Logging Unit := do
  let _ ← getAppenderName

def formatMessage (message : String) : Logging String := do
  let name ← getAppenderName
  return "[" ++ name ++ "] " ++ message

def log (level : Level) (message : String) : Logging Unit :=
  modify (fun s => { s with printed := s.printed ++ [⟨level, message⟩] })

def increaseLogLevel : Logging Unit := modify (fun s => s.setLogLevel (s.logLevel + 1))

def decreaseLogLevel : Logging Unit := modify (fun s => s.setLogLevel (s.logLevel - 1))

def blanks (n : ℕ) : String := String.ofList (List.replicate n ' ')

-- `new char[logLevel]` filled with blanks
def indent : Logging String := do
  let s ← get
  if s.logLevel < 0 then throw ⟨⟩ else return blanks s.logLevel.toNat

def logInfo (message : String) : Logging Unit := do
  getLogger
  log .info (← formatMessage message)

def logWarn (message : String) : Logging Unit := do
  getLogger
  log .warn (← formatMessage message)

def logEnv (message : String) : Logging Unit := do
  getLogger
  log .environment message
  if message = FEND then decreaseLogLevel

def logDebug (message : String) : Logging Unit := do
  let blanks ← indent
  getLogger
  log .debug (← formatMessage (blanks ++ message))

def logAnalytics (message : String) : Logging Unit := do
  let blanks ← indent
  getLogger
  log .debug (← formatMessage (blanks ++ message))

def logFunctionBegin (functionName : String) : Logging Unit := do
  logDebug (FBEGIN ++ functionName)
  increaseLogLevel

def logFunctionEnd : Logging Unit := do
  decreaseLogLevel
  logDebug FEND

def logError (message : String) : Logging Unit := do
  getLogger
  log .error (← formatMessage message)
  if message = FEND then decreaseLogLevel

def name (s : BFLoggerInstance) : String := s.appenderName.getD s.threadName

def print (s : BFLoggerInstance) (level : Level) (message : String) : BFLoggerInstance :=
  { s with appenderName := some s.name, printed := s.printed ++ [⟨level, message⟩] }

def format (s : BFLoggerInstance) (message : String) : String := "[" ++ s.name ++ "] " ++ message

@[simp] theorem print_logLevel (s : BFLoggerInstance) (level : Level) (message : String) :
    (s.print level message).logLevel = s.logLevel := rfl

@[simp] theorem setLogLevel_logLevel (s : BFLoggerInstance) (x : ℤ) :
    (s.setLogLevel x).logLevel = narrow x := rfl

section
variable (s : BFLoggerInstance) (message : String)

theorem logInfo_eq : logInfo message s = .ok () (s.print .info (s.format message)) := by
  obtain ⟨threadName, _ | appenderName, printed, logLevel, h⟩ := s <;> rfl

theorem logWarn_eq : logWarn message s = .ok () (s.print .warn (s.format message)) := by
  obtain ⟨threadName, _ | appenderName, printed, logLevel, h⟩ := s <;> rfl

theorem logEnv_eq : logEnv message s =
    .ok () (if message = FEND then (s.print .environment message).setLogLevel (s.logLevel - 1)
      else s.print .environment message) := by
  unfold logEnv
  split_ifs <;> obtain ⟨threadName, _ | appenderName, printed, logLevel, h⟩ := s <;> rfl

theorem logError_eq : logError message s =
    .ok () (if message = FEND then (s.print .error (s.format message)).setLogLevel (s.logLevel - 1)
      else s.print .error (s.format message)) := by
  unfold logError
  split_ifs <;> obtain ⟨threadName, _ | appenderName, printed, logLevel, h⟩ := s <;> rfl

theorem indent_eq : indent s =
    (if s.logLevel < 0 then throw ⟨⟩ else pure (blanks s.logLevel.toNat) : Logging String) s := rfl

theorem logDebug_of_nonneg (h : 0 ≤ s.logLevel) :
    logDebug message s = .ok () (s.print .debug (s.format (blanks s.logLevel.toNat ++ message))) := by
  have hindent : indent s = .ok (blanks s.logLevel.toNat) s := by
    rw [indent_eq, if_neg (not_lt.mpr h)]
    rfl
  rw [logDebug, Procedure.bind_of_ok hindent]
  obtain ⟨threadName, _ | appenderName, printed, logLevel, h⟩ := s <;> rfl

theorem logDebug_of_neg (h : s.logLevel < 0) : logDebug message s = .error ⟨⟩ s := by
  have hindent : indent s = .error ⟨⟩ s := by
    rw [indent_eq, if_pos h]
    rfl
  rw [logDebug, Procedure.bind_of_error hindent]

end

theorem logAnalytics_eq_logDebug : logAnalytics = logDebug := rfl

theorem logFunctionBegin_of_nonneg (s : BFLoggerInstance) (functionName : String) (h : 0 ≤ s.logLevel) :
    logFunctionBegin functionName s = .ok ()
      ((s.print .debug (s.format (blanks s.logLevel.toNat ++ (FBEGIN ++ functionName)))).setLogLevel
        (s.logLevel + 1)) := by
  rw [logFunctionBegin, Procedure.bind_of_ok (logDebug_of_nonneg s _ h)]
  rfl

theorem logFunctionEnd_eq (s : BFLoggerInstance) :
    logFunctionEnd s = logDebug FEND (s.setLogLevel (s.logLevel - 1)) := rfl

end BFLoggerInstance

inductive Call where
  | logInfo (message : String)
  | logWarn (message : String)
  | logEnv (message : String)
  | logDebug (message : String)
  | logAnalytics (message : String)
  | logFunctionBegin (functionName : String)
  | logFunctionEnd
  | logError (message : String)
  deriving DecidableEq, Repr

namespace Call

open BFLoggerInstance

def perform : Call → Logging Unit
  | .logInfo message => BFLoggerInstance.logInfo message
  | .logWarn message => BFLoggerInstance.logWarn message
  | .logEnv message => BFLoggerInstance.logEnv message
  | .logDebug message => BFLoggerInstance.logDebug message
  | .logAnalytics message => BFLoggerInstance.logAnalytics message
  | .logFunctionBegin functionName => BFLoggerInstance.logFunctionBegin functionName
  | .logFunctionEnd => BFLoggerInstance.logFunctionEnd
  | .logError message => BFLoggerInstance.logError message

def performAll : List Call → Logging Unit
  | [] => pure ()
  | c :: cs => do
    c.perform
    performAll cs

def opens : Call → Bool
  | .logFunctionBegin _ => true
  | _ => false

def closes : Call → Bool
  | .logFunctionEnd => true
  | .logEnv message => message = FEND
  | .logError message => message = FEND
  | _ => false

def begins (cs : List Call) : ℕ := cs.countP opens

def ends (cs : List Call) : ℕ := cs.countP closes

def change (c : Call) : ℤ := (if c.opens then 1 else 0) - if c.closes then 1 else 0

theorem change_plain {c : Call} (hopens : c.opens = false) (hcloses : c.closes = false) : c.change = 0 := by
  rw [change, hopens, hcloses]
  rfl

theorem closed_logLevel {c : Call} {message : String} (hopens : c.opens = false)
    (hcloses : c.closes = decide (message = FEND)) {s t : BFLoggerInstance} (ht : t.logLevel = s.logLevel) :
    (if message = FEND then t.setLogLevel (s.logLevel - 1) else t).logLevel =
      narrow (s.logLevel + c.change) := by
  by_cases h : message = FEND
  · rw [if_pos h, setLogLevel_logLevel, change, hopens, hcloses, decide_eq_true h]
    rfl
  · rw [decide_eq_false h] at hcloses
    rw [if_neg h, ht, change_plain hopens hcloses, Int.add_zero]
    exact (narrow_of_isInt s.logLevel_isInt).symm

theorem perform_cases (c : Call) {s : BFLoggerInstance} (hs : 0 ≤ s.logLevel) :
    (∃ s', c.perform s = .ok () s' ∧ s'.logLevel = narrow (s.logLevel + c.change)) ∨
    (∃ e s', c.perform s = .error e s') ∧ narrow (s.logLevel + c.change) < 0 := by
  have hkeep : narrow (s.logLevel + 0) = s.logLevel := by
    rw [Int.add_zero]
    exact narrow_of_isInt s.logLevel_isInt
  cases c with
  | logInfo message => exact .inl ⟨_, logInfo_eq s message, hkeep.symm⟩
  | logWarn message => exact .inl ⟨_, logWarn_eq s message, hkeep.symm⟩
  | logDebug message => exact .inl ⟨_, logDebug_of_nonneg s message hs, hkeep.symm⟩
  | logAnalytics message =>
    rw [perform, logAnalytics_eq_logDebug]
    exact .inl ⟨_, logDebug_of_nonneg s message hs, hkeep.symm⟩
  | logFunctionBegin functionName => exact .inl ⟨_, logFunctionBegin_of_nonneg s functionName hs, rfl⟩
  | logEnv message => exact .inl ⟨_, logEnv_eq s message, closed_logLevel rfl rfl rfl⟩
  | logError message => exact .inl ⟨_, logError_eq s message, closed_logLevel rfl rfl rfl⟩
  | logFunctionEnd =>
    have hlevel : (s.setLogLevel (s.logLevel - 1)).logLevel = narrow (s.logLevel + change .logFunctionEnd) := rfl
    by_cases h : 0 ≤ (s.setLogLevel (s.logLevel - 1)).logLevel
    · exact .inl ⟨_, (logFunctionEnd_eq s).trans (logDebug_of_nonneg _ _ h), hlevel⟩
    · right
      rw [← hlevel]
      exact ⟨⟨_, _, (logFunctionEnd_eq s).trans (logDebug_of_neg _ _ (not_le.mp h))⟩, not_le.mp h⟩

theorem performAll_cons_of_ok {c : Call} {s s' : BFLoggerInstance} (h : c.perform s = .ok () s')
    (cs : List Call) : performAll (c :: cs) s = performAll cs s' := Procedure.bind_of_ok h

theorem performAll_cons_of_error {c : Call} {s s' : BFLoggerInstance} {e : NegativeArraySizeException}
    (h : c.perform s = .error e s') (cs : List Call) : performAll (c :: cs) s = .error e s' :=
  Procedure.bind_of_error h

def Unbroken (s : BFLoggerInstance) (cs : List Call) : Prop :=
  ∀ done, done <+: cs → ∃ s', performAll done s = .ok () s' ∧ 0 ≤ s'.logLevel

theorem forall_prefix_cons_iff {α : Type} {p : List α → Prop} {x : α} {xs : List α} :
    (∀ done, done <+: x :: xs → p done) ↔ p [] ∧ ∀ done, done <+: xs → p (x :: done) := by
  simp only [List.prefix_cons_iff]
  constructor
  · intro h
    exact ⟨h [] (.inl rfl), fun done hdone => h (x :: done) (.inr ⟨done, rfl, hdone⟩)⟩
  · rintro ⟨hnil, hcons⟩ done (rfl | ⟨done, rfl, hdone⟩)
    · exact hnil
    · exact hcons done hdone

theorem narrow_nonneg_iff {x d : ℤ} (hx : 0 ≤ x) (hx' : x < 2 ^ 31) (hd : -1 ≤ d ∧ d ≤ 1) :
    0 ≤ narrow (x + d) ↔ 0 ≤ x + d ∧ x + d < 2 ^ 31 := by
  simp only [narrow]
  omega

theorem change_bounds (c : Call) : -1 ≤ c.change ∧ c.change ≤ 1 := by
  unfold change
  split_ifs <;> decide

theorem unbroken_cons_iff {c : Call} {s : BFLoggerInstance} (hs : 0 ≤ s.logLevel) (cs : List Call) :
    Unbroken s (c :: cs) ↔ ∃ s', c.perform s = .ok () s' ∧ 0 ≤ s'.logLevel ∧
      s'.logLevel = s.logLevel + c.change ∧ Unbroken s' cs := by
  constructor
  · intro h
    obtain ⟨s', hperform, hnonneg⟩ := h [c] (by simp)
    rcases c.perform_cases hs with ⟨t, ht, hlevel⟩ | ⟨⟨e, t, ht⟩, -⟩
    · rw [performAll_cons_of_ok ht] at hperform
      cases hperform
      have hrange := (narrow_nonneg_iff hs s.logLevel_isInt.2 c.change_bounds).mp (hlevel ▸ hnonneg)
      rw [narrow_of_isInt ⟨by omega, hrange.2⟩] at hlevel
      refine ⟨s', ht, hnonneg, hlevel, ?_⟩
      intro done hdone
      rw [← performAll_cons_of_ok ht]
      exact h (c :: done) (List.cons_prefix_cons.mpr ⟨rfl, hdone⟩)
    · rw [performAll_cons_of_error ht] at hperform
      cases hperform
  · rintro ⟨s', hperform, -, -, hrest⟩
    rw [Unbroken, forall_prefix_cons_iff]
    refine ⟨⟨s, rfl, hs⟩, ?_⟩
    intro done hdone
    rw [performAll_cons_of_ok hperform]
    exact hrest done hdone

def depth (cs : List Call) : ℤ := (cs.map change).sum

theorem depth_cons (c : Call) (cs : List Call) : depth (c :: cs) = c.change + depth cs := List.sum_cons

theorem unbroken_iff_depth (cs : List Call) {s : BFLoggerInstance} (hs : 0 ≤ s.logLevel) :
    Unbroken s cs ↔ ∀ done, done <+: cs → 0 ≤ s.logLevel + depth done ∧ s.logLevel + depth done < 2 ^ 31 := by
  have hnil : ∀ x : ℤ, x + depth [] = x := Int.add_zero
  induction cs generalizing s with
  | nil =>
    simp only [Unbroken, List.prefix_nil, forall_eq, hnil]
    constructor
    · intro _
      exact ⟨hs, s.logLevel_isInt.2⟩
    · intro _
      exact ⟨s, rfl, hs⟩
  | cons c cs ih =>
    rw [unbroken_cons_iff hs, forall_prefix_cons_iff, hnil]
    simp only [depth_cons, ← Int.add_assoc]
    constructor
    · rintro ⟨s', -, hnonneg, hlevel, hrest⟩
      refine ⟨⟨hs, s.logLevel_isInt.2⟩, ?_⟩
      rw [← hlevel]
      exact (ih hnonneg).mp hrest
    · rintro ⟨-, hprefix⟩
      have hrange := hprefix [] List.nil_prefix
      rw [hnil] at hrange
      have hnonneg := (narrow_nonneg_iff hs s.logLevel_isInt.2 c.change_bounds).mpr hrange
      rcases c.perform_cases hs with ⟨s', hperform, hlevel⟩ | ⟨-, hneg⟩
      · rw [narrow_of_isInt ⟨by omega, hrange.2⟩] at hlevel
        have hs' : 0 ≤ s'.logLevel := hlevel ▸ hrange.1
        refine ⟨s', hperform, hs', hlevel, ?_⟩
        apply (ih hs').mpr
        rwa [hlevel]
      · exact absurd hnonneg (not_le.mpr hneg)

theorem depth_eq (cs : List Call) : depth cs = begins cs - ends cs := by
  induction cs with
  | nil => rfl
  | cons c cs ih =>
    rw [depth_cons, ih, begins, ends, begins, ends, List.countP_cons, List.countP_cons, change]
    push_cast
    omega

/-- A sequence of calls leaves its callers alone exactly when no prefix of it closes more functions
than it opened, or has opened too many for an `int`. -/
theorem unbroken_iff (threadName : String) (cs : List Call) :
    Unbroken (fresh threadName) cs ↔
      ∀ done, done <+: cs → ends done ≤ begins done ∧ begins done < ends done + 2 ^ 31 := by
  rw [unbroken_iff_depth cs (s := fresh threadName) le_rfl]
  apply forall_congr'
  intro done
  have hlevel : (fresh threadName).logLevel = 0 := rfl
  rw [hlevel, depth_eq]
  constructor
  · intro h hdone
    obtain ⟨hlow, hhigh⟩ := h hdone
    exact ⟨by omega, by omega⟩
  · intro h hdone
    obtain ⟨hlow, hhigh⟩ := h hdone
    exact ⟨by omega, by omega⟩

theorem logFunctionEnd_fresh (threadName : String) :
    perform .logFunctionEnd (fresh threadName) = .error ⟨⟩ ((fresh threadName).setLogLevel (-1)) :=
  logDebug_of_neg ((fresh threadName).setLogLevel (-1)) FEND (show narrow (-1) < 0 by decide)

theorem unmatched_end_raises :
    performAll [.logFunctionEnd] (fresh "main") = .error ⟨⟩ ((fresh "main").setLogLevel (-1)) ∧
      ((fresh "main").setLogLevel (-1)).logLevel = -1 ∧ ¬ Unbroken (fresh "main") [.logFunctionEnd] := by
  have hraised := performAll_cons_of_error (logFunctionEnd_fresh "main") []
  refine ⟨hraised, by decide, ?_⟩
  intro h
  obtain ⟨s', hperform, -⟩ := h [.logFunctionEnd] (List.prefix_refl _)
  rw [hraised] at hperform
  cases hperform

end Call

end EBank
