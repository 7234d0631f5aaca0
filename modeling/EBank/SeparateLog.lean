import EBank.CallNesting
import EBank.ThreadLog

namespace EBank.BFLogger

open BFLoggerInstance Call Transition

section Instance

theorem after_of_ok {c : Call} {s s' : BFLoggerInstance} (h : c.perform s = .ok () s') : after c s = s' := by
  rw [after, h]

theorem after_of_error {c : Call} {s s' : BFLoggerInstance} {e : NegativeArraySizeException}
    (h : c.perform s = .error e s') : after c s = s' := by
  rw [after, h]

def debugged (s : BFLoggerInstance) (message : String) : BFLoggerInstance :=
  if 0 ≤ s.logLevel then s.print .debug (s.format (blanks s.logLevel.toNat ++ message)) else s

theorem after_logDebug (message : String) (s : BFLoggerInstance) :
    after (.logDebug message) s = debugged s message := by
  unfold debugged
  split_ifs with h
  · exact after_of_ok (logDebug_of_nonneg s message h)
  · exact after_of_error (logDebug_of_neg s message (not_le.mp h))

theorem after_logFunctionEnd (s : BFLoggerInstance) :
    after .logFunctionEnd s = debugged (s.setLogLevel (s.logLevel - 1)) FEND :=
  after_logDebug FEND (s.setLogLevel (s.logLevel - 1))

theorem after_logFunctionBegin (functionName : String) (s : BFLoggerInstance) :
    after (.logFunctionBegin functionName) s =
      if 0 ≤ s.logLevel then (debugged s (FBEGIN ++ functionName)).setLogLevel (s.logLevel + 1) else s := by
  unfold debugged
  split_ifs with h
  · exact after_of_ok (logFunctionBegin_of_nonneg s functionName h)
  · exact after_of_error (Procedure.bind_of_error (logDebug_of_neg s _ (not_le.mp h)))

theorem debugged_named (s : BFLoggerInstance) (message : String) :
    debugged (named s) message = named (debugged s message) := by
  unfold debugged
  split_ifs with h h' <;> first | rfl | contradiction

theorem after_named (c : Call) (s : BFLoggerInstance) : after c (named s) = named (after c s) := by
  cases c with
  | logInfo message =>
    rw [after_of_ok (c := .logInfo message) (logInfo_eq s message)]
    exact after_of_ok (logInfo_eq (named s) message)
  | logWarn message =>
    rw [after_of_ok (c := .logWarn message) (logWarn_eq s message)]
    exact after_of_ok (logWarn_eq (named s) message)
  | logEnv message =>
    rw [after_of_ok (c := .logEnv message) (logEnv_eq s message),
      after_of_ok (c := .logEnv message) (logEnv_eq (named s) message)]
    split_ifs <;> rfl
  | logError message =>
    rw [after_of_ok (c := .logError message) (logError_eq s message),
      after_of_ok (c := .logError message) (logError_eq (named s) message)]
    split_ifs <;> rfl
  | logDebug message =>
    rw [after_logDebug, after_logDebug, debugged_named]
  | logAnalytics message =>
    exact (after_logDebug message (named s)).trans ((debugged_named s message).trans
      (congrArg named (after_logDebug message s).symm))
  | logFunctionBegin functionName =>
    rw [after_logFunctionBegin, after_logFunctionBegin, debugged_named]
    split_ifs with h h' <;> first | rfl | contradiction
  | logFunctionEnd =>
    rw [after_logFunctionEnd, after_logFunctionEnd]
    exact debugged_named (s.setLogLevel (s.logLevel - 1)) FEND

theorem debugged_printed (s : BFLoggerInstance) (message : String) :
    s.printed <+: (debugged s message).printed := by
  unfold debugged
  split_ifs
  · exact List.prefix_append _ _
  · exact List.prefix_refl _

theorem printed_grows (c : Call) (s : BFLoggerInstance) : s.printed <+: (after c s).printed := by
  cases c with
  | logInfo message =>
    rw [after_of_ok (c := .logInfo message) (logInfo_eq s message)]
    exact List.prefix_append _ _
  | logWarn message =>
    rw [after_of_ok (c := .logWarn message) (logWarn_eq s message)]
    exact List.prefix_append _ _
  | logEnv message =>
    rw [after_of_ok (c := .logEnv message) (logEnv_eq s message)]
    split_ifs <;> exact List.prefix_append _ _
  | logError message =>
    rw [after_of_ok (c := .logError message) (logError_eq s message)]
    split_ifs <;> exact List.prefix_append _ _
  | logDebug message =>
    rw [after_logDebug]
    exact debugged_printed s message
  | logAnalytics message => exact (after_logDebug message s).symm ▸ debugged_printed s message
  | logFunctionBegin functionName =>
    rw [after_logFunctionBegin]
    split_ifs
    · exact debugged_printed s (FBEGIN ++ functionName)
    · exact List.prefix_refl _
  | logFunctionEnd =>
    rw [after_logFunctionEnd]
    exact debugged_printed (s.setLogLevel (s.logLevel - 1)) FEND

theorem after_printed (c : Call) (s : BFLoggerInstance) : (after c s).printed = s.printed ++ newLines c s :=
  (List.prefix_iff_eq_append.mp (printed_grows c s)).symm

theorem performAll_cons_ok {c : Call} {cs : List Call} {s s' : BFLoggerInstance}
    (h : performAll (c :: cs) s = .ok () s') :
    ∃ s₁, c.perform s = .ok () s₁ ∧ performAll cs s₁ = .ok () s' := by
  cases hfirst : c.perform s with
  | ok x s₁ => exact ⟨s₁, rfl, (performAll_cons_of_ok hfirst cs).symm.trans h⟩
  | error e s₁ => cases (performAll_cons_of_error hfirst cs).symm.trans h

end Instance

variable {ι Λ F : Type} [DecidableEq ι] [DecidableEq F] {L : Log4j Λ F} {name : ι → String} {s : State ι Λ}
  {t : ι}

def callOf (t : ι) : Action ι → Option Call
  | .call u c => if u = t then some c else none
  | _ => none

theorem callOf_self (t : ι) (c : Call) : callOf t (.call t c) = some c := if_pos rfl

theorem callOf_other {u : ι} (h : u ≠ t) (c : Call) : callOf t (.call u c) = none := if_neg h

theorem act_of_call {a : Action ι} {c : Call} (h : callOf t a = some c) (alone : Alone) :
    alone.act t a = ⟨after c alone.log, alone.file ++ newLines c alone.log⟩ := by
  cases a with
  | call u d =>
    rw [callOf] at h
    split_ifs at h with hut
    cases h
    exact if_pos hut
  | _ => cases h

theorem act_log_of_none {a : Action ι} (h : callOf t a = none) (alone : Alone) :
    (alone.act t a).log = alone.log ∨ (alone.act t a).log = named alone.log := by
  cases a with
  | call u c =>
    rw [callOf] at h
    split_ifs at h with hut
    rw [Alone.act, if_neg hut]
    exact .inl rfl
  | effect u e => exact .inl rfl
  | startSeparateLog u =>
    simp only [Alone.act]
    split_ifs
    · exact .inr rfl
    · exact .inl rfl
  | dumpSeparateLog u content =>
    simp only [Alone.act]
    split_ifs
    · exact .inr rfl
    · exact .inl rfl

theorem act_file_of_none {a : Action ι} (h : callOf t a = none) (hstart : a ≠ .startSeparateLog t)
    (alone : Alone) : (alone.act t a).file = alone.file := by
  cases a with
  | call u c =>
    rw [callOf] at h
    split_ifs at h with hut
    rw [Alone.act, if_neg hut]
  | effect u e => rfl
  | startSeparateLog u =>
    have hut : u ≠ t := by
      rintro rfl
      exact hstart rfl
    rw [Alone.act, if_neg hut]
  | dumpSeparateLog u content =>
    simp only [Alone.act]
    split_ifs <;> rfl

theorem acts_log {actions : List (Action ι)} {alone : Alone} {s s' : BFLoggerInstance}
    (h : performAll (actions.filterMap (callOf t)) s = .ok () s') (hs : named alone.log = named s) :
    named (actions.foldl (Alone.act t) alone).log = named s' := by
  induction actions generalizing alone s with
  | nil =>
    cases h
    exact hs
  | cons a actions ih =>
    cases hcall : callOf t a with
    | some c =>
      rw [List.filterMap_cons_some hcall] at h
      obtain ⟨s₁, hfirst, hrest⟩ := performAll_cons_ok h
      apply ih hrest
      rw [act_of_call hcall, ← after_of_ok hfirst, ← after_named, hs, after_named]
    | none =>
      rw [List.filterMap_cons_none hcall] at h
      apply ih h
      rcases act_log_of_none hcall alone with hlog | hlog
      · rw [hlog, hs]
      · rw [hlog, ← hs]
        rfl

theorem acts_file {actions : List (Action ι)} (hstart : .startSeparateLog t ∉ actions) (alone : Alone) :
    ∃ lines, (actions.foldl (Alone.act t) alone).file = alone.file ++ lines ∧
      (actions.foldl (Alone.act t) alone).log.printed = alone.log.printed ++ lines := by
  induction actions generalizing alone with
  | nil => exact ⟨[], (List.append_nil _).symm, (List.append_nil _).symm⟩
  | cons a actions ih =>
    rw [List.mem_cons, not_or] at hstart
    obtain ⟨lines, hfile, hprinted⟩ := ih hstart.2 (alone.act t a)
    rw [List.foldl_cons, hfile, hprinted]
    cases hcall : callOf t a with
    | some c =>
      rw [act_of_call hcall]
      exact ⟨newLines c alone.log ++ lines, List.append_assoc _ _ _, by rw [after_printed, List.append_assoc]⟩
    | none =>
      refine ⟨lines, by rw [act_file_of_none hcall (Ne.symm hstart.1)], ?_⟩
      rcases act_log_of_none hcall alone with hlog | hlog
      · rw [hlog]
      · rw [hlog]
        rfl

theorem trace_calls (L : Log4j Λ F) (t : ι) (cs : List Call) (s : State ι Λ)
    (idle : (getLog name s t).pending = []) :
    ∃ (actions : List (Action ι)) (s' : State ι Λ), Trace (Step L name) s actions s' ∧
      (getLog name s' t).pending = [] ∧ (∀ u, u ≠ t → getLog name s' u = getLog name s u) ∧
      actions.filterMap (callOf t) = cs ∧ (∀ u, u ≠ t → actions.filterMap (callOf u) = []) ∧
      ∀ u, .startSeparateLog u ∉ actions := by
  induction cs generalizing s with
  | nil => exact ⟨[], s, .nil s, idle, fun _ _ => rfl, rfl, fun _ _ => rfl, fun _ => List.not_mem_nil⟩
  | cons c cs ih =>
    let s₀ := s.set t ((getLog name s t).call L (name t) c)
    let es := (getLog name s₀ t).pending
    obtain ⟨s₁, htrace₁, hidle₁, hother₁, -⟩ := trace_effects L t es [] s₀ (List.append_nil _).symm
    obtain ⟨actions, s₂, htrace₂, hidle₂, hother₂, hself, hothers, hstart⟩ := ih s₁ hidle₁
    have heffects : ∀ u, (es.map (Action.effect t)).filterMap (callOf u) = [] := by
      intro u
      rw [List.filterMap_map, List.filterMap_eq_nil_iff]
      exact fun _ _ => rfl
    refine ⟨.call t c :: (es.map (.effect t) ++ actions), s₂, .cons (.call idle) (htrace₁.append htrace₂),
      hidle₂, ?_, ?_, ?_, ?_⟩
    · intro u hu
      rw [hother₂ u hu, hother₁ u hu, getLog_set_other s hu]
    · rw [List.filterMap_cons_some (callOf_self t c), List.filterMap_append, heffects, hself, List.nil_append]
    · intro u hu
      rw [List.filterMap_cons_none (callOf_other (Ne.symm hu) c), List.filterMap_append, heffects,
        hothers u hu, List.nil_append]
    · intro u hmem
      rcases List.mem_cons.mp hmem with heq | hmem
      · cases heq
      · rcases List.mem_append.mp hmem with hmem | hmem
        · obtain ⟨e, -, heq⟩ := List.mem_map.mp hmem
          cases heq
        · exact hstart u hmem

theorem performs_of_fits (n : Nested) (hn : n.Fits 0) {s : BFLoggerInstance} (hs : s.logLevel = 0) :
    ∃ s', performAll n.calls s = .ok () s' ∧ Call.Prints s s' (n.mirror s.name 0) := by
  rcases n.performAll_cases (Nat.zero_le _) (show s.logLevel = JavaInt.narrow (0 : ℕ) from hs) with
    ⟨-, hperform⟩ | ⟨hnot, -⟩
  · exact hperform
  · exact absurd hn hnot

theorem acts_mirror {files : F → List LogLine} {before session : List (Action ι)}
    (hsession : .startSeparateLog t ∉ session) (m n : Nested) (hm : m.Fits 0) (hn : n.Fits 0)
    (hbefore : before.filterMap (callOf t) = m.calls) (hcalls : session.filterMap (callOf t) = n.calls) :
    (Alone.acts L name t files (before ++ .startSeparateLog t :: session)).file = n.mirror (name t) 0 := by
  obtain ⟨sm, hperformm, hprintsm⟩ := performs_of_fits m hm (show (fresh (name t)).logLevel = 0 from rfl)
  obtain ⟨sn, hperformn, hprintsn⟩ :=
    performs_of_fits n hn (show (named sm).logLevel = 0 from hprintsm.logLevel)
  have hname : (named sm).name = name t := hprintsm.name
  let started := Alone.acts L name t files before
  have hstarted : named started.log = named sm := acts_log (by rw [hbefore, hperformm]) rfl
  have hcleared : Alone.acts L name t files (before ++ .startSeparateLog t :: session) =
      session.foldl (Alone.act t) ⟨named started.log, []⟩ := by
    rw [Alone.acts, List.foldl_append, List.foldl_cons]
    exact congrArg (session.foldl (Alone.act t)) (if_pos rfl)
  have hended : named (session.foldl (Alone.act t) ⟨named started.log, []⟩).log = named sn :=
    acts_log (by rw [hcalls, hperformn]) (congrArg named hstarted)
  obtain ⟨lines, hfile, hprinted⟩ := acts_file hsession ⟨named started.log, []⟩
  have hlines : (named sm).printed ++ lines = (named sm).printed ++ n.mirror (name t) 0 :=
    calc (named sm).printed ++ lines
      _ = (named started.log).printed ++ lines := by rw [hstarted]
      _ = (named (session.foldl (Alone.act t) ⟨named started.log, []⟩).log).printed := hprinted.symm
      _ = (named sn).printed := by rw [hended]
      _ = (named sm).printed ++ n.mirror (name t) 0 := hname ▸ hprintsn.printed
  rw [hcleared, hfile, List.append_cancel_left hlines]
  exact List.nil_append _

theorem separateLog_mirrors (hapart : Apart L name t) {files : F → List LogLine}
    (before session : List (Action ι)) {content : List LogLine}
    (htrace : Trace (Step L name) (initial L files)
      (before ++ .startSeparateLog t :: (session ++ [.dumpSeparateLog t content])) s)
    (hsession : .startSeparateLog t ∉ session) (m n : Nested) (hm : m.Fits 0) (hn : n.Fits 0)
    (hbefore : before.filterMap (callOf t) = m.calls) (hcalls : session.filterMap (callOf t) = n.calls) :
    content = n.mirror (name t) 0 := by
  obtain ⟨s₁, htrace₁, hrest⟩ := htrace.split
  cases hrest with
  | cons hstart hrest =>
    obtain ⟨s₂, htrace₂, hlast⟩ := hrest.split
    have hrefines := private_of_apart hapart files _ s₂ (htrace₁.append (.cons hstart htrace₂))
    cases hlast with
    | cons hdump hnil =>
      cases hdump with
      | dumpSeparateLog idle =>
        rw [hrefines.file_of_idle idle]
        exact acts_mirror hsession m n hm hn hbefore hcalls

theorem asyncThread_mirrors : ∃ (session : List (Action ℕ)) (s : State ℕ (Memory String)),
    Trace (Step (inMemory id) asyncThread) (initial (inMemory id) fun _ => []) (.startSeparateLog 0 ::
      (session ++ [.dumpSeparateLog 0 (Nested.debugInFunction.mirror (asyncThread 0) 0)])) s ∧
    session.filterMap (callOf 0) = Nested.debugInFunction.calls ∧
    session.filterMap (callOf 1) = [.logInfo ""] := by
  obtain ⟨s₀, hstart, hidle₀, hidle₀'⟩ : ∃ s₀,
      Step (inMemory id) asyncThread (initial (inMemory id) fun _ => []) (.startSeparateLog 0) s₀ ∧
      (getLog asyncThread s₀ 0).pending = [] ∧ (getLog asyncThread s₀ 1).pending = [] :=
    ⟨_, .startSeparateLog rfl, rfl, rfl⟩
  obtain ⟨first, s₁, htrace₁, hidle₁, hother₁, hfirst, hfirst', hnot₁⟩ :=
    trace_calls (inMemory id) 0 [.logFunctionBegin "f"] s₀ hidle₀
  obtain ⟨second, s₂, htrace₂, -, hother₂, hsecond, hsecond', hnot₂⟩ :=
    trace_calls (inMemory id) 1 [.logInfo ""] s₁ (by rw [hother₁ 1 (by decide), hidle₀'])
  obtain ⟨third, s₃, htrace₃, hidle₃, -, hthird, hthird', hnot₃⟩ :=
    trace_calls (inMemory id) 0 [.logDebug "m", .logFunctionEnd] s₂ (by rw [hother₂ 0 (by decide), hidle₁])
  have hcalls : (first ++ (second ++ third)).filterMap (callOf 0) = Nested.debugInFunction.calls := by
    rw [List.filterMap_append, List.filterMap_append, hfirst, hsecond' 0 (by decide), hthird]
    rfl
  have hcalls' : (first ++ (second ++ third)).filterMap (callOf 1) = [.logInfo ""] := by
    rw [List.filterMap_append, List.filterMap_append, hfirst' 1 (by decide), hsecond, hthird' 1 (by decide)]
    rfl
  have hsession : .startSeparateLog 0 ∉ first ++ (second ++ third) := by
    simp only [List.mem_append, not_or]
    exact ⟨hnot₁ 0, hnot₂ 0, hnot₃ 0⟩
  have htrace := Trace.cons hstart ((htrace₁.append (htrace₂.append htrace₃)).append
    (.cons (.dumpSeparateLog hidle₃) (.nil _)))
  have hmirror := separateLog_mirrors (asyncThread_apart 0) [] (first ++ (second ++ third)) htrace hsession .nil
    Nested.debugInFunction trivial ⟨by decide, ⟨fun _ => by decide, trivial⟩, trivial⟩ rfl hcalls
  rw [hmirror] at htrace
  exact ⟨_, _, htrace, hcalls, hcalls'⟩

end EBank.BFLogger
