import EBank.LogFiles

namespace EBank.BFLogger

open BFLoggerInstance Transition

variable {ι Λ F : Type} [DecidableEq ι] [DecidableEq F] {L : Log4j Λ F} {name : ι → String} {s s' : State ι Λ}
  {a : Action ι} {t : ι}

section Alone

/-- The instance of a thread and its log file, with no other thread and nothing left to print. -/
structure Alone where
  log : BFLoggerInstance
  file : List LogLine

def Alone.act (t : ι) (alone : Alone) : Action ι → Alone
  | .call u c => if u = t then ⟨after c alone.log, alone.file ++ newLines c alone.log⟩ else alone
  | .effect _ _ => alone
  | .startSeparateLog u => if u = t then ⟨named alone.log, []⟩ else alone
  | .dumpSeparateLog u _ => if u = t then ⟨named alone.log, alone.file⟩ else alone

def Alone.acts (L : Log4j Λ F) (name : ι → String) (t : ι) (files : F → List LogLine)
    (actions : List (Action ι)) : Alone :=
  actions.foldl (Alone.act t) ⟨fresh (name t), files (logFile L name t)⟩

def waiting (name : String) : Effect → Option LogLine
  | .callAppenders category line => if category = name then some line else none
  | _ => none

structure Refines (L : Log4j Λ F) (name : ι → String) (t : ι) (s : State ι Λ) (alone : Alone) : Prop where
  log : (getLog name s t).log = alone.log
  file : L.content s.log4j (logFile L name t) ++ (getLog name s t).pending.filterMap (waiting (name t)) =
    alone.file

def Private (L : Log4j Λ F) (name : ι → String) (t : ι) : Prop :=
  ∀ (files : F → List LogLine) (actions : List (Action ι)) (s : State ι Λ),
    Trace (Step L name) (initial L files) actions s →
      Refines L name t s (Alone.acts L name t files actions)

end Alone

section Apart

structure Apart (L : Log4j Λ F) (name : ι → String) (t : ι) : Prop where
  file : ∀ u, logFile L name u = logFile L name t → u = t
  envFile : ∀ u, L.file (envLogName (name u)) ≠ logFile L name t
  unrelated : ∀ u, name t ∉ L.ancestors (name u)

omit [DecidableEq ι] in
theorem Apart.eq_of_name (h : Apart L name t) (u : ι) (hu : name u = name t) : u = t :=
  h.file u (by rw [logFile, hu, logFile])

omit [DecidableEq ι] in
theorem Apart.logged_other (h : Apart L name t) {u : ι} (hu : u ≠ t) (line : LogLine) :
    logged L (name u) (logFile L name t) line = [] := by
  have hfile : ¬ L.file (getLogFile (name u)) = logFile L name t := fun hfile => hu (h.file u hfile)
  rw [logged, if_neg (fun henv => h.envFile u henv.2), if_neg hfile, List.nil_append]

omit [DecidableEq ι] in
theorem Apart.logged_self (h : Apart L name t) (line : LogLine) :
    logged L (name t) (logFile L name t) line = [line] := by
  rw [logged, if_neg (fun henv => h.envFile t henv.2), if_pos (show L.file _ = logFile L name t from rfl),
    List.nil_append]

theorem callAppenders_elsewhere {category : String} {log4j : Λ}
    (howned : ∀ appender ∈ L.appenders log4j category, appender ∈ attached category) {f : F} {line : LogLine}
    (h : logged L category f line = []) (n : String) :
    L.content (L.apply n log4j (.callAppenders category line)) f = L.content log4j f := by
  rw [← output_attached, List.flatMap_eq_nil_iff] at h
  have hnone : (L.appenders log4j category).flatMap (L.output L.file line f) = [] :=
    List.flatMap_eq_nil_iff.mpr fun appender happender => h appender (howned appender happender)
  rw [L.callAppenders_content, hnone, List.append_nil]

structure Guarded (L : Log4j Λ F) (name : ι → String) (t : ι) (s : State ι Λ) : Prop where
  attached : Attached L name s t
  unused : Unused L name s
  owned : ∀ n, ∀ appender ∈ L.appenders s.log4j n, appender ∈ BFLogger.attached n
  pending : ∀ u, ∀ e ∈ (getLog name s u).pending, e ∈ setup (name u) ∨ Printing L (name u) e

theorem owned_apply {n : String} {log4j : Λ} {e : Effect} (he : e ∈ setup n ∨ Printing L n e)
    (h : ∀ m, ∀ appender ∈ L.appenders log4j m, appender ∈ attached m) (m : String) :
    ∀ appender ∈ L.appenders (L.apply n log4j e) m, appender ∈ attached m := by
  by_cases hm : m = n
  · subst hm
    rw [apply_appenders]
    rcases he with hsetup | ⟨category, line, -, rfl⟩
    · simp only [setup, List.mem_cons, List.not_mem_nil, or_false] at hsetup
      rcases hsetup with rfl | rfl | rfl | rfl
      · exact List.forall_mem_nil _
      all_goals
        intro appender happender
        rcases List.mem_append.mp happender with hold | hnew
        · exact h m appender hold
        · simp [attached, List.mem_singleton.mp hnew]
    · exact h m
  · rw [L.other_appenders _ _ _ _ hm]
    exact h m

theorem pending_call (l : Local) (n : String) (c : Call) {e : Effect} (he : e ∈ (l.call L n c).pending) :
    e ∈ setup n ∨ Printing L n e := by
  rw [Local.call, List.mem_append] at he
  rcases he with he | he
  · split_ifs at he
    · cases he
    · exact .inl he
  · exact .inr (printing_of_mem_forcedLog he)

theorem pending_set {u : ι} {l : Local} {log4j : Λ}
    (h : ∀ u, ∀ e ∈ (getLog name s u).pending, e ∈ setup (name u) ∨ Printing L (name u) e)
    (hl : ∀ e ∈ l.pending, e ∈ setup (name u) ∨ Printing L (name u) e) (v : ι) :
    ∀ e ∈ (getLog name { s.set u l with log4j := log4j } v).pending,
      e ∈ setup (name v) ∨ Printing L (name v) e := by
  rw [getLog_with_log4j]
  by_cases hvu : v = u
  · subst hvu
    rwa [getLog_set_self]
  · rw [getLog_set_other s hvu]
    exact h v

theorem guarded_step (hname : ∀ u, name u = name t → u = t) (h : Guarded L name t s)
    (hstep : Step L name s a s') : Guarded L name t s' := by
  have hattached := attached_step hname h.attached hstep
  have hunused := unused_step h.unused hstep
  cases hstep with
  | @call u c idle =>
    exact ⟨hattached, hunused, h.owned, pending_set h.pending fun e he => pending_call _ _ c he⟩
  | @effect u e rest next =>
    refine ⟨hattached, hunused, ?_, ?_⟩
    · exact owned_apply (h.pending u e (next ▸ List.mem_cons_self)) h.owned
    · apply pending_set h.pending
      intro e' he'
      exact h.pending u e' (next ▸ List.mem_cons_of_mem e he')
  | @startSeparateLog u idle =>
    refine ⟨hattached, hunused, ?_, pending_set h.pending (h.pending u)⟩
    intro n
    rw [L.truncate_appenders]
    exact h.owned n
  | @dumpSeparateLog u idle => exact ⟨hattached, hunused, h.owned, pending_set h.pending (h.pending u)⟩

omit [DecidableEq ι] in
theorem guarded_initial (files : F → List LogLine) (t : ι) : Guarded L name t (initial L files) where
  attached := attached_initial files t
  unused := unused_initial files
  owned n appender happender := by
    rw [initial, L.start_appenders] at happender
    cases happender
  pending _ _ he := by cases he

omit [DecidableEq ι] in
theorem other_category (hapart : Apart L name t) (h : Guarded L name t s) {category : String}
    (hcategory : category ≠ name t) (n : String) (line : LogLine) :
    L.content (L.apply n s.log4j (.callAppenders category line)) (logFile L name t) =
      L.content s.log4j (logFile L name t) := by
  by_cases hthread : ∃ v, name v = category
  · obtain ⟨v, rfl⟩ := hthread
    have hv : v ≠ t := fun heq => hcategory (congrArg name heq)
    exact callAppenders_elsewhere (h.owned _) (hapart.logged_other hv line) n
  · exact callAppenders_detached (h.unused category (not_exists.mp hthread)) n _ line

omit [DecidableEq ι] in
theorem effect_elsewhere (hapart : Apart L name t) (h : Guarded L name t s) {u : ι} (hu : u ≠ t) {e : Effect}
    (he : e ∈ (getLog name s u).pending) :
    L.content (L.apply (name u) s.log4j e) (logFile L name t) = L.content s.log4j (logFile L name t) := by
  rcases h.pending u e he with hsetup | ⟨category, line, hcategory, rfl⟩
  · exact apply_content_of_setup hsetup _ _ _
  · apply other_category hapart h
    rintro rfl
    rcases List.mem_cons.mp hcategory with hself | hancestor
    · exact hu (hapart.eq_of_name u hself.symm)
    · exact hapart.unrelated u hancestor

end Apart

section Refinement

theorem waiting_self (n : String) (line : LogLine) : waiting n (.callAppenders n line) = some line :=
  if_pos rfl

theorem waiting_other {n category : String} (h : category ≠ n) (line : LogLine) :
    waiting n (.callAppenders category line) = none := if_neg h

theorem waiting_forcedLog (n : String) (line : LogLine) :
    (forcedLog L n line).filterMap (waiting n) = [line] := by
  have hancestors : ((L.ancestors n).map (fun category => Effect.callAppenders category line)).filterMap
      (waiting n) = [] := by
    rw [List.filterMap_eq_nil_iff, List.forall_mem_map]
    intro category hcategory
    exact waiting_other (ne_of_mem_ancestors hcategory) line
  rw [forcedLog, categories, List.map_cons, List.filterMap_cons_some (waiting_self n line), hancestors]

theorem waiting_call (l : Local) (n : String) (c : Call) :
    (l.call L n c).pending.filterMap (waiting n) = newLines c l.log := by
  have hsetup :
      (if l.created || (newLines c l.log).isEmpty then [] else setup n).filterMap (waiting n) = [] := by
    split_ifs <;> rfl
  rw [Local.call, List.filterMap_append, hsetup, List.nil_append]
  induction newLines c l.log with
  | nil => rfl
  | cons line lines ih =>
    rw [List.flatMap_cons, List.filterMap_append, waiting_forcedLog, ih, List.singleton_append]

omit [DecidableEq ι] in
theorem Refines.congr {alone : Alone} (h : Refines L name t s alone) (hlog : getLog name s' t = getLog name s t)
    (hfile : L.content s'.log4j (logFile L name t) = L.content s.log4j (logFile L name t)) :
    Refines L name t s' alone := by
  refine ⟨?_, ?_⟩
  · rw [hlog, h.log]
  · rw [hlog, hfile, h.file]

omit [DecidableEq ι] in
theorem Refines.file_of_idle {alone : Alone} (h : Refines L name t s alone)
    (idle : (getLog name s t).pending = []) : L.content s.log4j (logFile L name t) = alone.file := by
  have hfile := h.file
  rwa [idle, List.filterMap_nil, List.append_nil] at hfile

theorem refines_effect (hapart : Apart L name t) (hguarded : Guarded L name t s) {alone : Alone}
    (h : Refines L name t s alone) {e : Effect} {rest : List Effect}
    (next : (getLog name s t).pending = e :: rest) :
    Refines L name t
      { s.set t { getLog name s t with pending := rest } with log4j := L.apply (name t) s.log4j e } alone := by
  have hfile := h.file
  rw [next] at hfile
  refine ⟨?_, ?_⟩
  · rw [getLog_set_with_self, h.log]
  · rw [getLog_set_with_self]
    obtain ⟨-, ⟨start, finished, todo, prints, hsetup, -⟩ |
      ⟨⟨category, line, hcategory, rfl⟩, -, happenders⟩⟩ := attached_next hguarded.attached next
    · have hmem : e ∈ setup (name t) := by simp [hsetup]
      have hwaiting : waiting (name t) e = none := by
        cases e with
        | callAppenders category line => simp [setup] at hmem
        | _ => rfl
      rw [List.filterMap_cons_none hwaiting] at hfile
      rw [apply_content_of_setup hmem, hfile]
    · by_cases hown : category = name t
      · subst hown
        rw [List.filterMap_cons_some (waiting_self _ line)] at hfile
        rw [callAppenders_attached happenders, hapart.logged_self, List.append_assoc, List.singleton_append,
          hfile]
      · -- an ancestor's appenders are another thread's
        rw [List.filterMap_cons_none (waiting_other hown line)] at hfile
        rw [other_category hapart hguarded hown, hfile]

theorem refines_step (hapart : Apart L name t) (hguarded : Guarded L name t s) {alone : Alone}
    (h : Refines L name t s alone) (hstep : Step L name s a s') : Refines L name t s' (alone.act t a) := by
  cases hstep with
  | @call u c idle =>
    by_cases hut : u = t
    · subst hut
      rw [Alone.act, if_pos rfl, ← h.log, ← h.file_of_idle idle]
      refine ⟨?_, ?_⟩
      · rw [getLog_set_self]
        rfl
      · rw [getLog_set_self, waiting_call, set_log4j]
    · rw [Alone.act, if_neg hut]
      exact h.congr (getLog_set_other s (Ne.symm hut) _) rfl
  | @effect u e rest next =>
    by_cases hut : u = t
    · subst hut
      exact refines_effect hapart hguarded h next
    · have hmem : e ∈ (getLog name s u).pending := next ▸ List.mem_cons_self
      exact h.congr (getLog_set_other s (Ne.symm hut) _) (effect_elsewhere hapart hguarded hut hmem)
  | @startSeparateLog u idle =>
    by_cases hut : u = t
    · subst hut
      rw [Alone.act, if_pos rfl, ← h.log]
      refine ⟨?_, ?_⟩
      · rw [getLog_set_with_self]
        rfl
      · rw [getLog_set_with_self, Local.named, idle, List.filterMap_nil, List.append_nil, L.truncate_content]
        exact if_pos rfl
    · rw [Alone.act, if_neg hut]
      have hfile : L.content (L.truncate (getLogFile (name u)) s.log4j) (logFile L name t) = _ :=
        (L.truncate_content _ _ _).trans (if_neg fun heq => hut (hapart.file u heq))
      exact h.congr (getLog_set_other s (Ne.symm hut) _) hfile
  | @dumpSeparateLog u idle =>
    by_cases hut : u = t
    · subst hut
      rw [Alone.act, if_pos rfl, ← h.log, ← h.file_of_idle idle]
      refine ⟨?_, ?_⟩
      · rw [getLog_set_self]
        rfl
      · rw [getLog_set_self, Local.named, idle, List.filterMap_nil, List.append_nil, set_log4j]
    · rw [Alone.act, if_neg hut]
      exact h.congr (getLog_set_other s (Ne.symm hut) _) rfl

theorem refines_trace (hapart : Apart L name t) {actions : List (Action ι)} {alone : Alone}
    (htrace : Trace (Step L name) s actions s') (hguarded : Guarded L name t s) (h : Refines L name t s alone) :
    Refines L name t s' (actions.foldl (Alone.act t) alone) := by
  induction htrace generalizing alone with
  | nil s => exact h
  | cons next rest ih =>
    exact ih (guarded_step hapart.eq_of_name hguarded next) (refines_step hapart hguarded h next)

theorem private_of_apart (hapart : Apart L name t) : Private L name t := by
  intro files actions s htrace
  have hstart : L.content (L.start files) (logFile L name t) = files (logFile L name t) :=
    congrFun (L.start_content files) _
  exact refines_trace hapart htrace (guarded_initial files t) ⟨rfl, (List.append_nil _).trans hstart⟩

end Refinement

section Converse

theorem Private.effect (h : Private L name t) {files : F → List LogLine} {actions : List (Action ι)}
    (htrace : Trace (Step L name) (initial L files) actions s) {u : ι} {e : Effect}
    (hstep : Step L name s (.effect u e) s') :
    L.content s'.log4j (logFile L name t) ++ (getLog name s' t).pending.filterMap (waiting (name t)) =
      L.content s.log4j (logFile L name t) ++ (getLog name s t).pending.filterMap (waiting (name t)) := by
  have hbefore := h files actions s htrace
  have hafter := h files (actions ++ [.effect u e]) s' (htrace.append (.cons hstep (.nil s')))
  have hsame : Alone.acts L name t files (actions ++ [.effect u e]) = Alone.acts L name t files actions := by
    rw [Alone.acts, List.foldl_append]
    rfl
  rw [hafter.file, hbefore.file, hsame]

theorem Private.unheard (h : Private L name t) {files : F → List LogLine} {actions : List (Action ι)}
    (htrace : Trace (Step L name) (initial L files) actions s) {u : ι} (hu : u ≠ t) {category : String}
    {line : LogLine} {rest : List Effect}
    (next : (getLog name s u).pending = .callAppenders category line :: rest)
    (hattached : L.appenders s.log4j category = attached category) :
    logged L category (logFile L name t) line = [] := by
  have hfile := h.effect htrace (.effect next)
  rw [getLog_set_with_other s (Ne.symm hu), List.append_cancel_right_eq,
    callAppenders_attached hattached] at hfile
  exact List.append_right_eq_self.mp hfile

theorem newLines_logEnv (threadName : String) :
    newLines (.logEnv "") (fresh threadName) = [⟨.environment, ""⟩] := rfl

theorem Private.apart (h : Private L name t) : Apart L name t := by
  constructor
  · intro u hpath
    by_contra hut
    obtain ⟨s, htrace, hpending, -, happenders, -⟩ :=
      trace_setup L u (initial L fun _ => []) rfl (newLines_logInfo (name u))
    have hunheard := h.unheard htrace hut hpending happenders
    rw [← hpath] at hunheard
    exact logged_ne_nil _ _ hunheard
  · intro u hpath
    obtain ⟨s, htrace, hpending, -, happenders, -⟩ :=
      trace_setup L u (initial L fun _ => []) rfl (newLines_logEnv (name u))
    by_cases hut : u = t
    · -- the thread's own line would be there twice
      subst hut
      have hfile := h.effect htrace (.effect hpending)
      rw [getLog_set_with_self, hpending, callAppenders_attached happenders, logged, if_pos ⟨rfl, hpath⟩,
        if_pos (show L.file _ = logFile L name u from rfl), waiting_forcedLog] at hfile
      have hlength := congrArg List.length hfile
      simp only [List.length_append, List.length_singleton] at hlength
      omega
    · have hunheard := h.unheard htrace hut hpending happenders
      rw [logged, if_pos ⟨rfl, hpath⟩] at hunheard
      cases hunheard
  · intro u hancestor
    obtain ⟨actions, s, rest, htrace, hpending, hattached⟩ := trace_ancestor hancestor
    have hut : u ≠ t := by
      rintro rfl
      exact ne_of_mem_ancestors hancestor rfl
    exact logged_ne_nil _ _ (h.unheard htrace hut hpending hattached)

theorem private_iff (L : Log4j Λ F) (name : ι → String) (t : ι) : Private L name t ↔ Apart L name t :=
  ⟨Private.apart, private_of_apart⟩

theorem asyncThread_apart (t : ℕ) : Apart (inMemory id) asyncThread t where
  file u hfile := asyncThread_injective
    (getLogFile_inj (asyncThread_isPlain u).slash (asyncThread_isPlain t).slash hfile)
  envFile u := envLogName_ne (asyncThread_isPlain u) (asyncThread_isPlain t)
  unrelated u := (asyncThread_isPlain u).unrelated _ (asyncThread t)

theorem asyncThread_private (t : ℕ) : Private (inMemory id) asyncThread t :=
  (private_iff (inMemory id) asyncThread t).mpr (asyncThread_apart t)

end Converse

end EBank.BFLogger
