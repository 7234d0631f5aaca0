import EBank.ThreadNames

namespace EBank.BFLogger

open BFLoggerInstance Transition

variable {ι Λ F : Type} [DecidableEq ι] [DecidableEq F] {L : Log4j Λ F} {name : ι → String} {s s' : State ι Λ}
  {a : Action ι}

section State

@[simp] theorem getLog_set_self (s : State ι Λ) (t : ι) (l : Local) : getLog name (s.set t l) t = l := by
  simp [getLog, State.set]

theorem getLog_set_other (s : State ι Λ) {t u : ι} (h : u ≠ t) (l : Local) :
    getLog name (s.set t l) u = getLog name s u := by
  simp [getLog, State.set, Function.update_of_ne h]

@[simp] theorem set_log4j (s : State ι Λ) (t : ι) (l : Local) : (s.set t l).log4j = s.log4j := rfl

omit [DecidableEq ι] in
@[simp] theorem getLog_with_log4j (s : State ι Λ) (log4j : Λ) (t : ι) :
    getLog name { s with log4j := log4j } t = getLog name s t := rfl

theorem getLog_set_with_self (s : State ι Λ) (t : ι) (l : Local) (log4j : Λ) :
    getLog name { s.set t l with log4j := log4j } t = l := getLog_set_self s t l

theorem getLog_set_with_other (s : State ι Λ) {t u : ι} (h : u ≠ t) (l : Local) (log4j : Λ) :
    getLog name { s.set t l with log4j := log4j } u = getLog name s u := getLog_set_other s h l

end State

section Effects

theorem ne_of_mem_ancestors {n m : String} (h : n ∈ L.ancestors m) : n ≠ m := by
  rintro rfl
  have hlength := ((L.mem_ancestors_iff n n).mp h).length_le
  rw [List.length_append, List.length_singleton] at hlength
  omega

def attach (appenders : List Appender) : Effect → List Appender
  | .removeAllAppenders => []
  | .addAppender appender => appenders ++ [appender]
  | .callAppenders _ _ => appenders

theorem apply_appenders (n : String) (log4j : Λ) (e : Effect) :
    L.appenders (L.apply n log4j e) n = attach (L.appenders log4j n) e := by
  cases e with
  | removeAllAppenders => exact L.removeAllAppenders_appenders n log4j
  | addAppender appender => exact L.addAppender_appenders n log4j appender
  | callAppenders category line => exact L.callAppenders_appenders n log4j category line n

theorem apply_content_of_setup {e : Effect} {m : String} (h : e ∈ setup m) (n : String) (log4j : Λ) (f : F) :
    L.content (L.apply n log4j e) f = L.content log4j f := by
  simp only [setup, List.mem_cons, List.not_mem_nil, or_false] at h
  rcases h with rfl | rfl | rfl | rfl
  · exact L.removeAllAppenders_content n log4j f
  all_goals exact L.addAppender_content n log4j _ f

theorem environment_iff (level : Level) : L.ENVIRONMENT_INT ≤ L.toInt level ↔ level = .environment := by
  have hdebug := L.debug_lt_info
  have hinfo := L.info_lt_warn
  have hwarn := L.warn_lt_error
  cases level <;> simp only [Priority.toInt, Priority.ENVIRONMENT_INT, reduceCtorEq, iff_false, le_refl] <;>
    omega

theorem debug_le (level : Level) : L.DEBUG_INT ≤ L.toInt level := by
  have hdebug := L.debug_lt_info
  have hinfo := L.info_lt_warn
  have hwarn := L.warn_lt_error
  cases level <;> simp only [Priority.toInt, Priority.ENVIRONMENT_INT] <;> omega

def attached (n : String) : List Appender :=
  [createEnvFileAppender n, createFileAppender n, createConsoleAppender]

theorem attach_setup (n : String) (start : List Appender) : (setup n).foldl attach start = attached n := rfl

theorem output_attached (n : String) (f : F) (line : LogLine) :
    (attached n).flatMap (L.output L.file line f) = logged L n f line := by
  have henv : L.toInt .environment ≤ L.toInt line.level ↔ line.level = .environment :=
    environment_iff line.level
  have hfile : L.toInt .debug ≤ L.toInt line.level := debug_le line.level
  simp [attached, createEnvFileAppender, createFileAppender, createConsoleAppender, Priority.output, logged,
    henv, hfile]

theorem callAppenders_attached {category : String} {log4j : Λ}
    (h : L.appenders log4j category = attached category) (n : String) (f : F) (line : LogLine) :
    L.content (L.apply n log4j (.callAppenders category line)) f =
      L.content log4j f ++ logged L category f line := by
  rw [L.callAppenders_content, h, output_attached]

theorem callAppenders_detached {category : String} {log4j : Λ} (h : L.appenders log4j category = [])
    (n : String) (f : F) (line : LogLine) :
    L.content (L.apply n log4j (.callAppenders category line)) f = L.content log4j f := by
  rw [L.callAppenders_content, h, List.flatMap_nil, List.append_nil]

def Printing (L : Log4j Λ F) (n : String) (e : Effect) : Prop :=
  ∃ (category : String) (line : LogLine), category ∈ categories L n ∧ e = .callAppenders category line

theorem printing_of_mem_forcedLog {n : String} {lines : List LogLine} {e : Effect}
    (h : e ∈ lines.flatMap (forcedLog L n)) : Printing L n e := by
  obtain ⟨line, -, he⟩ := List.mem_flatMap.mp h
  obtain ⟨category, hcategory, rfl⟩ := List.mem_map.mp he
  exact ⟨category, line, hcategory, rfl⟩

end Effects

/-- A thread with a logger is in the middle of attaching its appenders, or has attached them all and
has only lines to print. -/
structure Attached (L : Log4j Λ F) (name : ι → String) (s : State ι Λ) (t : ι) : Prop where
  idle : (getLog name s t).created = false → (getLog name s t).pending = []
  progress : (getLog name s t).created = true →
    ∃ (start : List Appender) (finished todo prints : List Effect), setup (name t) = finished ++ todo ∧
    (getLog name s t).pending = todo ++ prints ∧ (∀ e ∈ prints, Printing L (name t) e) ∧
    L.appenders s.log4j (name t) = finished.foldl attach start

omit [DecidableEq ι] in
theorem Attached.congr {t : ι} (h : Attached L name s t) (hlog : getLog name s' t = getLog name s t)
    (happenders : L.appenders s'.log4j (name t) = L.appenders s.log4j (name t)) : Attached L name s' t := by
  constructor
  · rw [hlog]
    exact h.idle
  · rw [hlog, happenders]
    exact h.progress

section Steps
variable {t : ι}

theorem attached_call (h : Attached L name s t) (idle : (getLog name s t).pending = []) (c : Call) :
    Attached L name (s.set t ((getLog name s t).call L (name t) c)) t := by
  have hprints : ∀ e ∈ (newLines c (getLog name s t).log).flatMap (forcedLog L (name t)),
      Printing L (name t) e := fun e he => printing_of_mem_forcedLog he
  constructor
  · rw [getLog_set_self, Local.call]
    intro hcreated
    rw [Bool.or_eq_false_iff, Bool.not_eq_false'] at hcreated
    simp [hcreated.1, List.isEmpty_iff.mp hcreated.2]
  · rw [getLog_set_self, set_log4j, Local.call]
    intro hcreated
    cases hc : (getLog name s t).created with
    | true =>
      obtain ⟨start, finished, todo, prints, hsetup, hpending, -, happenders⟩ := h.progress hc
      rw [idle, eq_comm, List.append_eq_nil_iff] at hpending
      rw [hpending.1] at hsetup
      exact ⟨start, finished, [], _, hsetup, by simp, hprints, happenders⟩
    | false =>
      rw [hc, Bool.false_or, Bool.not_eq_true'] at hcreated
      exact ⟨L.appenders s.log4j (name t), [], setup (name t), _, rfl, by simp [hcreated], hprints, rfl⟩

omit [DecidableEq ι] in
theorem attached_next (h : Attached L name s t) {e : Effect} {rest : List Effect}
    (next : (getLog name s t).pending = e :: rest) :
    (getLog name s t).created = true ∧
    ((∃ (start : List Appender) (finished todo prints : List Effect), setup (name t) = finished ++ e :: todo ∧
        rest = todo ++ prints ∧ (∀ e ∈ prints, Printing L (name t) e) ∧
        L.appenders s.log4j (name t) = finished.foldl attach start) ∨
      Printing L (name t) e ∧ (∀ e ∈ rest, Printing L (name t) e) ∧
        L.appenders s.log4j (name t) = attached (name t)) := by
  have hcreated : (getLog name s t).created = true := by
    by_contra hnot
    rw [h.idle (Bool.not_eq_true _ ▸ hnot)] at next
    cases next
  refine ⟨hcreated, ?_⟩
  obtain ⟨start, finished, todo, prints, hsetup, hpending, hprints, happenders⟩ := h.progress hcreated
  rw [next] at hpending
  cases todo with
  | nil =>
    rw [List.nil_append] at hpending
    rw [List.append_nil] at hsetup
    rw [← hsetup, attach_setup] at happenders
    rw [← hpending, List.forall_mem_cons] at hprints
    exact .inr ⟨hprints.1, hprints.2, happenders⟩
  | cons e' todo =>
    obtain ⟨rfl, hrest⟩ := List.cons.inj hpending
    exact .inl ⟨start, finished, todo, prints, hsetup, hrest, hprints, happenders⟩

theorem attached_effect (h : Attached L name s t) {e : Effect} {rest : List Effect}
    (next : (getLog name s t).pending = e :: rest) :
    Attached L name
      { s.set t { getLog name s t with pending := rest } with log4j := L.apply (name t) s.log4j e } t := by
  obtain ⟨hcreated, hcases⟩ := attached_next h next
  constructor
  · rw [getLog_with_log4j, getLog_set_self]
    intro hnot
    rw [hcreated] at hnot
    cases hnot
  · rw [getLog_with_log4j, getLog_set_self]
    intro _
    rw [apply_appenders]
    rcases hcases with ⟨start, finished, todo, prints, hsetup, hrest, hprints, happenders⟩ |
      ⟨⟨category, line, -, rfl⟩, hprints, happenders⟩
    · refine ⟨start, finished ++ [e], todo, prints, ?_, hrest, hprints, ?_⟩
      · rw [hsetup, List.append_assoc]
        rfl
      · rw [happenders, List.foldl_append]
        rfl
    · exact ⟨[], setup (name t), [], rest, (List.append_nil _).symm, rfl, hprints, happenders⟩

theorem attached_step (hname : ∀ u, name u = name t → u = t) (h : Attached L name s t)
    (hstep : Step L name s a s') : Attached L name s' t := by
  cases hstep with
  | @call u c idle =>
    by_cases htu : t = u
    · subst htu
      exact attached_call h idle c
    · exact h.congr (getLog_set_other s htu _) rfl
  | @effect u e rest next =>
    by_cases htu : t = u
    · subst htu
      exact attached_effect h next
    · have hother : name t ≠ name u := fun heq => htu (hname u heq.symm).symm
      exact h.congr (getLog_set_other s htu _) (L.other_appenders _ s.log4j e _ hother)
  | @startSeparateLog u idle =>
    by_cases htu : t = u
    · subst htu
      constructor
      · rw [getLog_with_log4j, getLog_set_self]
        exact h.idle
      · rw [getLog_with_log4j, getLog_set_self, L.truncate_appenders]
        exact h.progress
    · exact h.congr (getLog_set_other s htu _) (L.truncate_appenders _ _ _)
  | @dumpSeparateLog u idle =>
    by_cases htu : t = u
    · subst htu
      constructor
      · rw [getLog_set_self]
        exact h.idle
      · rw [getLog_set_self]
        exact h.progress
    · exact h.congr (getLog_set_other s htu _) rfl

end Steps

structure Separate (L : Log4j Λ F) (name : ι → String) : Prop where
  injective : Function.Injective name
  unrelated : ∀ t u, name t ∉ L.ancestors (name u)

def Unused (L : Log4j Λ F) (name : ι → String) (s : State ι Λ) : Prop :=
  ∀ n, (∀ t, name t ≠ n) → L.appenders s.log4j n = []

theorem unused_step (h : Unused L name s) (hstep : Step L name s a s') : Unused L name s' := by
  intro n hn
  cases hstep with
  | @effect t e rest next => exact (L.other_appenders _ s.log4j e n (hn t).symm).trans (h n hn)
  | startSeparateLog idle => exact (L.truncate_appenders _ s.log4j n).trans (h n hn)
  | _ => exact h n hn

structure Sound (L : Log4j Λ F) (name : ι → String) (s : State ι Λ) : Prop where
  attached : ∀ t, Attached L name s t
  unused : Unused L name s

omit [DecidableEq ι] in
theorem attached_initial (files : F → List LogLine) (t : ι) : Attached L name (initial L files) t :=
  ⟨fun _ => rfl, fun h => by cases h⟩

omit [DecidableEq ι] in
theorem unused_initial (files : F → List LogLine) : Unused L name (initial L files) :=
  fun n _ => L.start_appenders files n

theorem sound_step (hname : Function.Injective name) (h : Sound L name s) (hstep : Step L name s a s') :
    Sound L name s' :=
  ⟨fun t => attached_step (fun _ => @hname _ t) (h.attached t) hstep, unused_step h.unused hstep⟩

theorem files_step (hname : Separate L name) (h : Sound L name s) (hstep : Step L name s a s') (f : F) :
    L.content s'.log4j f = written L name f (L.content s.log4j f) a := by
  cases hstep with
  | call idle => rfl
  | @effect t e rest next =>
    obtain ⟨-, ⟨start, finished, todo, prints, hsetup, -⟩ |
      ⟨⟨category, line, hcategory, rfl⟩, -, happenders⟩⟩ := attached_next (h.attached t) next
    · have hmem : e ∈ setup (name t) := by simp [hsetup]
      have hkeep : written L name f (L.content s.log4j f) (.effect t e) = L.content s.log4j f := by
        cases e with
        | callAppenders category line => simp [setup] at hmem
        | _ => rfl
      rw [hkeep]
      exact apply_content_of_setup hmem (name t) s.log4j f
    · by_cases hown : category = name t
      · subst hown
        rw [written, if_pos rfl]
        exact callAppenders_attached happenders (name t) f line
      · have hancestor : category ∈ L.ancestors (name t) := (List.mem_cons.mp hcategory).resolve_left hown
        have hforeign : ∀ u, name u ≠ category := by
          rintro u rfl
          exact hname.unrelated u t hancestor
        rw [written, if_neg hown]
        exact callAppenders_detached (h.unused category hforeign) (name t) f line
  | @startSeparateLog t idle => exact L.truncate_content (getLogFile (name t)) s.log4j f
  | dumpSeparateLog idle => rfl

theorem files_trace (hname : Separate L name) {actions : List (Action ι)}
    (h : Trace (Step L name) s actions s') (hs : Sound L name s) (f : F) :
    L.content s'.log4j f = actions.foldl (written L name f) (L.content s.log4j f) := by
  induction h with
  | nil s => rfl
  | cons next rest ih =>
    rw [List.foldl_cons, ← files_step hname hs next f]
    exact ih (sound_step hname.injective hs next)

section Counterexamples
variable {t u : ι}

theorem trace_effects (L : Log4j Λ F) (t : ι) (es rest : List Effect) (s : State ι Λ)
    (h : (getLog name s t).pending = es ++ rest) :
    ∃ s', Trace (Step L name) s (es.map (.effect t)) s' ∧ (getLog name s' t).pending = rest ∧
      (∀ u, u ≠ t → getLog name s' u = getLog name s u) ∧
      s'.log4j = es.foldl (L.apply (name t)) s.log4j := by
  induction es generalizing s with
  | nil => exact ⟨s, .nil s, h, fun _ _ => rfl, rfl⟩
  | cons e es ih =>
    obtain ⟨s', htrace, hpending, hother, hlog4j⟩ :=
      ih { s.set t { getLog name s t with pending := es ++ rest } with log4j := L.apply (name t) s.log4j e }
        (by rw [getLog_with_log4j, getLog_set_self])
    refine ⟨s', .cons (.effect h) htrace, hpending, ?_, hlog4j⟩
    intro u hu
    rw [hother u hu, getLog_with_log4j, getLog_set_other s hu]

theorem foldl_apply_appenders (n : String) (es : List Effect) (log4j : Λ) :
    L.appenders (es.foldl (L.apply n) log4j) n = es.foldl attach (L.appenders log4j n) := by
  induction es generalizing log4j with
  | nil => rfl
  | cons e es ih => rw [List.foldl_cons, ih, apply_appenders, List.foldl_cons]

theorem foldl_apply_other {n m : String} (h : m ≠ n) (es : List Effect) (log4j : Λ) :
    L.appenders (es.foldl (L.apply n) log4j) m = L.appenders log4j m := by
  induction es generalizing log4j with
  | nil => rfl
  | cons e es ih => rw [List.foldl_cons, ih, L.other_appenders _ _ _ _ h]

def Lossless (L : Log4j Λ F) (name : ι → String) : Prop :=
  ∀ (files : F → List LogLine) (actions : List (Action ι)) (s : State ι Λ),
    Trace (Step L name) (initial L files) actions s →
    ∀ f, L.content s.log4j f = actions.foldl (written L name f) (files f)

theorem Lossless.step (h : Lossless L name) {files : F → List LogLine} {actions : List (Action ι)}
    (htrace : Trace (Step L name) (initial L files) actions s) (hstep : Step L name s a s') (f : F) :
    L.content s'.log4j f = written L name f (L.content s.log4j f) a := by
  rw [h files (actions ++ [a]) s' (htrace.append (.cons hstep (.nil s'))), List.foldl_append,
    ← h files actions s htrace]
  rfl

def firstLine (threadName : String) : LogLine := ⟨.info, "[" ++ threadName ++ "] " ++ ""⟩

theorem call_fresh {threadName : String} {c : Call} {line : LogLine}
    (h : newLines c (fresh threadName) = [line]) :
    ((initialValue threadName).call L threadName c).pending =
      setup threadName ++ forcedLog L threadName line := by
  simp [Local.call, initialValue, h]

theorem trace_setup (L : Log4j Λ F) (t : ι) (s : State ι Λ) (h : getLog name s t = initialValue (name t))
    {c : Call} {line : LogLine} (hline : newLines c (fresh (name t)) = [line]) :
    ∃ s', Trace (Step L name) s (.call t c :: (setup (name t)).map (.effect t)) s' ∧
      (getLog name s' t).pending = forcedLog L (name t) line ∧
      (∀ u, u ≠ t → getLog name s' u = getLog name s u) ∧
      L.appenders s'.log4j (name t) = attached (name t) ∧
      ∀ n, n ≠ name t → L.appenders s'.log4j n = L.appenders s.log4j n := by
  have hcall : (getLog name (s.set t ((getLog name s t).call L (name t) c)) t).pending =
      setup (name t) ++ forcedLog L (name t) line := by
    rw [getLog_set_self, h, call_fresh hline]
  obtain ⟨s', htrace, hpending, hother, hlog4j⟩ := trace_effects L t (setup (name t)) _ _ hcall
  refine ⟨s', .cons (.call (by rw [h]; rfl)) htrace, hpending, ?_, ?_, ?_⟩
  · intro u hu
    rw [hother u hu, getLog_set_other s hu]
  · rw [hlog4j, foldl_apply_appenders, attach_setup]
  · intro n hn
    rw [hlog4j, foldl_apply_other hn, set_log4j]

theorem newLines_logInfo (threadName : String) :
    newLines (.logInfo "") (fresh threadName) = [firstLine threadName] := rfl

theorem logged_ne_nil (n : String) (line : LogLine) : logged L n (L.file (getLogFile n)) line ≠ [] := by
  rw [logged, if_pos rfl]
  exact List.append_ne_nil_of_right_ne_nil _ (List.cons_ne_nil line [])

theorem injective_of_lossless (h : Lossless L name) : Function.Injective name := by
  intro t u hname
  by_contra htu
  obtain ⟨s₁, htrace₁, hpending₁, hother₁, -⟩ :=
    trace_setup L t (initial L fun _ => []) rfl (newLines_logInfo (name t))
  have hfresh : getLog name s₁ u = initialValue (name u) := hother₁ u (Ne.symm htu)
  -- the second thread of the name detaches the appenders before the first has printed its line
  have hpending₂ : (getLog name (s₁.set u ((getLog name s₁ u).call L (name u) (.logInfo ""))) u).pending =
      [.removeAllAppenders] ++ ((setup (name u)).tail ++ forcedLog L (name u) (firstLine (name u))) := by
    rw [getLog_set_self, hfresh, call_fresh (newLines_logInfo (name u))]
    rfl
  obtain ⟨s₃, htrace₃, -, hother₃, hlog4j₃⟩ := trace_effects L u [.removeAllAppenders] _ _ hpending₂
  have hcall : Step L name s₁ (.call u (.logInfo "")) _ := .call (by rw [hfresh]; rfl)
  have hnext : (getLog name s₃ t).pending = .callAppenders (name t) (firstLine (name t)) ::
      (L.ancestors (name t)).map (fun category => .callAppenders category (firstLine (name t))) := by
    rw [hother₃ t htu, getLog_set_other s₁ htu, hpending₁]
    rfl
  have hdetached : L.appenders s₃.log4j (name t) = [] := by
    rw [hlog4j₃, hname]
    exact L.removeAllAppenders_appenders _ _
  have hkept := h.step (htrace₁.append (.cons hcall htrace₃)) (.effect hnext) (L.file (getLogFile (name t)))
  rw [written, if_pos rfl, callAppenders_detached hdetached] at hkept
  exact logged_ne_nil _ _ (List.self_eq_append_right.mp hkept)

theorem trace_ancestor (hancestor : name t ∈ L.ancestors (name u)) :
    ∃ (actions : List (Action ι)) (s : State ι Λ) (rest : List Effect),
      Trace (Step L name) (initial L fun _ => []) actions s ∧
      (getLog name s u).pending = .callAppenders (name t) (firstLine (name u)) :: rest ∧
      L.appenders s.log4j (name t) = attached (name t) := by
  have hnames : name t ≠ name u := ne_of_mem_ancestors hancestor
  have hut : u ≠ t := by
    rintro rfl
    exact hnames rfl
  obtain ⟨s₁, htrace₁, -, hother₁, happenders₁, -⟩ :=
    trace_setup L t (initial L fun _ => []) rfl (newLines_logInfo (name t))
  obtain ⟨s₂, htrace₂, hpending₂, -, -, hkept₂⟩ :=
    trace_setup L u s₁ (hother₁ u hut) (newLines_logInfo (name u))
  obtain ⟨before, rest, hsplit⟩ := List.append_of_mem (List.mem_cons_of_mem (name u) hancestor)
  rw [forcedLog, categories, hsplit, List.map_append, List.map_cons] at hpending₂
  obtain ⟨s₃, htrace₃, hpending₃, -, hlog4j₃⟩ := trace_effects L u _ _ s₂ hpending₂
  refine ⟨_, s₃, _, htrace₁.append (htrace₂.append htrace₃), hpending₃, ?_⟩
  rw [hlog4j₃, foldl_apply_other hnames, hkept₂ _ hnames, happenders₁]

theorem unrelated_of_lossless (h : Lossless L name) (t u : ι) : name t ∉ L.ancestors (name u) := by
  intro hancestor
  obtain ⟨actions, s, rest, htrace, hpending, hattached⟩ := trace_ancestor hancestor
  have hkept := h.step htrace (.effect hpending) (L.file (getLogFile (name t)))
  rw [written, if_neg (ne_of_mem_ancestors hancestor), callAppenders_attached hattached] at hkept
  exact logged_ne_nil _ _ (List.append_right_eq_self.mp hkept)

end Counterexamples

end EBank.BFLogger
