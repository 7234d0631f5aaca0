import EBank.AsyncRequests

namespace EBank.AsyncRequests

open AsyncTransactionService EBankApplication KafkaTopics ThreadPool Transition

variable {ι A : Type} [DecidableEq ι]

def callsOf (i : ι) (jobs : List (Job ι)) : List (Job ι) := jobs.filter (fun j => j.request = i)

def Submitted (i : ι) (calls : List (Job ι)) : Phase A → Prop
  | .idle => calls = []
  | .sending => calls = [.send i]
  | .waiting => calls = [.send i, .find i]
  | .responded _ => calls = [.send i, .find i]
  | .failed => calls = [] ∨ calls = [.send i]

structure Tracked (s : State ι A) : Prop where
  submitted : ∀ i, Submitted i (callsOf i s.pool.accepted) (s.phase i)
  messages : ∀ i, s.buffered.count i + s.topics.input.countP (fun m => m.sender = some i) ≤
    s.pool.finished.count (.send i)
  polled : ∀ i, s.topics.returned i ≠ none ↔ .find i ∈ s.pool.finished
  responses : ∀ i page, s.phase i = .responded page → s.topics.returned i = some page

theorem submitted_update {i : ι} {phase : ι → Phase A} {accepted calls : List (Job ι)} {p : Phase A}
    (h : ∀ k, Submitted k (callsOf k accepted) (phase k)) (hcalls : ∀ j ∈ calls, j.request = i)
    (hi : Submitted i (callsOf i accepted ++ calls) p) (k : ι) :
    Submitted k (callsOf k (accepted ++ calls)) (Function.update phase i p k) := by
  have happend : callsOf k (accepted ++ calls) = callsOf k accepted ++ callsOf k calls :=
    List.filter_append ..
  rw [happend]
  by_cases hk : k = i
  · subst hk
    have hall : callsOf k calls = calls := List.filter_eq_self.mpr (by simpa using hcalls)
    rwa [Function.update_self, hall]
  · have hnone : callsOf k calls = [] := by
      apply List.filter_eq_nil_iff.mpr
      intro j hj
      simpa [hcalls j hj] using Ne.symm hk
    rw [Function.update_of_ne hk, hnone, List.append_nil]
    exact h k

theorem submitted_phase {i : ι} {phase : ι → Phase A} {accepted : List (Job ι)} {p : Phase A}
    (h : ∀ k, Submitted k (callsOf k accepted) (phase k)) (hi : Submitted i (callsOf i accepted) p) (k : ι) :
    Submitted k (callsOf k accepted) (Function.update phase i p k) := by
  by_cases hk : k = i
  · subst hk
    rwa [Function.update_self]
  · rw [Function.update_of_ne hk]
    exact h k

section
variable {store : Store A} {requests : ι → Request} {s s' : State ι A} {a : Action ι A}

theorem submitted_step (h : ∀ i, Submitted i (callsOf i s.pool.accepted) (s.phase i))
    (hstep : Step store requests s a s') (k : ι) :
    Submitted k (callsOf k s'.pool.accepted) (s'.phase k) := by
  cases hstep with
  | @callSend i pool idle accepted =>
    have hi := h i
    rw [idle] at hi
    rw [(Pool.execute_cases accepted).1]
    apply submitted_update h (by simp [Job.request])
    rw [hi]
    rfl
  | @callSendRejected i idle rejected =>
    have hi := h i
    rw [idle] at hi
    exact submitted_phase h (show Submitted i _ .failed from .inl hi) k
  | @callFind i pool sending accepted =>
    have hi := h i
    rw [sending] at hi
    rw [(Pool.execute_cases accepted).1]
    apply submitted_update h (by simp [Job.request])
    rw [hi]
    rfl
  | @callFindRejected i sending rejected =>
    have hi := h i
    rw [sending] at hi
    exact submitted_phase h (show Submitted i _ .failed from .inr hi) k
  | @respond i page waiting returned =>
    have hi := h i
    rw [waiting] at hi
    exact submitted_phase h (show Submitted i _ (.responded page) from hi) k
  | _ => exact h k

omit [DecidableEq ι] in
theorem submitted_begins {i : ι} {calls : List (Job ι)} {p : Phase A} (h : Submitted i calls p) :
    calls <+: [.send i, .find i] := by
  cases p with
  | idle => exact h ▸ List.nil_prefix
  | sending => exact h ▸ ⟨[.find i], rfl⟩
  | waiting => exact h ▸ List.prefix_rfl
  | responded page => exact h ▸ List.prefix_rfl
  | failed =>
    rcases h with rfl | rfl
    · exact List.nil_prefix
    · exact ⟨[.find i], rfl⟩

theorem accepted_nodup (h : ∀ i, Submitted i (callsOf i s.pool.accepted) (s.phase i)) :
    s.pool.accepted.Nodup := by
  apply List.nodup_iff_count_le_one.mpr
  intro j
  have hpair : [Job.send j.request, Job.find j.request].Nodup := by simp
  have hcalls := hpair.sublist (submitted_begins (h j.request)).sublist
  calc s.pool.accepted.count j = (callsOf j.request s.pool.accepted).count j :=
        (List.count_filter (by simp)).symm
    _ ≤ 1 := List.nodup_iff_count_le_one.mp hcalls j

theorem Tracked.nodup (h : Tracked s) : (s.pool.finished ++ (s.pool.active ++ s.pool.queue)).Nodup :=
  s.pool.jobs_perm.nodup_iff.mp (accepted_nodup h.submitted)

theorem Tracked.not_finished (h : Tracked s) {j : Job ι} (hj : j ∈ s.pool.active) :
    j ∉ s.pool.finished := by
  intro hfinished
  exact List.disjoint_of_nodup_append h.nodup hfinished (List.mem_append_left _ hj)

theorem Tracked.not_returned (h : Tracked s) {i : ι} (hi : .find i ∈ s.pool.active) :
    s.topics.returned i = none := by
  by_contra hne
  exact h.not_finished hi ((h.polled i).mp hne)

theorem messages_step (h : Tracked s) (hstep : Step store requests s a s') (k : ι) :
    s'.buffered.count k + s'.topics.input.countP (fun m => m.sender = some k) ≤
      s'.pool.finished.count (.send k) := by
  have hk := h.messages k
  cases hstep with
  | callSend idle accepted => rwa [(Pool.execute_cases accepted).2.1]
  | callFind sending accepted => rwa [(Pool.execute_cases accepted).2.1]
  | @sendMessage i busy =>
    simp only [Pool.finish, List.count_append, List.count_singleton, beq_iff_eq, Job.send.injEq] at hk ⊢
    omega
  | @deliver i sent =>
    have hsent : k = i → 0 < s.buffered.count k := fun hki => List.count_pos_iff.mpr (hki ▸ sent)
    simp only [List.count_erase, List.countP_append, List.countP_singleton, send, beq_iff_eq,
      Option.some_inj, decide_eq_true_eq] at hk ⊢
    by_cases hki : i = k
    · have hpos := hsent hki.symm
      simp only [if_pos hki]
      omega
    · simp only [if_neg hki]
      omega
  | @lose i sent =>
    have hle : (s.buffered.erase i).count k ≤ s.buffered.count k := List.erase_sublist.count_le k
    exact (Nat.add_le_add_right hle _).trans hk
  | answer answered =>
    cases answered with
    | answer message unanswered exact => exact hk
  | poll busy fresh =>
    simp only [Pool.finish, List.count_append]
    omega
  | _ => exact hk

theorem polled_step (h : Tracked s) (hstep : Step store requests s a s') (k : ι) :
    s'.topics.returned k ≠ none ↔ .find k ∈ s'.pool.finished := by
  have hk := h.polled k
  cases hstep with
  | callSend idle accepted => rwa [(Pool.execute_cases accepted).2.1]
  | callFind sending accepted => rwa [(Pool.execute_cases accepted).2.1]
  | sendMessage busy => simpa [Pool.finish] using hk
  | answer answered =>
    cases answered with
    | answer message unanswered exact => exact hk
  | @poll i randomUUID available busy fresh =>
    by_cases hki : k = i
    · simp [Pool.finish, hki]
    · simpa [Pool.finish, hki] using hk
  | _ => exact hk

theorem responses_step (h : Tracked s) (hstep : Step store requests s a s') (k : ι)
    (page : Page (Transaction A)) (hpage : s'.phase k = .responded page) :
    s'.topics.returned k = some page := by
  have hk := h.responses k page
  have hother {i : ι} {p : Phase A} (hp : p ≠ .responded page)
      (h' : Function.update s.phase i p k = .responded page) : s.phase k = .responded page := by
    by_cases hki : k = i
    · subst hki
      rw [Function.update_self] at h'
      exact absurd h' hp
    · rwa [Function.update_of_ne hki] at h'
  cases hstep with
  | callSend idle accepted => exact hk (hother (by simp) hpage)
  | callSendRejected idle rejected => exact hk (hother (by simp) hpage)
  | callFind sending accepted => exact hk (hother (by simp) hpage)
  | callFindRejected sending rejected => exact hk (hother (by simp) hpage)
  | answer answered =>
    cases answered with
    | answer message unanswered exact => exact hk hpage
  | @poll i randomUUID available busy fresh =>
    have hreturned := hk hpage
    by_cases hki : k = i
    · subst hki
      rw [h.not_returned busy] at hreturned
      cases hreturned
    · simpa [hki] using hreturned
  | @respond i page' waiting returned =>
    by_cases hki : k = i
    · subst hki
      have hsame : page' = page := by simpa using hpage
      rwa [← hsame]
    · simp only [Function.update_of_ne hki] at hpage
      exact hk hpage
  | _ => exact hk hpage

theorem tracked_step (h : Tracked s) (hstep : Step store requests s a s') : Tracked s' where
  submitted := submitted_step h.submitted hstep
  messages := messages_step h hstep
  polled := polled_step h hstep
  responses := responses_step h hstep

theorem tracked_initial (earlier : List TransactionRequest) (content : List (ConsumedRecord A))
    (committed : String → Option ℕ) :
    Tracked (initial (KafkaTopics.initial earlier content committed) : State ι A) where
  submitted _ := rfl
  messages i := by simp [initial, KafkaTopics.initial, List.countP_eq_zero, Pool.empty]
  polled i := by simp [initial, KafkaTopics.initial, Pool.empty]
  responses i page h := by cases h

theorem tracked_of_run {allowed : State ι A → Action ι A → Prop} (earlier : List TransactionRequest)
    (content : List (ConsumedRecord A)) (committed : String → Option ℕ)
    (hrun : Run (Step store requests) allowed (initial (KafkaTopics.initial earlier content committed)) s) :
    Tracked s := by
  apply hrun.invariant (tracked_initial earlier content committed)
  intro s a s' h _ hstep
  exact tracked_step h hstep

theorem Tracked.unsent (h : Tracked s) {i : ι} (hi : i ∈ s.buffered) :
    ∀ m ∈ s.topics.input, m.sender ≠ some i := by
  have hmessages := h.messages i
  have hbuffered : 0 < s.buffered.count i := List.count_pos_iff.mpr hi
  have hfinished : s.pool.finished.count (.send i) ≤ 1 :=
    List.nodup_iff_count_le_one.mp (List.Nodup.of_append_left h.nodup) _
  have hnone : s.topics.input.countP (fun m => m.sender = some i) = 0 := by omega
  simpa using List.countP_eq_zero.mp hnone

def Action.onTopics : Action ι A → Option (KafkaTopics.Action ι A)
  | .deliver i => some (.send i)
  | .answer n records => some (.answer n records)
  | .poll i randomUUID available => some (.poll i randomUUID available)
  | _ => none

theorem topics_step (h : Tracked s) (hstep : Step store requests s a s') :
    s'.topics = s.topics ∨
      ∃ b, a.onTopics = some b ∧ KafkaTopics.Step store requests s.topics b s'.topics := by
  cases hstep with
  | deliver sent => exact .inr ⟨_, rfl, .send (h.unsent sent)⟩
  | answer answered => exact .inr ⟨_, rfl, answered⟩
  | poll busy fresh => exact .inr ⟨_, rfl, .poll (h.not_returned busy) fresh⟩
  | _ => exact .inl rfl

theorem topics_run {allowed : KafkaTopics.State ι A → KafkaTopics.Action ι A → Prop}
    (earlier : List TransactionRequest) (content : List (ConsumedRecord A)) (committed : String → Option ℕ)
    (hrun : Run (Step store requests) (fun s a => ∀ b, a.onTopics = some b → allowed s.topics b)
      (initial (KafkaTopics.initial earlier content committed)) s) :
    Run (KafkaTopics.Step store requests) allowed (KafkaTopics.initial earlier content committed) s.topics := by
  apply hrun.simulates State.topics (tracked_initial earlier content committed)
  · intro s a s' h hstep
    exact tracked_step h hstep
  · intro s a s' h hallowed hstep
    rcases topics_step h hstep with hsame | ⟨b, hb, hnext⟩
    · exact .inl hsame
    · exact .inr ⟨b, hallowed b hb, hnext⟩

omit [DecidableEq ι] in
theorem submitted_find {i : ι} {calls : List (Job ι)} {p : Phase A} (h : Submitted i calls p)
    (hmem : .find i ∈ calls) :
    calls = [.send i, .find i] ∧ (p = .waiting ∨ ∃ page, p = .responded page) := by
  cases p with
  | idle =>
    rw [show calls = [] from h] at hmem
    cases hmem
  | sending =>
    rw [show calls = [.send i] from h, List.mem_singleton] at hmem
    cases hmem
  | waiting => exact ⟨h, .inl rfl⟩
  | responded page => exact ⟨h, .inr ⟨page, rfl⟩⟩
  | failed => rcases h with rfl | rfl <;> simp at hmem

theorem mem_callsOf_iff {i : ι} {jobs : List (Job ι)} {j : Job ι} :
    j ∈ callsOf i jobs ↔ j ∈ jobs ∧ j.request = i := by
  rw [callsOf, List.mem_filter, decide_eq_true_eq]

omit [DecidableEq ι] in
theorem mem_accepted_iff {j : Job ι} :
    j ∈ s.pool.accepted ↔ j ∈ s.pool.finished ∨ j ∈ s.pool.active ∨ j ∈ s.pool.queue := by
  rw [s.pool.jobs_perm.mem_iff, List.mem_append, List.mem_append]

theorem Tracked.find_accepted (h : Tracked s) {i : ι} (hfind : .find i ∈ s.pool.accepted) :
    callsOf i s.pool.accepted = [.send i, .find i] ∧ (s.phase i = .waiting ∨ ∃ page, s.phase i = .responded page) :=
  submitted_find (h.submitted i) (mem_callsOf_iff.mpr ⟨hfind, rfl⟩)

theorem Tracked.queued (h : Tracked s) {i : ι} (hfind : .find i ∈ s.pool.accepted)
    (hsend : .send i ∈ s.pool.queue) : .find i ∈ s.pool.queue := by
  apply Pool.queue_of_filter (by simp) rfl (h.find_accepted hfind).1 hsend
  simp [Job.request]

structure Accounted (s : State ι A) : Prop where
  sent_once : ∀ i, s.topics.input.countP (fun m => m.sender = some i) ≤ 1
  sent : ∀ i, Sent s.topics i → .send i ∈ s.pool.finished
  polled : ∀ i, s.topics.returned i ≠ none ↔ .find i ∈ s.pool.finished
  polled_after : ∀ i, .find i ∈ s.pool.active ∨ .find i ∈ s.pool.finished →
    .send i ∈ s.pool.active ∨ .send i ∈ s.pool.finished
  responded : ∀ i page, s.phase i = .responded page → s.topics.returned i = some page
  failed : ∀ i, s.phase i = .failed → s.topics.returned i = none

theorem Tracked.accounted (h : Tracked s) : Accounted s where
  sent_once i := by
    have hmessages := h.messages i
    have hfinished : s.pool.finished.count (.send i) ≤ 1 :=
      List.nodup_iff_count_le_one.mp h.nodup.of_append_left _
    omega
  sent i hsent := by
    obtain ⟨m, hm, hi⟩ := hsent
    have hinput : 0 < s.topics.input.countP (fun m => m.sender = some i) :=
      List.countP_pos_iff.mpr ⟨m, hm, by simpa using hi⟩
    have hmessages := h.messages i
    apply List.count_pos_iff.mp
    omega
  polled := h.polled
  polled_after i hfind := by
    have haccepted : .find i ∈ s.pool.accepted := by
      apply mem_accepted_iff.mpr
      tauto
    have hqueue : .find i ∉ s.pool.queue := by
      intro hqueue
      rcases hfind with hactive | hfinished
      · exact List.disjoint_of_nodup_append h.nodup.of_append_right hactive hqueue
      · exact List.disjoint_of_nodup_append h.nodup hfinished (List.mem_append_right _ hqueue)
    have hsend : .send i ∈ callsOf i s.pool.accepted := by
      rw [(h.find_accepted haccepted).1]
      exact List.mem_cons_self
    rcases mem_accepted_iff.mp (mem_callsOf_iff.mp hsend).1 with hfinished | hactive | hsend
    · exact .inr hfinished
    · exact .inl hactive
    · exact absurd (h.queued haccepted hsend) hqueue
  responded := h.responses
  failed i hi := by
    by_contra hne
    have haccepted := mem_accepted_iff.mpr (.inl ((h.polled i).mp hne))
    rcases (h.find_accepted haccepted).2 with hwaiting | ⟨page, hpage⟩
    · simp [hwaiting] at hi
    · simp [hpage] at hi

theorem run_accounted {allowed : State ι A → Action ι A → Prop} (earlier : List TransactionRequest)
    (content : List (ConsumedRecord A)) (committed : String → Option ℕ)
    (hrun : Run (Step store requests) allowed (initial (KafkaTopics.initial earlier content committed)) s) :
    Accounted s :=
  (tracked_of_run earlier content committed hrun).accounted

end

def Careful (s : State (Fin 2) ℤ) (a : Action (Fin 2) ℤ) : Prop :=
  ∀ b, a.onTopics = some b → KafkaTopics.Undisturbed pair (fun _ _ => True) s.topics b

theorem careful_of_quiet (s : State (Fin 2) ℤ) (a : Action (Fin 2) ℤ) (ha : a.onTopics = none) :
    Careful s a := by
  intro b hb
  rw [ha] at hb
  cases hb

/-- Both requests are in the pool before the first message is handed over, and the second one polls the
answer to the first only. -/
theorem pair_responded : ∃ s : State (Fin 2) ℤ,
    Run (Step singlePayment pair) Careful (initial (KafkaTopics.initial [] [] fun _ => none)) s ∧
      (∀ i, ∃ page, s.phase i = .responded page) ∧ s.pool.jobs = [] := by
  have hstart : Run (Step singlePayment pair) Careful
      (initial (KafkaTopics.initial [] [] fun _ => none)) _ := .start
  have hsends := (hstart.step (careful_of_quiet _ (.callSend 0) rfl) (.callSend rfl rfl)).step
    (careful_of_quiet _ (.callSend 1) rfl) (.callSend rfl rfl)
  have hcalled := (hsends.step (careful_of_quiet _ (.callFind 0) rfl) (.callFind rfl rfl)).step
    (careful_of_quiet _ (.callFind 1) rfl) (.callFind rfl rfl)
  have hsent := (hcalled.step (careful_of_quiet _ (.sendMessage 0) rfl) (.sendMessage (by decide))).step
    (careful_of_quiet _ (.sendMessage 1) rfl) (.sendMessage (by decide))
  have htaken := hsent.step (careful_of_quiet _ .take rfl) (.take (by decide) rfl)
  have hdelivered := (htaken.step (a := Action.deliver 0) (by rintro b ⟨⟩; trivial) (.deliver (by decide))).step
    (a := Action.deliver 1) (by rintro b ⟨⟩; trivial) (.deliver (by decide))
  have hfirst := hdelivered.step (a := Action.answer 0 [[payment 1]]) (by rintro b ⟨⟩; trivial)
    (.answer (.answer rfl (by simp [initial, KafkaTopics.initial]) (by decide)))
  have hanswered := hfirst.step (a := Action.answer 1 [[payment 1]]) (by rintro b ⟨⟩; trivial)
    (.answer (.answer rfl (by simp [initial, KafkaTopics.initial]) (by decide)))
  have hundisturbed : ∀ r ∈ [(⟨some [payment 1], some 0⟩ : Record ℤ)],
      r.transactions ≠ [] → r.origin = some 0 := by
    simp
  have hpolled := (hanswered.step (a := Action.poll 0 "first" 1)
    (by rintro b ⟨⟩; exact ⟨trivial, 0, _, rfl, rfl, ⟨rfl, rfl⟩, hundisturbed⟩)
    (.poll (by decide) rfl)).step (a := Action.poll 1 "second" 1)
    (by rintro b ⟨⟩; exact ⟨trivial, 0, _, rfl, rfl, ⟨rfl, rfl⟩, hundisturbed⟩)
    (.poll (by decide) rfl)
  have hresponded := (hpolled.step (careful_of_quiet _ (.respond 0) rfl) (.respond rfl rfl)).step
    (careful_of_quiet _ (.respond 1) rfl) (.respond rfl rfl)
  refine ⟨_, hresponded, ?_, rfl⟩
  intro i
  by_cases hi : i = 1
  · exact ⟨_, by rw [hi]; rfl⟩
  · have hzero : i = 0 := by omega
    exact ⟨_, by rw [hzero]; rfl⟩

theorem pair_accounted : ∃ s : State (Fin 2) ℤ,
    (∀ i, ∃ page, s.phase i = .responded page) ∧ Accounted s := by
  obtain ⟨s, hrun, hresponded, -⟩ := pair_responded
  exact ⟨s, hresponded, run_accounted [] [] (fun _ => none) hrun⟩

end EBank.AsyncRequests
