import EBank.AsyncCapacity
import Mathlib.Algebra.Order.BigOperators.Group.List

namespace EBank.AsyncRequests

open AsyncTransactionService EBankApplication KafkaTopics ThreadPool Transition

variable {ι A : Type} [DecidableEq ι]

def Action.isCall : Action ι A → Bool
  | .callSend _ => true
  | _ => false

def Action.isInternal : Action ι A → Bool
  | .callFind _ => true
  | .take => true
  | .sendMessage _ => true
  | .poll _ _ _ => true
  | .respond _ => true
  | _ => false

def Phase.work : Phase A → ℕ
  | .sending => 4
  | .waiting => 1
  | _ => 0

def called : Job ι → Option ι
  | .send i => some i
  | .find _ => none

def pending (phase : ι → Phase A) (accepted : List (Job ι)) : ℕ :=
  ((accepted.filterMap called).map (fun i => (phase i).work)).sum

def load (pool : Pool asyncExecutor (Job ι)) : ℕ := 2 * pool.queue.length + pool.active.length

def work (s : State ι A) : ℕ := pending s.phase s.pool.accepted + load s.pool

section
variable {phase : ι → Phase A} {accepted : List (Job ι)} {i : ι} {p : Phase A}

omit [DecidableEq ι] in
theorem mem_called_iff : i ∈ accepted.filterMap called ↔ .send i ∈ accepted := by
  rw [List.mem_filterMap]
  constructor
  · rintro ⟨j, hj, hi⟩
    cases j with
    | send k => rwa [← Option.some.inj hi]
    | find k => cases hi
  · intro hi
    exact ⟨_, hi, rfl⟩

theorem pending_update_of_notMem (hi : .send i ∉ accepted) :
    pending (Function.update phase i p) accepted = pending phase accepted := by
  have hsame : ∀ k ∈ accepted.filterMap called, (Function.update phase i p k).work = (phase k).work := by
    intro k hk
    have hki : k ≠ i := by
      rintro rfl
      exact hi (mem_called_iff.mp hk)
    rw [Function.update_of_ne hki]
  rw [pending, List.map_congr_left hsame, pending]

theorem pending_call (hi : .send i ∉ accepted) :
    pending (Function.update phase i p) (accepted ++ [.send i]) = pending phase accepted + p.work := by
  have hsplit : pending (Function.update phase i p) (accepted ++ [.send i]) =
      pending (Function.update phase i p) accepted + p.work := by
    simp [pending, called]
  rw [hsplit, pending_update_of_notMem hi]

omit [DecidableEq ι] in
theorem pending_find : pending phase (accepted ++ [.find i]) = pending phase accepted := by
  simp [pending, called, List.filterMap_cons]

theorem pending_update_le {n : ℕ} (hi : .send i ∈ accepted) (hp : p.work + n ≤ (phase i).work) :
    pending (Function.update phase i p) accepted + n ≤ pending phase accepted := by
  have hle (k : ι) : (Function.update phase i p k).work ≤ (phase k).work := by
    by_cases hk : k = i
    · subst hk
      rw [Function.update_self]
      omega
    · rw [Function.update_of_ne hk]
  have hsum (requests : List ι) :
      (requests.map (fun k => (Function.update phase i p k).work)).sum ≤
        (requests.map (fun k => (phase k).work)).sum :=
    List.sum_le_sum fun k _ => hle k
  obtain ⟨before, after, hsplit⟩ := List.append_of_mem (mem_called_iff.mpr hi)
  have hbefore := hsum before
  have hafter := hsum after
  simp only [pending, hsplit, List.map_append, List.map_cons, List.sum_append, List.sum_cons,
    Function.update_self]
  omega

end

section
variable {pool pool' : Pool asyncExecutor (Job ι)} {j : Job ι}

omit [DecidableEq ι] in
theorem load_execute (h : pool.execute j = some pool') : load pool' ≤ load pool + 2 := by
  rcases (Pool.execute_cases h).2.2 with ⟨hactive, hqueue⟩ | ⟨hactive, hqueue⟩ <;>
    simp only [load, hactive, hqueue, List.length_append, List.length_singleton] <;> omega

omit [DecidableEq ι] in
theorem load_take {rest : List (Job ι)} (idle : pool.active.length < pool.threads)
    (waiting : pool.queue = j :: rest) : load (pool.take idle waiting) + 1 = load pool := by
  simp only [load, Pool.take, waiting, List.length_append, List.length_cons, List.length_nil]
  omega

theorem load_finish (busy : j ∈ pool.active) : load (pool.finish j busy) + 1 = load pool := by
  have hlength := List.length_erase_of_mem busy
  have hpos := List.length_pos_of_mem busy
  simp only [load, Pool.finish, hlength]
  omega

end

section
variable {store : Store A} {requests : ι → Request} {s s' : State ι A} {a : Action ι A}

theorem Tracked.send_accepted (h : Tracked s) {i : ι} (hi : InProgress s i) :
    .send i ∈ s.pool.accepted := by
  have hcalls := h.submitted i
  have hsend : .send i ∈ callsOf i s.pool.accepted := by
    rcases hi with hi | hi
    · rw [hi] at hcalls
      rw [show callsOf i s.pool.accepted = [.send i] from hcalls]
      exact List.mem_cons_self
    · rw [hi] at hcalls
      rw [show callsOf i s.pool.accepted = [.send i, .find i] from hcalls]
      exact List.mem_cons_self
  exact (mem_callsOf_iff.mp hsend).1

theorem Tracked.send_not_accepted (h : Tracked s) {i : ι} (hi : s.phase i = .idle) :
    .send i ∉ s.pool.accepted := by
  intro haccepted
  have hcalls := h.submitted i
  rw [hi] at hcalls
  have hmem : .send i ∈ callsOf i s.pool.accepted := mem_callsOf_iff.mpr ⟨haccepted, rfl⟩
  rw [show callsOf i s.pool.accepted = [] from hcalls] at hmem
  cases hmem

theorem work_step (h : Tracked s) (hstep : Step store requests s a s') :
    work s' + (if a.isInternal then 1 else 0) ≤ work s + (if a.isCall then 6 else 0) := by
  cases hstep with
  | @callSend i pool idle accepted =>
    have hload := load_execute accepted
    have hpending : pending (Function.update s.phase i .sending) _ = pending s.phase _ + 4 :=
      pending_call (h.send_not_accepted idle)
    rw [← (Pool.execute_cases accepted).1] at hpending
    simp only [work, hpending, Action.isInternal, Action.isCall, ↓reduceIte, Bool.false_eq_true]
    omega
  | @callSendRejected i idle rejected =>
    simp [work, pending_update_of_notMem (h.send_not_accepted idle), Action.isInternal, Action.isCall]
  | @callFind i pool sending accepted =>
    have hload := load_execute accepted
    have hpending : pending (Function.update s.phase i .waiting) s.pool.accepted + 3 ≤ _ :=
      pending_update_le (h.send_accepted (.inl sending)) (by rw [sending]; rfl)
    rw [← pending_find, ← (Pool.execute_cases accepted).1] at hpending
    simp only [work, Action.isInternal, Action.isCall, ↓reduceIte, Bool.false_eq_true]
    omega
  | @callFindRejected i sending rejected =>
    have hpending : pending (Function.update s.phase i .failed) s.pool.accepted + 4 ≤ _ :=
      pending_update_le (h.send_accepted (.inl sending)) (by rw [sending]; rfl)
    simp only [work, Action.isInternal, Action.isCall, ↓reduceIte, Bool.false_eq_true]
    omega
  | take idle waiting => exact (Nat.add_assoc _ _ _).trans_le (Nat.add_le_add_left (load_take idle waiting).le _)
  | sendMessage busy => exact Nat.add_le_add_left (load_finish busy).le _
  | deliver sent => exact le_rfl
  | lose sent => exact le_rfl
  | answer answered => exact le_rfl
  | poll busy fresh => exact Nat.add_le_add_left (load_finish busy).le _
  | @respond i page waiting returned =>
    have hpending : pending (Function.update s.phase i (.responded page)) s.pool.accepted + 1 ≤ _ :=
      pending_update_le (h.send_accepted (.inr waiting)) (by rw [waiting]; rfl)
    simp only [work, Action.isInternal, Action.isCall, ↓reduceIte, Bool.false_eq_true]
    omega

theorem Tracked.done_of_quiet (h : Tracked s) {randomUUID : String}
    (hfresh : s.topics.committed randomUUID = none)
    (hquiet : ∀ a s', Step store requests s a s' → a.isInternal = false) :
    (∀ i, ¬ InProgress s i) ∧ s.pool.jobs = [] := by
  have hactive : s.pool.active = [] := by
    by_contra hne
    obtain ⟨j, hj⟩ := List.exists_mem_of_ne_nil _ hne
    cases j with
    | send i => exact absurd (hquiet _ _ (.sendMessage hj)) (by simp [Action.isInternal])
    | find i =>
      have hpoll := hquiet (.poll i randomUUID 0) _ (.poll hj hfresh)
      simp [Action.isInternal] at hpoll
  have hqueue : s.pool.queue = [] := by
    by_contra hne
    rcases s.pool.active_or_idle hne with hbusy | hidle
    · exact hbusy hactive
    · obtain ⟨j, rest, hwaiting⟩ := List.exists_cons_of_ne_nil hne
      exact absurd (hquiet _ _ (.take hidle hwaiting)) (by simp [Action.isInternal])
  refine ⟨?_, by rw [Pool.jobs, hactive, hqueue, List.nil_append]⟩
  rintro i (hi | hi)
  · cases hexecute : s.pool.execute (.find i) with
    | none => exact absurd (hquiet _ _ (.callFindRejected hi hexecute)) (by simp [Action.isInternal])
    | some pool => exact absurd (hquiet _ _ (.callFind hi hexecute)) (by simp [Action.isInternal])
  · have hcalls := h.submitted i
    rw [hi] at hcalls
    have hfind : .find i ∈ callsOf i s.pool.accepted := by
      rw [show callsOf i s.pool.accepted = [.send i, .find i] from hcalls]
      simp
    have hfinished : .find i ∈ s.pool.finished := by
      simpa [mem_accepted_iff, hactive, hqueue] using (mem_callsOf_iff.mp hfind).1
    obtain ⟨page, hpage⟩ := Option.ne_none_iff_exists'.mp ((h.polled i).mpr hfinished)
    exact absurd (hquiet _ _ (.respond hi hpage)) (by simp [Action.isInternal])

theorem committed_step (hstep : Step store requests s a s') : s'.topics.committed = s.topics.committed := by
  cases hstep with
  | answer answered =>
    cases answered with
    | answer message unanswered exact => rfl
  | poll busy fresh => simp [commit, getAdditionalConsumerProperties]
  | _ => rfl

theorem requests_complete (earlier : List TransactionRequest) (content : List (ConsumedRecord A))
    (committed : String → Option ℕ) (as : List (Action ι A)) (hfresh : ∃ randomUUID, committed randomUUID = none)
    (htrace : Trace (Step store requests) (initial (KafkaTopics.initial earlier content committed)) as s) :
    as.countP Action.isInternal ≤ 6 * as.countP Action.isCall ∧
      ((∀ a s', Step store requests s a s' → a.isInternal = false) →
        (∀ i, s.phase i = .idle ∨ (∃ page, s.phase i = .responded page) ∨ s.phase i = .failed) ∧
          s.pool.jobs = []) := by
  have hinitial := tracked_initial (ι := ι) earlier content committed
  have hstep (s : State ι A) (a : Action ι A) (s' : State ι A) (h : Tracked s)
      (hnext : Step store requests s a s') : Tracked s' := tracked_step h hnext
  constructor
  · have hnone : work (initial (KafkaTopics.initial earlier content committed) : State ι A) = 0 := rfl
    have hwork : work s + as.countP Action.isInternal ≤ _ + 6 * as.countP Action.isCall :=
      htrace.measure_le work hinitial hstep fun s a s' h hnext => work_step h hnext
    omega
  · intro hquiet
    obtain ⟨randomUUID, hfree⟩ := hfresh
    have hcommitted : s.topics.committed = committed := by
      apply htrace.invariant (fun s => s.topics.committed = committed) rfl
      intro s a s' h hnext
      exact (committed_step hnext).trans h
    obtain ⟨hnone, hjobs⟩ := (htrace.invariant Tracked hinitial hstep).done_of_quiet (hcommitted ▸ hfree) hquiet
    refine ⟨?_, hjobs⟩
    intro i
    have hi := hnone i
    cases hphase : s.phase i with
    | idle => exact .inl rfl
    | sending => exact absurd (.inl hphase) hi
    | waiting => exact absurd (.inr hphase) hi
    | responded page => exact .inr (.inl ⟨page, rfl⟩)
    | failed => exact .inr (.inr rfl)

theorem quiet_of_finished (hresponded : ∀ i, ∃ page, s.phase i = .responded page) (hjobs : s.pool.jobs = [])
    (a : Action ι A) (s' : State ι A) (hstep : Step store requests s a s') : a.isInternal = false := by
  have hother {i : ι} {p : Phase A} (hi : s.phase i = p) (hp : ∀ page, p ≠ .responded page) : False := by
    obtain ⟨page, hpage⟩ := hresponded i
    exact hp page (hi.symm.trans hpage)
  cases hstep with
  | callFind sending accepted => exact (hother sending (by simp)).elim
  | callFindRejected sending rejected => exact (hother sending (by simp)).elim
  | take idle waiting =>
    rw [(List.append_eq_nil_iff.mp hjobs).2] at waiting
    cases waiting
  | sendMessage busy =>
    rw [(List.append_eq_nil_iff.mp hjobs).1] at busy
    cases busy
  | poll busy fresh =>
    rw [(List.append_eq_nil_iff.mp hjobs).1] at busy
    cases busy
  | respond waiting returned => exact (hother waiting (by simp)).elim
  | _ => rfl

end

theorem pair_completes : ∃ (as : List (Action (Fin 2) ℤ)) (s : State (Fin 2) ℤ),
    Trace (Step singlePayment pair) (initial (KafkaTopics.initial [] [] fun _ => none)) as s ∧
      (∀ i, ∃ page, s.phase i = .responded page) ∧
      as.countP Action.isInternal ≤ 6 * as.countP Action.isCall ∧
      (∀ i, s.phase i = .idle ∨ (∃ page, s.phase i = .responded page) ∨ s.phase i = .failed) ∧
      s.pool.jobs = [] := by
  obtain ⟨s, hrun, hresponded, hjobs⟩ := pair_responded
  obtain ⟨as, htrace⟩ := hrun.trace
  obtain ⟨hsteps, hdone⟩ := requests_complete [] [] (fun _ => none) as ⟨"uuid", rfl⟩ htrace
  exact ⟨as, s, htrace, hresponded, hsteps, hdone (quiet_of_finished hresponded hjobs)⟩

end EBank.AsyncRequests
