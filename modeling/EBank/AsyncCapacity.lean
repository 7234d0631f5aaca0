import EBank.AsyncSafety
import Mathlib.Data.Finset.Card
import Mathlib.Order.Interval.Finset.Nat

namespace EBank.AsyncRequests

open AsyncTransactionService EBankApplication KafkaTopics ThreadPool Transition

variable {ι A : Type} [DecidableEq ι]

def InProgress (s : State ι A) (i : ι) : Prop := s.phase i = .sending ∨ s.phase i = .waiting

def Admits (limit : ℕ) (s : State ι A) : Action ι A → Prop
  | .callSend _ => ∃ busy : Finset ι, (∀ i, InProgress s i → i ∈ busy) ∧ busy.card < limit
  | _ => True

theorem length_le_two_mul {queue : List (Job ι)} {busy : Finset ι} (hnodup : queue.Nodup)
    (hbusy : ∀ j ∈ queue, j.request ∈ busy) : queue.length ≤ 2 * busy.card := by
  have hsubset : queue.toFinset ⊆ busy.image .send ∪ busy.image .find := by
    intro j hj
    have hrequest := hbusy j (List.mem_toFinset.mp hj)
    cases j with
    | send i => exact Finset.mem_union_left _ (Finset.mem_image_of_mem _ hrequest)
    | find i => exact Finset.mem_union_right _ (Finset.mem_image_of_mem _ hrequest)
  calc queue.length = queue.toFinset.card := (List.toFinset_card_of_nodup hnodup).symm
    _ ≤ (busy.image Job.send ∪ busy.image Job.find).card := Finset.card_le_card hsubset
    _ ≤ (busy.image Job.send).card + (busy.image Job.find).card := Finset.card_union_le _ _
    _ ≤ busy.card + busy.card := Nat.add_le_add Finset.card_image_le Finset.card_image_le
    _ = 2 * busy.card := (Nat.two_mul _).symm

section
variable {store : Store A} {requests : ι → Request} {s s' : State ι A} {a : Action ι A}

theorem Tracked.inProgress_of_queue (h : Tracked s) (hfailed : ∀ i, s.phase i ≠ .failed) {j : Job ι}
    (hj : j ∈ s.pool.queue) : InProgress s j.request := by
  have haccepted : j ∈ s.pool.accepted := mem_accepted_iff.mpr (.inr (.inr hj))
  have hcalls := h.submitted j.request
  have hmem := mem_callsOf_iff.mpr ⟨haccepted, rfl⟩
  cases hphase : s.phase j.request with
  | idle =>
    rw [hphase] at hcalls
    rw [show callsOf j.request s.pool.accepted = [] from hcalls] at hmem
    cases hmem
  | sending => exact .inl hphase
  | waiting => exact .inr hphase
  | responded page =>
    rw [hphase] at hcalls
    have hreturned := h.responses _ _ hphase
    have hfinished : .find j.request ∈ s.pool.finished := (h.polled _).mp (by simp [hreturned])
    have hqueue : .find j.request ∈ s.pool.queue := by
      cases j with
      | send i => exact h.queued (mem_accepted_iff.mpr (.inl hfinished)) hj
      | find i => exact hj
    exact absurd (List.mem_append_right _ hqueue) (List.disjoint_of_nodup_append h.nodup hfinished)
  | failed => exact absurd hphase (hfailed _)

structure Within (limit : ℕ) (s : State ι A) : Prop where
  tracked : Tracked s
  none_failed : ∀ i, s.phase i ≠ .failed
  inProgress : ∃ busy : Finset ι, (∀ i, InProgress s i → i ∈ busy) ∧ busy.card ≤ limit

theorem Within.callSend_accepted {limit : ℕ} (hlimit : limit ≤ 50) (h : Within limit s) {i : ι}
    (hallowed : Admits limit s (.callSend i)) : s.pool.execute (.send i) ≠ none := by
  intro hnone
  obtain ⟨busy, hbusy, hcard⟩ := hallowed
  have hfull := ((Pool.execute_eq_none_iff _ _).mp hnone).2
  have hqueue : s.pool.queue.length ≤ 2 * busy.card := by
    apply length_le_two_mul h.tracked.nodup.of_append_right.of_append_right
    intro j hj
    exact hbusy _ (h.tracked.inProgress_of_queue h.none_failed hj)
  have hcapacity : asyncExecutor.queueCapacity = 100 := rfl
  omega

theorem Within.callFind_accepted {limit : ℕ} (hlimit : limit ≤ 50) (h : Within limit s) {i : ι}
    (hi : s.phase i = .sending) : s.pool.execute (.find i) ≠ none := by
  intro hnone
  obtain ⟨busy, hbusy, hcard⟩ := h.inProgress
  have hfull := ((Pool.execute_eq_none_iff _ _).mp hnone).2
  have hfind : .find i ∉ s.pool.queue := by
    intro hqueue
    rcases (h.tracked.find_accepted (mem_accepted_iff.mpr (.inr (.inr hqueue)))).2 with hw | ⟨page, hr⟩
    · simp [hi] at hw
    · simp [hi] at hr
  -- room for the job that is still to come
  have hqueue : (.find i :: s.pool.queue).length ≤ 2 * busy.card := by
    apply length_le_two_mul
    · exact List.nodup_cons.mpr ⟨hfind, h.tracked.nodup.of_append_right.of_append_right⟩
    · intro j hj
      rcases List.mem_cons.mp hj with rfl | hj
      · exact hbusy i (.inl hi)
      · exact hbusy _ (h.tracked.inProgress_of_queue h.none_failed hj)
  have hcapacity : asyncExecutor.queueCapacity = 100 := rfl
  rw [List.length_cons] at hqueue
  omega

theorem Within.update {limit : ℕ} (h : Within limit s) (tracked : Tracked s') {i : ι} {p : Phase A}
    (hphase : s'.phase = Function.update s.phase i p) (hp : p ≠ .failed)
    (hi : ∃ busy : Finset ι, i ∈ busy ∧ (∀ i, InProgress s i → i ∈ busy) ∧ busy.card ≤ limit) :
    Within limit s' where
  tracked := tracked
  none_failed k := by
    rw [hphase]
    by_cases hk : k = i
    · subst hk
      rwa [Function.update_self]
    · rw [Function.update_of_ne hk]
      exact h.none_failed k
  inProgress := by
    obtain ⟨busy, hmem, hbusy, hcard⟩ := hi
    refine ⟨busy, ?_, hcard⟩
    intro k hk
    by_cases hki : k = i
    · rwa [hki]
    · rw [InProgress, hphase, Function.update_of_ne hki] at hk
      exact hbusy k hk

theorem within_step {limit : ℕ} (hlimit : limit ≤ 50) (h : Within limit s) (hallowed : Admits limit s a)
    (hstep : Step store requests s a s') : Within limit s' := by
  have htracked := tracked_step h.tracked hstep
  have hknown {i : ι} (hi : InProgress s i) :
      ∃ busy : Finset ι, i ∈ busy ∧ (∀ i, InProgress s i → i ∈ busy) ∧ busy.card ≤ limit := by
    obtain ⟨busy, hbusy, hcard⟩ := h.inProgress
    exact ⟨busy, hbusy i hi, hbusy, hcard⟩
  cases hstep with
  | @callSend i pool idle accepted =>
    apply h.update htracked rfl (by simp)
    obtain ⟨busy, hbusy, hcard⟩ := hallowed
    refine ⟨insert i busy, Finset.mem_insert_self i busy, ?_, ?_⟩
    · intro k hk
      exact Finset.mem_insert_of_mem (hbusy k hk)
    · exact (Finset.card_insert_le i busy).trans hcard
  | callSendRejected idle rejected => exact absurd rejected (h.callSend_accepted hlimit hallowed)
  | callFind sending accepted => exact h.update htracked rfl (by simp) (hknown (.inl sending))
  | callFindRejected sending rejected => exact absurd rejected (h.callFind_accepted hlimit sending)
  | respond waiting returned => exact h.update htracked rfl (by simp) (hknown (.inr waiting))
  | _ => exact ⟨htracked, h.none_failed, h.inProgress⟩

theorem within_of_run {limit : ℕ} (hlimit : limit ≤ 50) (earlier : List TransactionRequest)
    (content : List (ConsumedRecord A)) (committed : String → Option ℕ)
    (hrun : Run (Step store requests) (Admits limit)
      (initial (KafkaTopics.initial earlier content committed)) s) : Within limit s := by
  apply hrun.invariant
  · refine ⟨tracked_initial earlier content committed, by simp [initial], ∅, ?_, Nat.zero_le _⟩
    simp [InProgress, initial]
  · intro s a s' h hallowed hstep
    exact within_step hlimit h hallowed hstep

end

section
variable (store : Store A) (requests : ℕ → Request)

def untouched : State ℕ A := initial (KafkaTopics.initial [] [] fun _ => none)

def Waits (m : ℕ) (s : State ℕ A) : Prop :=
  s.pool.threads = 3 ∧ s.pool.queue.length = 2 * m ∧
    ∀ k, (InProgress s k → 2 ≤ k ∧ k < 2 + m) ∧ (2 + m ≤ k → s.phase k = .idle)

def AtRest (s : State ℕ A) : Prop := s.pool.active = [] ∧ s.pool.queue = []

variable {store requests} {allowed : State ℕ A → Action ℕ A → Prop}

theorem started {s : State ℕ A} (j : Job ℕ) {phase : ℕ → Phase A} (hrest : AtRest s)
    (hcall : ∀ pool, s.pool.execute j = some pool →
      Run (Step store requests) allowed untouched { s with pool := pool, phase := phase })
    (htake : ∀ s, allowed s .take) :
    ∃ pool, Run (Step store requests) allowed untouched { s with pool := pool, phase := phase } ∧
      pool.active = [j] ∧ pool.queue = [] ∧ min 3 (s.pool.threads + 1) ≤ pool.threads := by
  obtain ⟨pool, hpool, hcases⟩ := Pool.execute_at_rest j hrest.2
  rcases hcases with ⟨-, hthreads, hactive, hqueue⟩ | ⟨hcore, hthreads, hactive, hqueue⟩
  · exact ⟨pool, hcall pool hpool, by rw [hactive, hrest.1]; rfl, hqueue, by omega⟩
  · have hidle : pool.active.length < pool.threads := by
      rw [hactive, hrest.1, hthreads]
      exact asyncExecutor.core_pos.trans_le hcore
    refine ⟨pool.take hidle hqueue, (hcall pool hpool).step (htake _) (.take hidle hqueue), ?_, rfl, ?_⟩
    · simp [Pool.take, hactive, hrest.1]
    · simp only [Pool.take]
      have hsize : asyncExecutor.corePoolSize = 3 := rfl
      omega

theorem request_served {s : State ℕ A} {i : ℕ} (hrun : Run (Step store requests) (Admits 51) untouched s)
    (hrest : AtRest s) (hfresh : s.topics.committed "uuid" = none) (hidle : s.phase i = .idle)
    (hnone : ∀ k, ¬ InProgress s k) :
    ∃ s', Run (Step store requests) (Admits 51) untouched s' ∧ AtRest s' ∧
      s'.topics.committed "uuid" = none ∧ min 3 (s.pool.threads + 2) ≤ s'.pool.threads ∧
      ∃ page, s'.phase = Function.update s.phase i (.responded page) := by
  have hadmitted : Admits 51 s (.callSend i) := ⟨∅, fun k hk => absurd hk (hnone k), by simp⟩
  obtain ⟨first, hfirst, hactive, hqueue, hthreads⟩ := started (.send i) hrest
    (fun pool hpool => hrun.step hadmitted (.callSend hidle hpool)) fun _ => trivial
  have hbusy : .send i ∈ first.active := by simp [hactive]
  have hsent := hfirst.step (a := Action.sendMessage i) trivial (.sendMessage hbusy)
  have hrest' : AtRest { s with
      pool := first.finish (.send i) hbusy
      buffered := s.buffered ++ [i]
      phase := Function.update s.phase i .sending } := ⟨by simp [Pool.finish, hactive], hqueue⟩
  obtain ⟨second, hsecond, hactive', hqueue', hthreads'⟩ := started (.find i) hrest'
    (fun pool hpool => hsent.step (a := Action.callFind i) trivial (.callFind (by simp) hpool)) fun _ => trivial
  have hbusy' : .find i ∈ second.active := by simp [hactive']
  have hpolled := hsecond.step (a := Action.poll i "uuid" 0) trivial (.poll hbusy' hfresh)
  have hresponded := hpolled.step (a := Action.respond i) trivial
    (.respond (Function.update_self ..) (Function.update_self ..))
  refine ⟨_, hresponded, ⟨by simp [Pool.finish, hactive'], hqueue'⟩, ?_, ?_,
    pageOf (requests i) (polled s.topics "uuid" 0), ?_⟩
  · simpa [commit, getAdditionalConsumerProperties] using hfresh
  · simp only [Pool.finish] at hthreads' ⊢
    omega
  · simp only [Function.update_idem]

theorem threads_started :
    ∃ s : State ℕ A, Run (Step store requests) (Admits 51) untouched s ∧ Waits 0 s := by
  have hstart : Run (Step store requests) (Admits 51) untouched untouched := .start
  obtain ⟨s, hrun, hrest, hfresh, hthreads, page, hphase⟩ :=
    request_served (i := 0) hstart ⟨rfl, rfl⟩ rfl rfl (by simp [InProgress, untouched, initial])
  have hnone : ∀ k, ¬ InProgress s k := by
    intro k
    by_cases hk : k = 0 <;> simp [InProgress, hphase, hk, untouched, initial]
  have hidle : s.phase 1 = .idle := by simp [hphase, untouched, initial]
  obtain ⟨s', hrun', hrest', -, hthreads', page', hphase'⟩ := request_served hrun hrest hfresh hidle hnone
  have hmax := s'.pool.threads_le
  have hsize : asyncExecutor.maxPoolSize = 3 := rfl
  refine ⟨s', hrun', by omega, by simp [hrest'.2], ?_⟩
  intro k
  constructor
  · intro hk
    by_cases hone : k = 1
    · simp [InProgress, hphase', hone] at hk
    · rw [InProgress, hphase', Function.update_of_ne hone] at hk
      exact absurd hk (hnone k)
  · intro hk
    have hother : k ≠ 0 ∧ k ≠ 1 := by omega
    simp [hphase', hphase, hother, untouched, initial]

theorem request_waits {s : State ℕ A} {i : ℕ} (hrun : Run (Step store requests) (Admits 51) untouched s)
    (hcore : asyncExecutor.corePoolSize ≤ s.pool.threads)
    (hroom : s.pool.queue.length + 1 < asyncExecutor.queueCapacity)
    (hidle : s.phase i = .idle) (hadmitted : Admits 51 s (.callSend i)) :
    ∃ s', Run (Step store requests) (Admits 51) untouched s' ∧ s'.pool.threads = s.pool.threads ∧
      s'.pool.queue.length = s.pool.queue.length + 2 ∧ s'.phase = Function.update s.phase i .waiting := by
  have hfirst : s.pool.queue.length < asyncExecutor.queueCapacity := Nat.lt_of_succ_lt hroom
  have hsend := hrun.step hadmitted (.callSend hidle (Pool.execute_of_core s.pool (.send i) hcore hfirst))
  have hsecond : (s.pool.enqueue (.send i) hcore hfirst).queue.length < asyncExecutor.queueCapacity := by
    simpa [Pool.enqueue] using hroom
  have hexecute : (s.pool.enqueue (.send i) hcore hfirst).execute (.find i) = some _ :=
    Pool.execute_of_core (s.pool.enqueue (.send i) hcore hfirst) (.find i) hcore hsecond
  have hfind := hsend.step (a := Action.callFind i) trivial (.callFind (Function.update_self ..) hexecute)
  refine ⟨_, hfind, rfl, by simp [Pool.enqueue], ?_⟩
  simp only [Function.update_idem]

theorem queue_filled {m : ℕ} (hm : m ≤ 50) :
    ∃ s : State ℕ A, Run (Step store requests) (Admits 51) untouched s ∧ Waits m s := by
  induction m with
  | zero => exact threads_started
  | succ m ih =>
    obtain ⟨s, hrun, hthreads, hqueue, hphase⟩ := ih (by omega)
    have hadmitted : Admits 51 s (.callSend (2 + m)) := by
      refine ⟨Finset.Ico 2 (2 + m), ?_, by simp; omega⟩
      intro k hk
      exact Finset.mem_Ico.mpr ((hphase k).1 hk)
    have hcapacity : asyncExecutor.queueCapacity = 100 := rfl
    obtain ⟨s', hrun', hthreads', hqueue', hphase'⟩ :=
      request_waits hrun hthreads.ge (by omega) ((hphase (2 + m)).2 le_rfl) hadmitted
    refine ⟨s', hrun', by omega, by omega, ?_⟩
    intro k
    by_cases hk : k = 2 + m
    · simp only [hk]
      omega
    · rw [InProgress, hphase', Function.update_of_ne hk]
      exact ⟨fun h => ⟨((hphase k).1 h).1, by have := (hphase k).1 h; omega⟩,
        fun h => (hphase k).2 (by omega)⟩

end

theorem none_failed_iff (store : Store A) (requests : ℕ → Request) (limit : ℕ) :
    (∀ earlier content committed s, Run (Step store requests) (Admits limit)
        (initial (KafkaTopics.initial earlier content committed)) s → ∀ i, s.phase i ≠ .failed) ↔
      limit ≤ 50 := by
  constructor
  · intro h
    by_contra hlimit
    obtain ⟨s, hrun, hthreads, hqueue, hphase⟩ : ∃ s : State ℕ A,
      Run (Step store requests) (Admits 51) untouched s ∧ Waits 50 s := queue_filled le_rfl
    have hfull : s.pool.execute (.send 52) = none :=
      (Pool.execute_eq_none_iff _ _).mpr ⟨hthreads, hqueue⟩
    have hbusy (k : ℕ) (hk : InProgress s k) : k ∈ Finset.Ico 2 52 := Finset.mem_Ico.mpr ((hphase k).1 hk)
    have hadmitted : Admits limit s (.callSend 52) := ⟨Finset.Ico 2 52, hbusy, by simp; omega⟩
    have hmore (s : State ℕ A) (a : Action ℕ A) (ha : Admits 51 s a) : Admits limit s a := by
      cases a with
      | callSend i =>
        obtain ⟨busy, hbusy, hcard⟩ := ha
        exact ⟨busy, hbusy, by omega⟩
      | _ => trivial
    have hfailed := (hrun.weaken hmore).step hadmitted (.callSendRejected ((hphase 52).2 le_rfl) hfull)
    exact h [] [] (fun _ => none) _ hfailed 52 (by simp)
  · intro hlimit earlier content committed s hrun
    exact (within_of_run hlimit earlier content committed hrun).none_failed

end EBank.AsyncRequests
