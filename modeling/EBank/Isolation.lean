import EBank.KafkaTopics
import Mathlib.Data.List.Flatten

namespace EBank.KafkaTopics

open AsyncTransactionService Transition

variable {ι A : Type}

def answerTo (n : ℕ) (output : List (Record A)) : List (Transaction A) :=
  (output.filter (fun r => r.origin = some n)).flatMap Record.transactions

def rowsFor (store : Store A) (request : TransactionRequest) : List (Transaction A) :=
  TransactionRepository.monthRows store request.accountId request.date

/-- Every message without a record stays open; one with records has its whole answer in the topic. -/
def AnswersKept (store : Store A) (s : State ι A) : Prop :=
  ∀ n, (∀ r ∈ s.output, r.origin ≠ some n) ∨
    n ∈ s.answered ∧ ∃ m, s.input[n]? = some m ∧ (answerTo n s.output).Perm (rowsFor store m.request)

theorem answerTo_append (n : ℕ) (output output' : List (Record A)) :
    answerTo n (output ++ output') = answerTo n output ++ answerTo n output' := by
  rw [answerTo, List.filter_append, List.flatMap_append, answerTo, answerTo]

theorem answerTo_eq_nil {n : ℕ} {output : List (Record A)} (h : ∀ r ∈ output, r.origin ≠ some n) :
    answerTo n output = [] := by
  rw [answerTo, List.filter_eq_nil_iff.mpr (by simpa using h), List.flatMap_nil]

theorem answerTo_answer (n n' : ℕ) (records : List (List (Transaction A))) :
    answerTo n' (records.map (fun value => ⟨some value, some n⟩)) =
      if n = n' then records.flatten else [] := by
  split_ifs with h
  · subst h
    induction records with
    | nil => rfl
    | cons value records ih => simpa [answerTo, Record.transactions] using ih
  · apply answerTo_eq_nil
    simp [h]

theorem initial_answersKept (store : Store A) (earlier : List TransactionRequest)
    (content : List (ConsumedRecord A)) (committed : String → Option ℕ) :
    AnswersKept store (initial earlier content committed : State ι A) := by
  intro n
  left
  simp [initial]

theorem answersKept_step [DecidableEq ι] {store : Store A} {requests : ι → Request} {s s' : State ι A}
    {a : Action ι A} (h : AnswersKept store s) (hstep : Step store requests s a s') : AnswersKept store s' := by
  cases hstep with
  | send unsent =>
    intro n
    rcases h n with hopen | ⟨hanswered, m, hm, hperm⟩
    · exact .inl hopen
    · right
      refine ⟨hanswered, m, ?_, hperm⟩
      rw [List.getElem?_append_left (List.getElem?_eq_some_iff.mp hm).1, hm]
  | poll waiting fresh => exact h
  | @answer n m records message unanswered exact =>
    have hopen : ∀ r ∈ s.output, r.origin ≠ some n := by
      rcases h n with hopen | ⟨hanswered, -⟩
      · exact hopen
      · exact absurd hanswered unanswered
    intro n'
    by_cases hn : n = n'
    · subst hn
      right
      refine ⟨List.mem_cons_self, m, message, ?_⟩
      rw [answerTo_append, answerTo_eq_nil hopen, answerTo_answer, if_pos rfl, List.nil_append]
      exact exact
    · rcases h n' with hopen' | ⟨hanswered, m', hm', hperm⟩
      · left
        intro r hr
        rcases List.mem_append.mp hr with hr | hr
        · exact hopen' r hr
        · obtain ⟨value, -, rfl⟩ := List.mem_map.mp hr
          simpa using hn
      · right
        refine ⟨List.mem_cons_of_mem _ hanswered, m', hm', ?_⟩
        rw [answerTo_append, answerTo_answer, if_neg hn, List.append_nil]
        exact hperm

theorem addAll_sublist (records : List (Record A)) :
    (addAll (records.map Record.value)).Sublist (records.flatMap Record.transactions) := by
  induction records with
  | nil => exact .slnil
  | cons r records ih =>
    obtain ⟨value, origin⟩ := r
    cases value with
    | none => exact List.nil_sublist _
    | some value => exact ih.append_left value

theorem flatMap_filter_origin {n : ℕ} {records : List (Record A)}
    (h : ∀ r ∈ records, r.transactions ≠ [] → r.origin = some n) :
    records.flatMap Record.transactions = answerTo n records := by
  induction records with
  | nil => rfl
  | cons r records ih =>
    have htail := ih (fun r hr => h r (List.mem_cons_of_mem _ hr))
    by_cases ho : r.origin = some n
    · simp [answerTo, ho, htail]
    · have hnil : r.transactions = [] := by
        by_contra hne
        exact ho (h r List.mem_cons_self hne)
      simpa [answerTo, ho, hnil] using htail

theorem pageOf_content (request : Request) (records : List (Record A)) :
    ∃ l, (pageOf request records).content.Sublist l ∧ l.Perm (addAll (records.map Record.value)) := by
  unfold pageOf findInMonthPaginated received
  cases hpage : getPageSortedByDate request.page request.size (addAll (records.map Record.value)) with
  | error e => exact ⟨_, List.nil_sublist _, List.Perm.refl _⟩
  | ok found => exact ⟨_, getPageSortedByDate_content hpage, List.perm_insertionSort _ _⟩

structure OwnStatement (request : Request) (page : Page (Transaction A)) : Prop where
  own : ∀ t ∈ page.content, t.account = some request.accountId ∧ t.InMonth request.date
  once : (page.content.map Transaction.id).Nodup

def Sent (s : State ι A) (i : ι) : Prop := ∃ m ∈ s.input, m.sender = some i

def Answered (s : State ι A) (i : ι) : Prop :=
  ∃ n ∈ s.answered, ∃ m, s.input[n]? = some m ∧ m.sender = some i

/-- A request polls when it is `ready`, and all transactions it polls stem from the answer to one
message that names its own account and month. -/
def Undisturbed (requests : ι → Request) (ready : State ι A → ι → Prop) (s : State ι A) : Action ι A → Prop
  | .send _ => True
  | .answer _ _ => True
  | .poll i randomUUID available => ready s i ∧ ∃ n m, s.input[n]? = some m ∧
      m.request.accountId = (requests i).accountId ∧ m.request.date.SameMonth (requests i).date ∧
      ∀ r ∈ polled s randomUUID available, r.transactions ≠ [] → r.origin = some n

def Isolation (requests : ι → Request) (ready : State ι A → ι → Prop) (s : State ι A) : Prop :=
  ∀ i page, s.returned i = some page → OwnStatement (requests i) page ∧ ready s i

section
variable {store : Store A} {s : State ι A}

theorem answerTo_polled {n : ℕ} {randomUUID : String} {available : ℕ}
    (hfresh : s.committed randomUUID = none) :
    (answerTo n (polled s randomUUID available)).Sublist (answerTo n s.output) := by
  rw [polled, poll_fresh hfresh]
  exact ((List.take_sublist _ _).filter _).flatMap _

theorem pageOf_ownStatement (hkept : AnswersKept store s) (request : Request) {randomUUID : String}
    {available n : ℕ} {m : Message ι} (hfresh : s.committed randomUUID = none) (hm : s.input[n]? = some m)
    (haccount : m.request.accountId = request.accountId) (hmonth : m.request.date.SameMonth request.date)
    (horigin : ∀ r ∈ polled s randomUUID available, r.transactions ≠ [] → r.origin = some n) :
    OwnStatement request (pageOf request (polled s randomUUID available)) := by
  obtain ⟨l, hcontent, hperm⟩ := pageOf_content request (polled s randomUUID available)
  have hanswer :
      (addAll ((polled s randomUUID available).map Record.value)).Sublist (answerTo n s.output) := by
    have hall := addAll_sublist (polled s randomUUID available)
    rw [flatMap_filter_origin horigin] at hall
    exact hall.trans (answerTo_polled hfresh)
  -- everything polled is part of the whole answer to one message
  have hrows : ∀ t ∈ answerTo n s.output, t ∈ rowsFor store m.request := by
    rcases hkept n with hopen | ⟨-, m', hm', hanswered⟩
    · simp [answerTo_eq_nil hopen]
    · rw [hm, Option.some_inj] at hm'
      subst hm'
      intro t ht
      exact hanswered.mem_iff.mp ht
  have hids : ((answerTo n s.output).map Transaction.id).Nodup := by
    rcases hkept n with hopen | ⟨-, m', -, hanswered⟩
    · simp [answerTo_eq_nil hopen]
    · apply (hanswered.map _).nodup_iff.mpr
      exact TransactionRepository.rows_ids_nodup store _ _ _
  constructor
  · intro t ht
    have hmem := hrows t (hanswer.mem (hperm.mem_iff.mp (hcontent.mem ht)))
    obtain ⟨-, ht, e, he, hsame⟩ := TransactionRepository.mem_monthRows_iff.mp hmem
    exact ⟨haccount ▸ ht, e, he, hsame.1.trans hmonth.1, hsame.2.trans hmonth.2⟩
  · have hl : (l.map Transaction.id).Nodup := by
      apply (hperm.map _).nodup_iff.mpr
      exact hids.sublist (hanswer.map _)
    exact hl.sublist (hcontent.map _)

end

section
variable [DecidableEq ι] {store : Store A} {requests : ι → Request} {s s' : State ι A} {a : Action ι A}

theorem sent_step (hstep : Step store requests s a s') (i : ι) (h : Sent s i) : Sent s' i := by
  obtain ⟨m, hm, hi⟩ := h
  cases hstep with
  | send unsent => exact ⟨m, List.mem_append_left _ hm, hi⟩
  | answer message unanswered exact => exact ⟨m, hm, hi⟩
  | poll waiting fresh => exact ⟨m, hm, hi⟩

theorem answered_step (hstep : Step store requests s a s') (i : ι) (h : Answered s i) : Answered s' i := by
  obtain ⟨n, hn, m, hm, hi⟩ := h
  cases hstep with
  | send unsent =>
    refine ⟨n, hn, m, ?_, hi⟩
    rw [List.getElem?_append_left (List.getElem?_eq_some_iff.mp hm).1, hm]
  | answer message unanswered exact => exact ⟨n, List.mem_cons_of_mem _ hn, m, hm, hi⟩
  | poll waiting fresh => exact ⟨n, hn, m, hm, hi⟩

theorem isolation_step {ready : State ι A → ι → Prop} (hready : ∀ i, ready s i → ready s' i)
    (hkept : AnswersKept store s) (h : Isolation requests ready s) (hallowed : Undisturbed requests ready s a)
    (hstep : Step store requests s a s') : Isolation requests ready s' := by
  have hold : ∀ i page, s.returned i = some page → OwnStatement (requests i) page ∧ ready s' i :=
    fun i page hpage => ⟨(h i page hpage).1, hready i (h i page hpage).2⟩
  cases hstep with
  | send unsent => exact hold
  | answer message unanswered exact => exact hold
  | @poll i randomUUID available waiting fresh =>
    obtain ⟨hi, n, m, hm, haccount, hmonth, horigin⟩ := hallowed
    intro j page hpage
    by_cases hj : j = i
    · subst hj
      simp only [Function.update_self, Option.some_inj] at hpage
      subst hpage
      exact ⟨pageOf_ownStatement hkept (requests j) fresh hm haccount hmonth horigin, hready j hi⟩
    · simp only [Function.update_of_ne hj] at hpage
      exact hold j page hpage

theorem isolation_of_run {ready : State ι A → ι → Prop}
    (hready : ∀ s a s' i, Step store requests s a s' → ready s i → ready s' i)
    (earlier : List TransactionRequest) (content : List (ConsumedRecord A)) (committed : String → Option ℕ)
    (hrun : Run (Step store requests) (Undisturbed requests ready) (initial earlier content committed) s) :
    Isolation requests ready s := by
  have hboth : AnswersKept store s ∧ Isolation requests ready s := by
    apply hrun.invariant
    · refine ⟨initial_answersKept store earlier content committed, ?_⟩
      intro i page hpage
      cases hpage
    · rintro s a s' ⟨hkept, hisolated⟩ hallowed hstep
      exact ⟨answersKept_step hkept hstep,
        isolation_step (fun i => hready s a s' i hstep) hkept hisolated hallowed hstep⟩
  exact hboth.2

end

/-- In every run whose polls are undisturbed every returned page is the request's own, free of
repetitions, and returned after its own message was sent; after it was answered, where the
requests poll no earlier than that. -/
theorem isolation_of_undisturbed_runs [DecidableEq ι] (store : Store A) (requests : ι → Request)
    (earlier : List TransactionRequest) (content : List (ConsumedRecord A)) (committed : String → Option ℕ)
    (s : State ι A) :
    (Run (Step store requests) (Undisturbed requests Sent) (initial earlier content committed) s →
      Isolation requests Sent s) ∧
    (Run (Step store requests) (Undisturbed requests Answered) (initial earlier content committed) s →
      Isolation requests Answered s) :=
  ⟨isolation_of_run (fun _ _ _ i hstep => sent_step hstep i) earlier content committed,
    isolation_of_run (fun _ _ _ i hstep => answered_step hstep i) earlier content committed⟩

def singlePayment : Store ℤ := .ofTransactions (some "key") [payment 1] (by decide) (by decide)

def pair (_ : Fin 2) : Request := ⟨1, 1, LocalDate.january, 0, 20⟩

def firstAnswered : State (Fin 2) ℤ where
  input := [send 0 (pair 0), send 1 (pair 1)]
  answered := [0]
  output := [⟨some [payment 1], some 0⟩]
  committed _ := none
  returned _ := none

theorem pair_isolated :
    ∃ s : State (Fin 2) ℤ, s.output.length = 2 ∧ (∀ i, s.returned i ≠ none) ∧ Isolation pair Answered s := by
  have hsent : Run (Step singlePayment pair) (Undisturbed pair Answered) (initial [] [] fun _ => none)
      ⟨[send 0 (pair 0), send 1 (pair 1)], [], [], fun _ => none, fun _ => none⟩ :=
    (Run.start.step (a := .send 0) trivial (.send (by simp [initial]))).step (a := .send 1) trivial
      (.send (by simp [initial, send]))
  have hfirst : Run (Step singlePayment pair) (Undisturbed pair Answered) (initial [] [] fun _ => none)
      firstAnswered :=
    hsent.step (a := .answer 0 [[payment 1]]) trivial (.answer rfl (by simp) (by decide))
  have hpolled := hfirst.step (a := Action.poll 0 "first" 1)
    ⟨⟨0, by simp [firstAnswered], _, rfl, rfl⟩, 0, _, rfl, rfl, ⟨rfl, rfl⟩,
      by rw [polled, poll_fresh rfl]; simp [firstAnswered]⟩ (.poll rfl rfl)
  have hsecond := hpolled.step (a := Action.answer 1 [[payment 1]]) trivial
    (.answer rfl (by simp [firstAnswered]) (by decide))
  have hlast := hsecond.step (a := Action.poll 1 "second" 1)
    ⟨⟨1, by simp, _, rfl, rfl⟩, 0, _, rfl, rfl, ⟨rfl, rfl⟩,
      by rw [polled, poll_fresh rfl]; simp [firstAnswered]⟩ (.poll rfl rfl)
  refine ⟨_, rfl, ?_, (isolation_of_undisturbed_runs singlePayment pair [] [] (fun _ => none) _).2 hlast⟩
  intro i
  by_cases hi : i = 1
  · simp [hi]
  · have hzero : i = 0 := by omega
    simp [hzero]

def twoAccounts : Store ℤ where
  customers := [⟨1, none, none, some "alice"⟩, ⟨2, none, none, some "bob"⟩]
  accounts := [⟨1, some 1, none, none, none⟩, ⟨2, some 2, none, none, none⟩]
  transactions := [.row 7 2 LocalDate.january 10 .GBP]
  customer_pkey := by decide
  account_pkey := by decide
  account_transaction_pkey := by decide
  cust_fk := by decide
  account_fk := by decide

def crowd (i : Fin 3) : Request :=
  if i = 0 then ⟨1, 1, LocalDate.january, 0, 20⟩ else ⟨2, 2, LocalDate.january, 0, 20⟩

def foreignPayment : Transaction ℤ := .row 7 2 LocalDate.january 10 .GBP

def othersAnswered : State (Fin 3) ℤ where
  input := [send 1 (crowd 1), send 2 (crowd 2)]
  answered := [1, 0]
  output := [⟨some [foreignPayment], some 0⟩, ⟨some [foreignPayment], some 1⟩]
  committed _ := none
  returned _ := none

theorem othersAnswered_page :
    (pageOf (crowd 0) (polled othersAnswered "uuid" 2)).content = [foreignPayment, foreignPayment] := by
  have hdated : Dated [foreignPayment, foreignPayment] := by
    unfold Dated
    decide
  rw [polled, poll_fresh rfl, pageOf]
  have hpage : getPageSortedByDate 0 20 [foreignPayment, foreignPayment] = _ :=
    getPageSortedByDate_inRange le_rfl (by decide) hdated (by decide) (by decide)
  have hfound :
      findInMonthPaginated (.ok ((othersAnswered.output.take (min 2 (2 ^ 31 - 1))).map Record.value))
        (crowd 0).date (crowd 0).page (crowd 0).size =
        getPageSortedByDate 0 20 [foreignPayment, foreignPayment] := rfl
  rw [hfound, hpage]
  decide

/-- A request that polls before its own message is sent gets the answers to the two others. -/
theorem crowd_disturbed :
    ∃ s : State (Fin 3) ℤ, Run (Step twoAccounts crowd) (fun _ _ => True) (initial [] [] fun _ => none) s ∧
      ∃ page, s.returned 0 = some page ∧ ¬ Sent s 0 ∧
        (∃ t ∈ page.content, t.account ≠ some (crowd 0).accountId) ∧
        ¬ (page.content.map Transaction.id).Nodup := by
  have hfirst : Run (Step twoAccounts crowd) (fun _ _ => True) (initial [] [] fun _ => none)
      ⟨[send 1 (crowd 1)], [0], [⟨some [foreignPayment], some 0⟩], fun _ => none, fun _ => none⟩ :=
    (Run.start.step (a := .send 1) trivial (.send (by simp [initial]))).step
      (a := .answer 0 [[foreignPayment]]) trivial (.answer rfl (by simp [initial]) (by decide))
  have hsecond :
      Run (Step twoAccounts crowd) (fun _ _ => True) (initial [] [] fun _ => none) othersAnswered :=
    (hfirst.step (a := .send 2) trivial (.send (by simp [send]))).step
      (a := .answer 1 [[foreignPayment]]) trivial (.answer rfl (by simp) (by decide))
  have hpolled := hsecond.step (a := .poll 0 "uuid" 2) trivial (.poll rfl rfl)
  refine ⟨_, hpolled, pageOf (crowd 0) (polled othersAnswered "uuid" 2), by simp, ?_, ?_, ?_⟩
  · simp [Sent, send, othersAnswered]
  · rw [othersAnswered_page]
    exact ⟨foreignPayment, by simp, by decide⟩
  · rw [othersAnswered_page]
    decide

end EBank.KafkaTopics
