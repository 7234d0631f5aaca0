import EBank.ScriptedConversion

namespace EBank.TransactionServiceImpl

open ExternalAPIClient

variable {σ A : Type} [Mul A]

def ExchangedAt (rate : A) (t t' : Transaction A) : Prop :=
  t'.currency = some getTargetCurrency ∧ ∃ amount ∈ t.amount, t'.amount = some (amount * rate)

def Unchanged (t t' : Transaction A) : Prop := t'.currency = t.currency ∧ t'.amount = t.amount

def OneRatePerCurrency (page page' : List (Transaction A)) : Prop :=
  ∀ c, c ≠ some getTargetCurrency →
    (∃ rate, ∀ p ∈ page.zip page', p.1.currency = c → ExchangedAt rate p.1 p.2) ∨
    ∀ p ∈ page.zip page', p.1.currency = c → Unchanged p.1 p.2

theorem exchange_exchangedAt {t : Transaction A} {r : InlineResponse200 A}
    (h : (exchange t (some r)).2 = none) :
    ∃ rate, r.value = some rate ∧ ExchangedAt rate t (exchange t (some r)).1 := by
  cases hv : r.value with
  | none => cases ha : t.amount <;> simp [exchange, ha, hv] at h
  | some rate =>
    cases ha : t.amount with
    | none => simp [exchange, ha] at h
    | some amount => exact ⟨rate, rfl, by simp [ExchangedAt, exchange, ha, hv]⟩

section
variable (replies : Option Currency → ℕ → Option (InlineResponse200 A)) (ts : List (Transaction A))

theorem zip_exchanged : ts.zip ((withRates replies [] ts).map (fun p => (exchange p.1 p.2).1)) =
    (withRates replies [] ts).map (fun p => (p.1, (exchange p.1 p.2).1)) := by
  have hzip : ((withRates replies [] ts).map Prod.fst).zip
      ((withRates replies [] ts).map (fun p => (exchange p.1 p.2).1)) =
      (withRates replies [] ts).map (fun p => (p.1, (exchange p.1 p.2).1)) := List.zip_map'
  rwa [withRates_fst] at hzip

omit [Mul A] in
theorem mem_withRates {p : Transaction A × Option (InlineResponse200 A)} (hp : p ∈ withRates replies [] ts)
    (hc : p.1.currency ≠ some getTargetCurrency) :
    ∃ n < Memo.occurrences (ts.map Transaction.currency) p.1.currency,
      p.2 = Memo.firstReply (replies p.1.currency) (n + 1) := by
  obtain ⟨i, hi⟩ := List.mem_iff_getElem?.mp hp
  have hi' : i < ts.length := by simpa using (List.getElem?_eq_some_iff.mp hi).1
  rw [getElem?_withRates replies [] ts i hi', Option.some_inj] at hi
  subst hi
  refine ⟨_, ?_, by rw [rateFor, if_pos hc]⟩
  have hlt := Memo.occurrences_take_lt (ts.map Transaction.currency) i (by simpa using hi')
  simpa [List.map_take] using hlt

omit [Mul A] in
theorem exists_withRates {c : Option Currency} (hc : c ≠ some getTargetCurrency) {j : ℕ}
    (hj : j < Memo.occurrences (ts.map Transaction.currency) c) :
    ∃ p ∈ withRates replies [] ts, p.1.currency = c ∧ p.2 = Memo.firstReply (replies c) (j + 1) := by
  obtain ⟨i, hi, he, hcount⟩ := Memo.exists_occurrence _ c j hj
  have hi' : i < ts.length := by simpa using hi
  have hcur : ts[i].currency = c := by simpa using he
  refine ⟨_, List.mem_of_getElem? (getElem?_withRates replies [] ts i hi'), hcur, ?_⟩
  rw [rateFor, if_pos (hcur ▸ hc), hcur, List.nil_append, List.map_take, hcount]

omit [Mul A] in
theorem eq_none_of_unanswered {c : Option Currency} (hc : c ≠ some getTargetCurrency)
    (h : ∀ j < Memo.occurrences (ts.map Transaction.currency) c, replies c j = none)
    {p : Transaction A × Option (InlineResponse200 A)} (hp : p ∈ withRates replies [] ts)
    (hpc : p.1.currency = c) : p.2 = none := by
  obtain ⟨n, hn, hrate⟩ := mem_withRates replies ts hp (hpc ▸ hc)
  rw [hpc] at hn hrate
  rw [hrate, Memo.firstReply_eq_none_iff]
  intro j hj
  exact h j (by omega)

theorem exchangedAt_of_answered (hdone : ∀ p ∈ withRates replies [] ts, (exchange p.1 p.2).2 = none)
    {c : Option Currency} (hc : c ≠ some getTargetCurrency) {r : InlineResponse200 A}
    (hzero : replies c 0 = some r) {p : Transaction A × Option (InlineResponse200 A)}
    (hp : p ∈ withRates replies [] ts) (hpc : p.1.currency = c) :
    ∃ rate, r.value = some rate ∧ ExchangedAt rate p.1 (exchange p.1 p.2).1 := by
  obtain ⟨n, -, hrate⟩ := mem_withRates replies ts hp (hpc ▸ hc)
  have hfirst : p.2 = some r := by
    rw [hrate, hpc]
    exact Memo.firstReply_of_zero hzero n
  have hdonep := hdone p hp
  rw [hfirst] at hdonep ⊢
  exact exchange_exchangedAt hdonep

theorem unanswered_of_oneRate (hdone : ∀ p ∈ withRates replies [] ts, (exchange p.1 p.2).2 = none)
    {c : Option Currency} (hc : c ≠ some getTargetCurrency)
    (h : (∃ rate, ∀ p ∈ withRates replies [] ts, p.1.currency = c →
        ExchangedAt rate p.1 (exchange p.1 p.2).1) ∨
      ∀ p ∈ withRates replies [] ts, p.1.currency = c → Unchanged p.1 (exchange p.1 p.2).1)
    (hzero : replies c 0 = none) {j : ℕ}
    (hj : j < Memo.occurrences (ts.map Transaction.currency) c) : replies c j = none := by
  by_contra hne
  obtain ⟨p, hp, hpc, hrate⟩ := exists_withRates replies ts hc (show 0 < _ by omega)
  obtain ⟨q, hq, hqc, hrate'⟩ := exists_withRates replies ts hc hj
  have hnone : p.2 = none := by
    rw [hrate]
    simpa [Memo.firstReply_eq_none_iff] using hzero
  obtain ⟨r, hr⟩ : ∃ r, q.2 = some r := by
    apply Option.ne_none_iff_exists'.mp
    rw [hrate', ne_eq, Memo.firstReply_eq_none_iff]
    intro hall
    exact hne (hall j (Nat.lt_succ_self j))
  -- the first one kept its currency, the later one has the target currency
  rcases h with ⟨rate, hex⟩ | hun
  · have hfirst := (hex p hp hpc).1
    rw [hnone] at hfirst
    exact hc (hpc ▸ hfirst)
  · have hdoneq := hdone q hq
    rw [hr] at hdoneq
    obtain ⟨-, -, hcur, -⟩ := exchange_exchangedAt hdoneq
    have hsame := (hun q hq hqc).1
    rw [hr, hcur] at hsame
    exact hc (hqc ▸ hsame.symm)

theorem oneRate_iff_replies (hdone : ∀ p ∈ withRates replies [] ts, (exchange p.1 p.2).2 = none) :
    OneRatePerCurrency ts ((withRates replies [] ts).map (fun p => (exchange p.1 p.2).1)) ↔
      ∀ c, c ≠ some getTargetCurrency → replies c 0 = none →
        ∀ j < Memo.occurrences (ts.map Transaction.currency) c, replies c j = none := by
  simp only [OneRatePerCurrency, zip_exchanged, List.forall_mem_map]
  constructor
  · intro h c hc hzero j hj
    exact unanswered_of_oneRate replies ts hdone hc (h c hc) hzero hj
  · intro h c hc
    cases hzero : replies c 0 with
    | none =>
      right
      intro p hp hpc
      rw [eq_none_of_unanswered replies ts hc (h c hc hzero) hp hpc]
      exact ⟨rfl, rfl⟩
    | some r =>
      cases hv : r.value with
      | none =>
        right
        intro p hp hpc
        obtain ⟨rate, hrate, -⟩ := exchangedAt_of_answered replies ts hdone hc hzero hp hpc
        simp [hv] at hrate
      | some rate =>
        left
        refine ⟨rate, ?_⟩
        intro p hp hpc
        obtain ⟨rate', hrate, hexp⟩ := exchangedAt_of_answered replies ts hdone hc hzero hp hpc
        rw [hv, Option.some_inj] at hrate
        exact hrate ▸ hexp

end

theorem convert_scripted {replies : Option Currency → ℕ → Option (InlineResponse200 A)}
    {page result : Page (Transaction A)}
    (h : convert (Memo.scripted replies) (fun _ => 0) page = .ok result) :
    (∀ p ∈ withRates replies [] page.content, (exchange p.1 p.2).2 = none) ∧
      result.content = (withRates replies [] page.content).map (fun p => (exchange p.1 p.2).1) := by
  obtain ⟨hraised, rfl⟩ := convert_ok h
  obtain ⟨hts, hraised'⟩ := mapPage_start (Memo.scripted_plays replies) rfl page.content
  rw [hraised] at hraised'
  refine ⟨?_, by rw [Page.withContent_content, hts, exchangeAll_done hraised'.symm]⟩
  intro p hp
  by_contra hne
  apply (exchangeAll_raised_iff _).mpr _ hraised'.symm
  exact ⟨p, hp, hne⟩

/-- One rate per currency holds of a returned page exactly when no currency of the page got a
rate after its first request had failed. -/
theorem oneRatePerCurrency_iff (repository : TransactionRepository A)
    (replies : Option Currency → ℕ → Option (InlineResponse200 A)) (accountId : Long) (date : LocalDate)
    (page size : ℤ) (pageable : PageRequest) (result : Page (Transaction A))
    (hpageable : PageRequest.of page size (.ascending "date") = .ok pageable)
    (h : findForAccountInMonthPaginated repository (Memo.scripted replies) (fun _ => 0) accountId date page size =
      .ok result) :
    let transactionsPage := repository date.firstDay date.lastDay accountId pageable
    OneRatePerCurrency transactionsPage.content result.content ↔
      ∀ c, c ≠ some getTargetCurrency → replies c 0 = none →
        ∀ j < Memo.occurrences (transactionsPage.content.map Transaction.currency) c, replies c j = none := by
  intro transactionsPage
  rw [find_of_pageable _ _ _ _ _ hpageable] at h
  obtain ⟨hdone, hcontent⟩ := convert_scripted h
  rw [hcontent]
  exact oneRate_iff_replies replies _ hdone

def francPayments : List (Transaction ℤ) :=
  [.row 1 1 LocalDate.january 10 .CHF, .row 2 1 LocalDate.january 20 .CHF]

theorem steady_oneRate : OneRatePerCurrency francPayments
    [.row 1 1 LocalDate.january 20 .GBP, .row 2 1 LocalDate.january 40 .GBP] :=
  (oneRatePerCurrency_iff (fun _ _ _ _ => ⟨francPayments, none, 2⟩) (fun _ _ => some ⟨some 2⟩)
    1 LocalDate.january 0 20 ⟨0, 20, .ascending "date", by decide⟩
    ⟨[.row 1 1 LocalDate.january 20 .GBP, .row 2 1 LocalDate.january 40 .GBP], none, 2⟩ rfl rfl).mpr
    (fun _ _ h => absurd h (by simp))

def recoveringReplies (_ : Option Currency) (j : ℕ) : Option (InlineResponse200 ℤ) :=
  if j = 0 then none else some ⟨some 2⟩

theorem recovering_not_oneRate : ∃ result,
    findForAccountInMonthPaginated (fun _ _ _ _ => ⟨francPayments, none, 2⟩) (Memo.scripted recoveringReplies)
      (fun _ => 0) 1 LocalDate.january 0 20 = .ok result ∧
      ¬ OneRatePerCurrency francPayments result.content := by
  refine ⟨⟨[.row 1 1 LocalDate.january 10 .CHF, .row 2 1 LocalDate.january 40 .GBP], none, 2⟩, rfl, ?_⟩
  intro h
  rcases h (some .CHF) (by decide) with ⟨rate, hex⟩ | hun
  · have hfirst := (hex (.row 1 1 LocalDate.january 10 .CHF, .row 1 1 LocalDate.january 10 .CHF)
      (by simp [francPayments]) rfl).1
    exact absurd hfirst (by decide)
  · have hsecond := (hun (.row 2 1 LocalDate.january 20 .CHF, .row 2 1 LocalDate.january 40 .GBP)
      (by simp [francPayments]) rfl).1
    exact absurd hsecond (by decide)

end EBank.TransactionServiceImpl
