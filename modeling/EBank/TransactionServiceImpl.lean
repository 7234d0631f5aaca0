import EBank.ExternalAPIClient
import EBank.Store

namespace EBank.TransactionServiceImpl

open ExternalAPIClient

variable {σ A : Type} [Mul A]

abbrev ExchangeRates (A : Type) := Option Currency → Option (InlineResponse200 A)

-- the currency is set before the amount and the rate are unboxed
def exchange (t : Transaction A) (exchangeRate : Option (InlineResponse200 A)) :
    Transaction A × Option JavaException :=
  match exchangeRate with
  | none => (t, none)
  | some rate =>
    match t.amount, rate.value with
    | some amount, some value =>
      ({ t with currency := some getTargetCurrency, amount := some (amount * value) }, none)
    | _, _ => ({ t with currency := some getTargetCurrency }, some .nullPointer)

def mapTransaction (client : ExternalAPIClient σ A) (t : Transaction A)
    (exchangeRates : ExchangeRates A) (s : σ) :
    (Transaction A × Option JavaException) × ExchangeRates A × σ :=
  if t.currency ≠ some getTargetCurrency then
    match Memo.computeIfAbsent exchangeRates t.currency client s with
    | (.ok exchangeRate, exchangeRates', s') => (exchange t exchangeRate, exchangeRates', s')
    | (.error e, exchangeRates', s') => ((t, some e), exchangeRates', s')
  else ((t, none), exchangeRates, s)

/-- The transaction objects of the page after the mapping, the exception that ended it, if any,
and the client's state. -/
structure Mapped (σ A : Type) where
  transactions : List (Transaction A)
  raised : Option JavaException
  client : σ

def mapPage (client : ExternalAPIClient σ A) : List (Transaction A) → ExchangeRates A → σ → Mapped σ A
  | [], _, s => ⟨[], none, s⟩
  | t :: ts, exchangeRates, s =>
    match mapTransaction client t exchangeRates s with
    | ((t', some e), _, s') => ⟨t' :: ts, some e, s'⟩
    | ((t', none), exchangeRates', s') =>
      let rest := mapPage client ts exchangeRates' s'
      ⟨t' :: rest.transactions, rest.raised, rest.client⟩

def convert (client : ExternalAPIClient σ A) (s : σ) (transactionsPage : Page (Transaction A)) :
    Except JavaException (Page (Transaction A)) :=
  let mapped := mapPage client transactionsPage.content (fun _ => none) s
  match mapped.raised with
  | some e => .error e
  | none => .ok (transactionsPage.withContent mapped.transactions)

def findForAccountInMonthPaginated (findByDateBetweenAndAccountId : TransactionRepository A)
    (client : ExternalAPIClient σ A) (s : σ) (accountId : Long) (date : LocalDate) (page size : ℤ) :
    Except JavaException (Page (Transaction A)) := do
  let pageable ← PageRequest.of page size (.ascending "date")
  let startDate := date.firstDay
  let endDate := date.lastDay
  let transactionsPage := findByDateBetweenAndAccountId startDate endDate accountId pageable
  convert client s transactionsPage

-- the same executions with the state in which they leave the client
def convertWithClient (client : ExternalAPIClient σ A) (s : σ) (transactionsPage : Page (Transaction A)) :
    Except JavaException (Page (Transaction A)) × σ :=
  let mapped := mapPage client transactionsPage.content (fun _ => none) s
  match mapped.raised with
  | some e => (.error e, mapped.client)
  | none => (.ok (transactionsPage.withContent mapped.transactions), mapped.client)

def findWithClient (findByDateBetweenAndAccountId : TransactionRepository A) (client : ExternalAPIClient σ A)
    (s : σ) (accountId : Long) (date : LocalDate) (page size : ℤ) :
    Except JavaException (Page (Transaction A)) × σ :=
  match PageRequest.of page size (.ascending "date") with
  | .error e => (.error e, s)
  | .ok pageable =>
    convertWithClient client s (findByDateBetweenAndAccountId date.firstDay date.lastDay accountId pageable)

theorem exchange_unconverted (t : Transaction A) (rate : Option (InlineResponse200 A)) :
    (exchange t rate).1.unconverted = t.unconverted := by
  unfold exchange
  split <;> [rfl; split <;> rfl]

@[simp] theorem exchange_id (t : Transaction A) (rate : Option (InlineResponse200 A)) :
    (exchange t rate).1.id = t.id := by
  have h := congrArg Transaction.id (exchange_unconverted t rate)
  exact h

theorem exchange_raised {t : Transaction A} {rate : Option (InlineResponse200 A)} {e : JavaException}
    (h : (exchange t rate).2 = some e) : e = .nullPointer := by
  unfold exchange at h
  split at h
  · simp at h
  · split at h <;> simp_all

theorem exchange_raised_iff (t : Transaction A) (rate : Option (InlineResponse200 A)) :
    (exchange t rate).2 ≠ none ↔ ∃ r ∈ rate, t.amount = none ∨ r.value = none := by
  cases rate with
  | none => simp [exchange]
  | some r => cases ha : t.amount <;> cases hv : r.value <;> simp [exchange, ha, hv]

theorem mapTransaction_of_target (client : ExternalAPIClient σ A) {t : Transaction A}
    (hc : t.currency = some getTargetCurrency) (rates : ExchangeRates A) (s : σ) :
    mapTransaction client t rates s = ((t, none), rates, s) := by
  rw [mapTransaction, if_neg (not_not.mpr hc)]

theorem mapTransaction_of_lookup {client : ExternalAPIClient σ A} {t : Transaction A}
    (hc : t.currency ≠ some getTargetCurrency) {rate : Option (InlineResponse200 A)}
    {rates rates' : ExchangeRates A} {s s' : σ}
    (h : Memo.computeIfAbsent rates t.currency client s = (.ok rate, rates', s')) :
    mapTransaction client t rates s = (exchange t rate, rates', s') := by
  rw [mapTransaction, if_pos hc, h]

theorem mapTransaction_cases (client : ExternalAPIClient σ A) (t : Transaction A) (rates : ExchangeRates A)
    (s : σ) :
    (t.currency = some getTargetCurrency ∧ mapTransaction client t rates s = ((t, none), rates, s)) ∨
    (t.currency ≠ some getTargetCurrency ∧ ∃ rates' s',
      (∃ rate, Memo.computeIfAbsent rates t.currency client s = (.ok rate, rates', s') ∧
        mapTransaction client t rates s = (exchange t rate, rates', s')) ∨
      ∃ e, Memo.computeIfAbsent rates t.currency client s = (.error e, rates', s') ∧
        mapTransaction client t rates s = ((t, some e), rates', s')) := by
  by_cases hc : t.currency = some getTargetCurrency
  · exact .inl ⟨hc, mapTransaction_of_target client hc rates s⟩
  · refine .inr ⟨hc, ?_⟩
    rcases hm : Memo.computeIfAbsent rates t.currency client s with ⟨e | rate, rates', s'⟩
    · exact ⟨rates', s', .inr ⟨e, rfl, by rw [mapTransaction, if_pos hc, hm]⟩⟩
    · exact ⟨rates', s', .inl ⟨rate, rfl, mapTransaction_of_lookup hc hm⟩⟩

theorem mapPage_cons_of_raised (client : ExternalAPIClient σ A) {t t' : Transaction A}
    {rates rates' : ExchangeRates A}
    {s s' : σ} {e : JavaException} (h : mapTransaction client t rates s = ((t', some e), rates', s'))
    (ts : List (Transaction A)) : mapPage client (t :: ts) rates s = ⟨t' :: ts, some e, s'⟩ := by
  rw [mapPage, h]

theorem mapPage_cons_of_done (client : ExternalAPIClient σ A) {t t' : Transaction A}
    {rates rates' : ExchangeRates A}
    {s s' : σ} (h : mapTransaction client t rates s = ((t', none), rates', s')) (ts : List (Transaction A)) :
    mapPage client (t :: ts) rates s =
      ⟨t' :: (mapPage client ts rates' s').transactions, (mapPage client ts rates' s').raised,
        (mapPage client ts rates' s').client⟩ := by
  rw [mapPage, h]

theorem mapTransaction_unconverted (client : ExternalAPIClient σ A) (t : Transaction A)
    (rates : ExchangeRates A) (s : σ) :
    (mapTransaction client t rates s).1.1.unconverted = t.unconverted := by
  rcases mapTransaction_cases client t rates s with ⟨-, h⟩ | ⟨-, rates', s', ⟨rate, -, h⟩ | ⟨e, -, h⟩⟩
  · rw [h]
  · rw [h, exchange_unconverted]
  · rw [h]

theorem mapPage_unconverted (client : ExternalAPIClient σ A) (ts : List (Transaction A))
    (rates : ExchangeRates A) (s : σ) :
    (mapPage client ts rates s).transactions.map Transaction.unconverted = ts.map Transaction.unconverted := by
  induction ts generalizing rates s with
  | nil => rfl
  | cons t ts ih =>
    have hfirst := mapTransaction_unconverted client t rates s
    rcases h : mapTransaction client t rates s with ⟨⟨t', _ | e⟩, rates', s'⟩
    · rw [mapPage_cons_of_done client h]
      simpa [h, ih] using hfirst
    · rw [mapPage_cons_of_raised client h]
      simpa [h] using hfirst

theorem mapPage_ids (client : ExternalAPIClient σ A) (ts : List (Transaction A))
    (rates : ExchangeRates A) (s : σ) :
    (mapPage client ts rates s).transactions.map Transaction.id = ts.map Transaction.id := by
  have h := congrArg (List.map Transaction.id) (mapPage_unconverted client ts rates s)
  rwa [List.map_map, List.map_map] at h

theorem mapPage_length (client : ExternalAPIClient σ A) (ts : List (Transaction A)) (rates : ExchangeRates A)
    (s : σ) : (mapPage client ts rates s).transactions.length = ts.length := by
  simpa using congrArg List.length (mapPage_ids client ts rates s)

theorem mapPage_not_raised {client : ExternalAPIClient σ A} (hclient : client.NullOrRate)
    (ts : List (Transaction A)) (hts : ∀ t ∈ ts, t.currency ≠ some getTargetCurrency → t.amount ≠ none)
    (rates : ExchangeRates A) (hrates : ∀ c, ∀ r ∈ rates c, r.value ≠ none) (s : σ) :
    (mapPage client ts rates s).raised = none := by
  induction ts generalizing rates s with
  | nil => rfl
  | cons t ts ih =>
    have htail : ∀ u ∈ ts, u.currency ≠ some getTargetCurrency → u.amount ≠ none :=
      fun u hu => hts u (List.mem_cons_of_mem _ hu)
    by_cases hc : t.currency = some getTargetCurrency
    · rw [mapPage_cons_of_done client (mapTransaction_of_target client hc rates s)]
      exact ih htail rates hrates s
    · obtain ⟨rate, rates', s', hlookup, hvalue, hrates'⟩ :=
        NullOrRate.computeIfAbsent hclient hrates t.currency s
      have hdone : (exchange t rate).2 = none := by
        by_contra hne
        obtain ⟨r, hr, ha | hv⟩ := (exchange_raised_iff t rate).mp hne
        · exact hts t List.mem_cons_self hc ha
        · exact hvalue r hr hv
      have hstep : mapTransaction client t rates s = (((exchange t rate).1, none), rates', s') := by
        rw [mapTransaction_of_lookup hc hlookup, ← hdone]
      rw [mapPage_cons_of_done client hstep]
      exact ih htail rates' hrates' s'

theorem convert_ok {client : ExternalAPIClient σ A} {s : σ} {page page' : Page (Transaction A)}
    (h : convert client s page = .ok page') :
    (mapPage client page.content (fun _ => none) s).raised = none ∧
      page' = page.withContent (mapPage client page.content (fun _ => none) s).transactions := by
  unfold convert at h
  dsimp only at h
  split at h
  · simp at h
  · rename_i hr
    exact ⟨hr, (Except.ok.inj h).symm⟩

theorem convert_of_not_raised {client : ExternalAPIClient σ A} {s : σ} {page : Page (Transaction A)}
    (h : (mapPage client page.content (fun _ => none) s).raised = none) :
    convert client s page =
      .ok (page.withContent (mapPage client page.content (fun _ => none) s).transactions) := by
  unfold convert
  dsimp only
  rw [h]

theorem find_of_pageable (repository : TransactionRepository A) (client : ExternalAPIClient σ A) (s : σ)
    (accountId : Long) (date : LocalDate) {page size : ℤ} {pageable : PageRequest}
    (h : PageRequest.of page size (.ascending "date") = .ok pageable) :
    findForAccountInMonthPaginated repository client s accountId date page size =
      convert client s (repository date.firstDay date.lastDay accountId pageable) := by
  rw [findForAccountInMonthPaginated, h]
  rfl

theorem convertWithClient_eq (client : ExternalAPIClient σ A) (s : σ) (page : Page (Transaction A)) :
    convertWithClient client s page =
      (convert client s page, (mapPage client page.content (fun _ => none) s).client) := by
  unfold convertWithClient convert
  dsimp only
  split <;> rfl

theorem findWithClient_of_pageable (repository : TransactionRepository A) (client : ExternalAPIClient σ A) (s : σ)
    (accountId : Long) (date : LocalDate) {page size : ℤ} {pageable : PageRequest}
    (h : PageRequest.of page size (.ascending "date") = .ok pageable) :
    findWithClient repository client s accountId date page size =
      convertWithClient client s (repository date.firstDay date.lastDay accountId pageable) := by
  rw [findWithClient, h]

theorem findWithClient_fst (repository : TransactionRepository A) (client : ExternalAPIClient σ A) (s : σ)
    (accountId : Long) (date : LocalDate) (page size : ℤ) :
    (findWithClient repository client s accountId date page size).1 =
      findForAccountInMonthPaginated repository client s accountId date page size := by
  cases h : PageRequest.of page size (.ascending "date") with
  | error e =>
    rw [findWithClient, findForAccountInMonthPaginated, h]
    rfl
  | ok pageable =>
    rw [findWithClient_of_pageable _ _ _ _ _ h, find_of_pageable _ _ _ _ _ h, convertWithClient_eq]

theorem convert_unconverted {client : ExternalAPIClient σ A} {s : σ} {page page' : Page (Transaction A)}
    (h : convert client s page = .ok page') :
    page'.content.map Transaction.unconverted = page.content.map Transaction.unconverted := by
  obtain ⟨-, rfl⟩ := convert_ok h
  rw [Page.withContent_content, mapPage_unconverted]

theorem find_eq (repository : TransactionRepository A) (client : ExternalAPIClient σ A) (s : σ)
    (accountId : Long) (date : LocalDate) {page size : ℤ} (hp : 0 ≤ page) (hs : 1 ≤ size) :
    findForAccountInMonthPaginated repository client s accountId date page size =
      convert client s (repository date.firstDay date.lastDay accountId
        ⟨page.toNat, size.toNat, .ascending "date", PageRequest.toNat_pos hs⟩) :=
  find_of_pageable repository client s accountId date (PageRequest.of_ok _ hp hs)

end EBank.TransactionServiceImpl
