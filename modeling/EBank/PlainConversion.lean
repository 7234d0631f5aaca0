import EBank.TransactionServiceImpl

namespace EBank.TransactionServiceImpl

open ExternalAPIClient

variable {A : Type} [Mul A]

section
variable (rates : Option Currency → Option A)

def plain (t : Transaction A) : Transaction A :=
  if t.currency = some getTargetCurrency then t
  else match rates t.currency with
    | none => t
    | some rate => { t with currency := some getTargetCurrency, amount := t.amount.map (· * rate) }

omit [Mul A] in
def logged : ExternalAPIClient (List (Option Currency)) A :=
  fun currency log => (.ok ((rates currency).map (fun rate => ⟨some rate⟩)), log ++ [currency])

def CachedFrom (table : ExchangeRates A) : Prop :=
  ∀ c, table c = none ∨ table c = (rates c).map (fun rate => ⟨some rate⟩)

def requestCount (table : ExchangeRates A) (cs : List (Option Currency)) (c : Option Currency) : ℕ :=
  if c = some getTargetCurrency ∨ (table c).isSome then 0
  else if (rates c).isNone then cs.count c
  else min 1 (cs.count c)

variable {rates}

theorem plain_of_target {t : Transaction A} (hc : t.currency = some getTargetCurrency) : plain rates t = t := by
  rw [plain, if_pos hc]

theorem plain_of_unrated {t : Transaction A} (h : rates t.currency = none) : plain rates t = t := by
  rw [plain, h]
  split_ifs <;> rfl

theorem exchange_plain {t : Transaction A} (hc : t.currency ≠ some getTargetCurrency) (ha : t.amount ≠ none) :
    exchange t ((rates t.currency).map (fun rate => ⟨some rate⟩)) = (plain rates t, none) := by
  obtain ⟨amount, hamount⟩ := Option.ne_none_iff_exists'.mp ha
  rw [plain, if_neg hc]
  cases h : rates t.currency with
  | none => rfl
  | some rate => simp only [Option.map_some, exchange, hamount]

omit [Mul A] in
theorem computeIfAbsent_logged {table : ExchangeRates A} (htable : CachedFrom rates table)
    (c : Option Currency) (log : List (Option Currency)) :
    ∃ table', Memo.computeIfAbsent table c (logged rates) log =
        (.ok ((rates c).map (fun rate => ⟨some rate⟩)), table',
          if table c = none then log ++ [c] else log) ∧
      CachedFrom rates table' ∧ table' c = (rates c).map (fun rate => ⟨some rate⟩) ∧
      ∀ c', c' ≠ c → table' c' = table c' := by
  cases hc : table c with
  | some r =>
    have hrate : (rates c).map (fun rate => ⟨some rate⟩) = some r := by
      rw [← hc]
      exact ((htable c).resolve_left (by simp [hc])).symm
    refine ⟨table, ?_, htable, by rw [hc, hrate], fun _ _ => rfl⟩
    rw [Memo.computeIfAbsent, hc, hrate]
    rfl
  | none =>
    cases hr : rates c with
    | none =>
      refine ⟨table, ?_, htable, hc, fun _ _ => rfl⟩
      simp only [Memo.computeIfAbsent, hc, logged, hr, Option.map_none, if_true]
    | some rate =>
      refine ⟨Function.update table c (some ⟨some rate⟩), ?_, ?_, Function.update_self _ _ _,
        fun c' hc' => Function.update_of_ne hc' _ _⟩
      · simp only [Memo.computeIfAbsent, hc, logged, hr, Option.map_some, if_true]
      · intro c'
        by_cases hcc : c' = c
        · right
          rw [hcc, Function.update_self, hr, Option.map_some]
        · rw [Function.update_of_ne hcc]
          exact htable c'

omit [Mul A] in
theorem requestCount_target (table : ExchangeRates A) (cs : List (Option Currency)) (c : Option Currency) :
    requestCount rates table (some getTargetCurrency :: cs) c = requestCount rates table cs c := by
  unfold requestCount
  by_cases hc : c = some getTargetCurrency
  · rw [if_pos (.inl hc), if_pos (.inl hc)]
  · rw [List.count_cons_of_ne (Ne.symm hc)]

omit [Mul A] in
theorem requestCount_cons {table table' : ExchangeRates A} (htable : CachedFrom rates table)
    {c : Option Currency} (hc : c ≠ some getTargetCurrency) (hself : table' c = (rates c).map (fun rate => ⟨some rate⟩))
    (hother : ∀ c', c' ≠ c → table' c' = table c') (cs log : List (Option Currency)) (c' : Option Currency) :
    log.count c' + requestCount rates table (c :: cs) c' =
      (if table c = none then log ++ [c] else log).count c' + requestCount rates table' cs c' := by
  unfold requestCount
  by_cases hcc : c' = c
  · subst hcc
    rw [hself, List.count_cons_self]
    cases hcached : table c' with
    | some r =>
      have hrate : (rates c').isSome := by
        rw [← Option.isSome_map (f := fun rate => (⟨some rate⟩ : InlineResponse200 A)),
          ← (htable c').resolve_left (by simp [hcached]), hcached]
        rfl
      simp [hc, hrate]
    | none =>
      cases rates c' <;> simp [hc, List.count_append, Nat.add_comm, Nat.add_left_comm]
  · have hlog : (if table c = none then log ++ [c] else log).count c' = log.count c' := by
      split_ifs
      · rw [List.count_append, List.count_singleton, if_neg (by simpa using Ne.symm hcc), Nat.add_zero]
      · rfl
    rw [hlog, hother c' hcc, List.count_cons_of_ne (Ne.symm hcc)]

theorem mapPage_logged (ts : List (Transaction A)) (hts : ∀ t ∈ ts, t.amount ≠ none)
    (table : ExchangeRates A) (htable : CachedFrom rates table) (log : List (Option Currency)) :
    (mapPage (logged rates) ts table log).raised = none ∧
      (mapPage (logged rates) ts table log).transactions = ts.map (plain rates) ∧
      ∀ c, (mapPage (logged rates) ts table log).client.count c =
        log.count c + requestCount rates table (ts.map Transaction.currency) c := by
  induction ts generalizing table log with
  | nil =>
    refine ⟨rfl, rfl, ?_⟩
    intro c
    simp [mapPage, requestCount]
  | cons t ts ih =>
    obtain ⟨hamount, htail⟩ := List.forall_mem_cons.mp hts
    by_cases hc : t.currency = some getTargetCurrency
    · obtain ⟨hraised, htransactions, hcount⟩ := ih htail table htable log
      rw [mapPage_cons_of_done _ (mapTransaction_of_target _ hc table log)]
      refine ⟨hraised, by rw [List.map_cons, plain_of_target hc, htransactions], ?_⟩
      intro c
      rw [List.map_cons, hc, requestCount_target, ← hcount c]
    · obtain ⟨table', hlookup, htable', hself, hother⟩ := computeIfAbsent_logged htable t.currency log
      have hstep := mapTransaction_of_lookup hc hlookup
      rw [exchange_plain hc hamount] at hstep
      obtain ⟨hraised, htransactions, hcount⟩ := ih htail table' htable' _
      rw [mapPage_cons_of_done _ hstep]
      refine ⟨hraised, by rw [List.map_cons, htransactions], ?_⟩
      intro c
      rw [List.map_cons, requestCount_cons htable hc hself hother]
      exact hcount c

theorem plain_plain (t : Transaction A) : plain rates (plain rates t) = plain rates t := by
  by_cases hc : t.currency = some getTargetCurrency
  · rw [plain_of_target hc, plain_of_target hc]
  · cases h : rates t.currency with
    | none => rw [plain_of_unrated h, plain_of_unrated h]
    | some rate =>
      apply plain_of_target
      rw [plain, if_neg hc, h]

theorem plain_amount {t : Transaction A} (h : t.amount ≠ none) : (plain rates t).amount ≠ none := by
  obtain ⟨amount, hamount⟩ := Option.ne_none_iff_exists'.mp h
  unfold plain
  split
  · exact h
  · split
    · exact h
    · simp [hamount]

theorem convert_logged {page : Page (Transaction A)} (hts : ∀ t ∈ page.content, t.amount ≠ none)
    (log : List (Option Currency)) :
    convert (logged rates) log page = .ok (page.withContent (page.content.map (plain rates))) := by
  obtain ⟨hraised, htransactions, -⟩ :=
    mapPage_logged page.content hts (fun _ => none) (fun _ => .inl rfl) log
  rw [convert_of_not_raised hraised, htransactions]

theorem convert_again {page : Page (Transaction A)} (hts : ∀ t ∈ page.content, t.amount ≠ none)
    (log : List (Option Currency)) :
    convert (logged rates) log (page.withContent (page.content.map (plain rates))) =
      .ok (page.withContent (page.content.map (plain rates))) := by
  have hagain : (page.content.map (plain rates)).map (plain rates) = page.content.map (plain rates) := by
    rw [List.map_map]
    apply List.map_congr_left
    intro t _
    exact plain_plain t
  rw [convert_logged, Page.withContent_content, hagain, Page.withContent_withContent]
  rw [Page.withContent_content, List.forall_mem_map]
  intro t ht
  exact plain_amount (hts t ht)

end

theorem find_logged (repository : TransactionRepository A) (rates : Option Currency → Option A)
    (accountId : Long) (date : LocalDate) (page size : ℤ) (pageable : PageRequest)
    (hpageable : PageRequest.of page size (.ascending "date") = .ok pageable)
    (hts : ∀ t ∈ (repository date.firstDay date.lastDay accountId pageable).content, t.amount ≠ none) :
    let transactionsPage := repository date.firstDay date.lastDay accountId pageable
    let result := transactionsPage.withContent (transactionsPage.content.map (plain rates))
    let requests := (mapPage (logged rates) transactionsPage.content (fun _ => none) []).client
    let currencies := transactionsPage.content.map Transaction.currency
    findForAccountInMonthPaginated repository (logged rates) [] accountId date page size = .ok result ∧
      findWithClient repository (logged rates) [] accountId date page size = (.ok result, requests) ∧
      result.content = transactionsPage.content.map (plain rates) ∧
      (requests.count (some getTargetCurrency) = 0 ∧ ∀ c, c ∉ currencies → requests.count c = 0) ∧
      (∀ c ∈ currencies, c ≠ some getTargetCurrency → rates c ≠ none → requests.count c = 1) ∧
      (∀ c, c ≠ some getTargetCurrency → rates c = none → requests.count c = currencies.count c) ∧
      ∀ log, convert (logged rates) log result = .ok result := by
  intro transactionsPage result requests currencies
  obtain ⟨-, -, hcount⟩ := @mapPage_logged A _ rates transactionsPage.content hts
    (fun _ => none) (fun _ => .inl rfl) []
  have hrequests : ∀ c, requests.count c = requestCount rates (fun _ => none) currencies c := by
    intro c
    rw [hcount, List.count_nil, Nat.zero_add]
  have hconvert : convert (logged rates) [] transactionsPage = .ok result := convert_logged hts []
  refine ⟨?_, ?_, Page.withContent_content _ _, ⟨?_, ?_⟩, ?_, ?_, convert_again hts⟩
  · rw [find_of_pageable _ _ _ _ _ hpageable]
    exact hconvert
  · rw [findWithClient_of_pageable _ _ _ _ _ hpageable, convertWithClient_eq]
    exact congrArg (·, requests) hconvert
  · rw [hrequests, requestCount, if_pos (.inl rfl)]
  · intro c hc
    rw [hrequests, requestCount, List.count_eq_zero.mpr hc, Nat.min_zero, ite_self, ite_self]
  · intro c hmem hc hrate
    have hpos : 0 < currencies.count c := List.count_pos_iff.mpr hmem
    rw [hrequests, requestCount, if_neg (by simpa using hc), if_neg (by simpa using hrate)]
    omega
  · intro c hc hrate
    rw [hrequests, requestCount, if_neg (by simpa using hc), if_pos (by simpa using hrate)]

def mixedPayments : List (Transaction ℤ) :=
  [.row 1 1 LocalDate.january 10 .CHF, .row 2 1 LocalDate.january 20 .GBP,
    .row 3 1 LocalDate.january 30 .EUR, .row 4 1 LocalDate.january 40 .CHF, .row 5 1 LocalDate.january 50 .EUR]

def francRate (c : Option Currency) : Option ℤ := if c = some .CHF then some 3 else none

theorem mixed_logged : ∃ requests : List (Option Currency),
    findWithClient (fun _ _ _ _ => ⟨mixedPayments, none, 5⟩) (logged francRate) [] 1 LocalDate.january 0 20 =
      (.ok ⟨[.row 1 1 LocalDate.january 30 .GBP, .row 2 1 LocalDate.january 20 .GBP,
        .row 3 1 LocalDate.january 30 .EUR, .row 4 1 LocalDate.january 120 .GBP,
        .row 5 1 LocalDate.january 50 .EUR], none, 5⟩, requests) ∧
    requests.count (some .GBP) = 0 ∧ requests.count (some .CHF) = 1 ∧ requests.count (some .EUR) = 2 := by
  have hamount : ∀ t ∈ mixedPayments, t.amount ≠ none := by decide
  obtain ⟨-, hrun, -, ⟨htarget, -⟩, hrate, hnone, -⟩ := find_logged (fun _ _ _ _ => ⟨mixedPayments, none, 5⟩)
    francRate 1 LocalDate.january 0 20 ⟨0, 20, .ascending "date", by decide⟩ rfl hamount
  exact ⟨_, hrun, htarget, hrate _ (by decide) (by decide) (by decide), hnone _ (by decide) (by decide)⟩

end EBank.TransactionServiceImpl
