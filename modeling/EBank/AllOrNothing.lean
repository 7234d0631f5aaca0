import EBank.OneRate

namespace EBank.TransactionServiceImpl

open ExternalAPIClient

variable {A : Type} [Mul A]

def ConvertedAt (rate : Option (InlineResponse200 A)) (t t' : Transaction A) : Prop :=
  ∃ r ∈ rate, ∃ value ∈ r.value, ExchangedAt value t t'

theorem exchange_currency (t : Transaction A) (r : InlineResponse200 A) :
    (exchange t (some r)).1.currency = some getTargetCurrency := by
  cases ha : t.amount <;> cases hv : r.value <;> simp only [exchange, ha, hv]

theorem exchange_torn {t : Transaction A} (hc : t.currency ≠ some getTargetCurrency)
    {rate : Option (InlineResponse200 A)} (h : (exchange t rate).2 ≠ none) :
    ¬ Unchanged t (exchange t rate).1 ∧ ¬ ConvertedAt rate t (exchange t rate).1 := by
  obtain ⟨r, hr, hmissing⟩ := (exchange_raised_iff t rate).mp h
  constructor
  · rintro ⟨hcurrency, -⟩
    apply hc
    rw [← hcurrency, Option.mem_def.mp hr, exchange_currency]
  · rintro ⟨r', hr', value, hvalue, -, amount, hamount, -⟩
    have hsame : r' = r := Option.mem_unique hr' hr
    subst hsame
    rcases hmissing with hnone | hnone
    · rw [hnone] at hamount
      cases hamount
    · rw [hnone] at hvalue
      cases hvalue

theorem exchange_whole {t : Transaction A} {rate : Option (InlineResponse200 A)}
    (hrate : rate ≠ none → t.currency ≠ some getTargetCurrency) (h : (exchange t rate).2 = none) :
    Xor (Unchanged t (exchange t rate).1) (ConvertedAt rate t (exchange t rate).1) := by
  cases rate with
  | none =>
    left
    refine ⟨⟨rfl, rfl⟩, ?_⟩
    rintro ⟨r, hr, -⟩
    cases hr
  | some r =>
    right
    obtain ⟨value, hvalue, hexchanged⟩ := exchange_exchangedAt h
    refine ⟨⟨r, rfl, value, hvalue, hexchanged⟩, ?_⟩
    rintro ⟨hcurrency, -⟩
    apply hrate (Option.some_ne_none r)
    rw [← hcurrency]
    exact hexchanged.1

theorem exchangeAll_raised_at {ps : List (Transaction A × Option (InlineResponse200 A))}
    (h : (exchangeAll ps).2 ≠ none) :
    ∃ (i : ℕ) (t : Transaction A) (rate : Option (InlineResponse200 A)),
      ps[i]? = some (t, rate) ∧ (exchange t rate).2 ≠ none ∧
      (exchangeAll ps).1[i]? = some (exchange t rate).1 := by
  induction ps with
  | nil => exact absurd rfl h
  | cons p ps ih =>
    obtain ⟨t, rate⟩ := p
    rcases hx : exchange t rate with ⟨t', _ | e⟩
    · obtain ⟨i, u, rate', hu, hraised, hi⟩ := ih (by simpa [exchangeAll, hx] using h)
      exact ⟨i + 1, u, rate', hu, hraised, by simpa [exchangeAll, hx] using hi⟩
    · exact ⟨0, t, rate, rfl, by simp [hx], by simp [exchangeAll, hx]⟩

theorem convert_eq {σ : Type} (client : ExternalAPIClient σ A) (s : σ) (page : Page (Transaction A)) :
    let mapped := mapPage client page.content (fun _ => none) s
    convert client s page = mapped.raised.elim (.ok (page.withContent mapped.transactions)) .error := by
  unfold convert
  dsimp only
  cases (mapPage client page.content (fun _ => none) s).raised <;> rfl

section
variable (replies : Option Currency → ℕ → Option (InlineResponse200 A)) (ts : List (Transaction A))

def AllOrNothing (ts' : List (Transaction A)) : Prop :=
  ∀ i t, ts[i]? = some t → ∃ t', ts'[i]? = some t' ∧
    Xor (Unchanged t t') (ConvertedAt (rateFor replies ((ts.take i).map Transaction.currency) t) t t')

omit [Mul A] in
theorem mem_rateFor_iff (seen : List (Option Currency)) (t : Transaction A) (r : InlineResponse200 A) :
    r ∈ rateFor replies seen t ↔ t.currency ≠ some getTargetCurrency ∧
      ∃ j ≤ Memo.occurrences seen t.currency, replies t.currency j = some r ∧
        ∀ k < j, replies t.currency k = none := by
  rw [rateFor, Option.mem_def]
  split_ifs with hc
  · rw [Memo.firstReply_eq_some_iff]
    simp only [Nat.lt_succ_iff]
    exact ⟨fun h => ⟨hc, h⟩, fun h => h.2⟩
  · constructor
    · intro h
      cases h
    · rintro ⟨h, -⟩
      exact absurd h hc

theorem allOrNothing_iff_not_raised :
    AllOrNothing replies ts (exchangeAll (withRates replies [] ts)).1 ↔
      (exchangeAll (withRates replies [] ts)).2 = none := by
  constructor
  · intro h
    by_contra hne
    obtain ⟨i, t, rate, hp, hraised, hi⟩ := exchangeAll_raised_at hne
    have hlt : i < ts.length := by simpa using (List.getElem?_eq_some_iff.mp hp).1
    rw [getElem?_withRates replies [] ts i hlt, List.nil_append, Option.some_inj] at hp
    obtain ⟨rfl, rfl⟩ := Prod.mk.inj hp
    obtain ⟨r, hr, -⟩ := (exchange_raised_iff _ _).mp hraised
    have hc := ((mem_rateFor_iff replies _ _ r).mp hr).1
    obtain ⟨hunchanged, hconverted⟩ := exchange_torn hc hraised
    obtain ⟨t', ht', hstate⟩ := h i ts[i] (List.getElem?_eq_getElem hlt)
    rw [hi, Option.some_inj] at ht'
    subst ht'
    exact hstate.or.elim hunchanged hconverted
  · intro h i t ht
    obtain ⟨hlt, rfl⟩ := List.getElem?_eq_some_iff.mp ht
    have hp := getElem?_withRates replies [] ts i hlt
    rw [List.nil_append] at hp
    refine ⟨_, by rw [exchangeAll_done h, List.getElem?_map, hp, Option.map_some], ?_⟩
    apply exchange_whole
    · intro hrate
      obtain ⟨r, hr⟩ := Option.ne_none_iff_exists'.mp hrate
      exact ((mem_rateFor_iff replies _ _ r).mp hr).1
    · by_contra hne
      exact (exchangeAll_raised_iff _).mpr ⟨_, List.mem_of_getElem? hp, hne⟩ h

end

/-- Every object of the page is whole after the mapping exactly when no transaction in another
currency met a rate while its amount or the rate's value was missing. -/
theorem allOrNothing_iff (repository : TransactionRepository A)
    (replies : Option Currency → ℕ → Option (InlineResponse200 A)) (accountId : Long) (date : LocalDate)
    (page size : ℤ) (pageable : PageRequest)
    (hpageable : PageRequest.of page size (.ascending "date") = .ok pageable) :
    let transactionsPage := repository date.firstDay date.lastDay accountId pageable
    let mapped := mapPage (Memo.scripted replies) transactionsPage.content (fun _ => none) (fun _ => 0)
    findForAccountInMonthPaginated repository (Memo.scripted replies) (fun _ => 0) accountId date page size =
        mapped.raised.elim (.ok (transactionsPage.withContent mapped.transactions)) .error ∧
      (AllOrNothing replies transactionsPage.content mapped.transactions ↔
        ∀ i t, transactionsPage.content[i]? = some t → t.currency ≠ some getTargetCurrency →
          ∀ j ≤ Memo.occurrences ((transactionsPage.content.take i).map Transaction.currency) t.currency,
            ∀ r, replies t.currency j = some r → (∀ k < j, replies t.currency k = none) →
              t.amount ≠ none ∧ r.value ≠ none) := by
  intro transactionsPage mapped
  obtain ⟨hts, hraised⟩ := mapPage_start (Memo.scripted_plays replies) rfl transactionsPage.content
  constructor
  · rw [find_of_pageable _ _ _ _ _ hpageable, convert_eq]
  · rw [show mapped.transactions = _ from hts, allOrNothing_iff_not_raised, ← not_iff_not, ← ne_eq,
      exchangeAll_raised_iff]
    constructor
    · rintro ⟨p, hp, hne⟩ hall
      obtain ⟨i, t, ht, rfl⟩ := (mem_withRates_iff replies _ p).mp hp
      obtain ⟨r, hr, hmissing⟩ := (exchange_raised_iff _ _).mp hne
      obtain ⟨hc, j, hj, hreply, hfirst⟩ := (mem_rateFor_iff replies _ t r).mp hr
      obtain ⟨hamount, hvalue⟩ := hall i t ht hc j hj r hreply hfirst
      exact hmissing.elim hamount hvalue
    · intro hnot
      by_contra hdone
      apply hnot
      intro i t ht hc j hj r hreply hfirst
      rw [← not_or]
      intro hmissing
      apply hdone
      refine ⟨_, (mem_withRates_iff replies _ _).mpr ⟨i, t, ht, rfl⟩, ?_⟩
      apply (exchange_raised_iff _ _).mpr
      exact ⟨r, (mem_rateFor_iff replies _ t r).mpr ⟨hc, j, hj, hreply, hfirst⟩, hmissing⟩

theorem francPayments_allOrNothing : AllOrNothing (fun _ _ => some ⟨some 2⟩) francPayments
    [.row 1 1 LocalDate.january 20 .GBP, .row 2 1 LocalDate.january 40 .GBP] := by
  apply (allOrNothing_iff (fun _ _ _ _ => ⟨francPayments, none, 2⟩) (fun _ _ => some ⟨some 2⟩) 1
    LocalDate.january 0 20 ⟨0, 20, .ascending "date", by decide⟩ rfl).2.mpr
  intro i t ht hc j hj r hr hfirst
  have hmem := List.mem_of_getElem? ht
  simp only [francPayments, List.mem_cons, List.not_mem_nil, or_false] at hmem
  rw [← Option.some_inj.mp hr]
  rcases hmem with rfl | rfl <;> exact ⟨Option.some_ne_none _, Option.some_ne_none _⟩

theorem rate_without_value_torn :
    let client := Memo.scripted fun _ _ => some ⟨none⟩
    let mapped := mapPage client francPayments (fun _ => none) (fun _ => 0)
    findForAccountInMonthPaginated (fun _ _ _ _ => ⟨francPayments, none, 2⟩) client (fun _ => 0) 1
        LocalDate.january 0 20 = .error .nullPointer ∧
      mapped.transactions = [.row 1 1 LocalDate.january 10 .GBP, .row 2 1 LocalDate.january 20 .CHF] ∧
      ¬ AllOrNothing (fun _ _ => some ⟨none⟩) francPayments mapped.transactions := by
  refine ⟨rfl, rfl, ?_⟩
  intro h
  obtain ⟨t', ht', hstate⟩ := h 0 (.row 1 1 LocalDate.january 10 .CHF) rfl
  obtain rfl := Option.some_inj.mp ht'
  rcases hstate.or with ⟨hcurrency, -⟩ | ⟨r, hr, value, hvalue, -⟩
  · exact absurd hcurrency (by decide)
  · obtain rfl := Option.some_inj.mp hr
    cases hvalue

end EBank.TransactionServiceImpl
