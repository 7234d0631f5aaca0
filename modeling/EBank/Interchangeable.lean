import EBank.ScriptedConversion

namespace EBank.TransactionServiceImpl

open ExternalAPIClient

variable {σ A : Type} [Mul A]

section Service
variable (service : ExchangeRateService σ A)

theorem mapTransaction_agree {t : Transaction A} (ht : t.currency ≠ none) (rates : ExchangeRates A) (s : σ) :
    mapTransaction (ExchangeRateFeignClient.getExchangeRate service) t rates s =
      mapTransaction (ExchangeRateRestTemplateClient.getExchangeRate service) t rates s := by
  obtain ⟨currency, hcurrency⟩ := Option.ne_none_iff_exists'.mp ht
  have hagree : ExchangeRateFeignClient.getExchangeRate service t.currency s =
      ExchangeRateRestTemplateClient.getExchangeRate service t.currency s := by
    rw [hcurrency, clients_agree]
  rw [mapTransaction, mapTransaction, Memo.computeIfAbsent_congr hagree]

theorem mapPage_agree (ts : List (Transaction A)) (hts : ∀ t ∈ ts, t.currency ≠ none)
    (rates : ExchangeRates A) (s : σ) :
    mapPage (ExchangeRateFeignClient.getExchangeRate service) ts rates s =
      mapPage (ExchangeRateRestTemplateClient.getExchangeRate service) ts rates s := by
  induction ts generalizing rates s with
  | nil => rfl
  | cons t ts ih =>
    have hagree := mapTransaction_agree service (hts t List.mem_cons_self) rates s
    have htail : ∀ u ∈ ts, u.currency ≠ none := fun u hu => hts u (List.mem_cons_of_mem _ hu)
    rcases hm : mapTransaction (ExchangeRateFeignClient.getExchangeRate service) t rates s with
      ⟨⟨t', _ | e⟩, rates', s'⟩
    · rw [mapPage_cons_of_done _ hm, mapPage_cons_of_done _ (hagree ▸ hm), ih htail]
    · rw [mapPage_cons_of_raised _ hm, mapPage_cons_of_raised _ (hagree ▸ hm)]

theorem feign_raised {t : Transaction A} {rates : ExchangeRates A} {s : σ} {e : JavaException}
    (h : (mapTransaction (ExchangeRateFeignClient.getExchangeRate service) t rates s).1.2 = some e) :
    e = .nullPointer := by
  rcases mapTransaction_cases (ExchangeRateFeignClient.getExchangeRate service) t rates s with
    ⟨-, hm⟩ | ⟨-, rates', s', ⟨rate, -, hm⟩ | ⟨e', hlookup, -⟩⟩
  · rw [hm] at h
    cases h
  · rw [hm] at h
    exact exchange_raised h
  · obtain ⟨rate, hrate⟩ := Memo.computeIfAbsent_ok (feign_ok service t.currency s) rates
    rw [hlookup] at hrate
    cases hrate

theorem mapTransaction_other (client : ExternalAPIClient σ A) (t : Transaction A)
    (rates : ExchangeRates A) (s : σ)
    {c : Option Currency} (hc : c ≠ t.currency) : (mapTransaction client t rates s).2.1 c = rates c := by
  have hother := Memo.computeIfAbsent_other rates hc client s
  rcases mapTransaction_cases client t rates s with ⟨-, hm⟩ | ⟨-, rates', s',
    ⟨rate, hlookup, hm⟩ | ⟨e, hlookup, hm⟩⟩
  · rw [hm]
  · rw [hlookup] at hother
    rwa [hm]
  · rw [hlookup] at hother
    rwa [hm]

theorem restTemplate_raises (ts : List (Transaction A)) (hts : ∃ t ∈ ts, t.currency = none)
    (rates : ExchangeRates A) (hrates : rates none = none) (s : σ) :
    (mapPage (ExchangeRateRestTemplateClient.getExchangeRate service) ts rates s).raised =
      some .nullPointer := by
  induction ts generalizing rates s with
  | nil => simp at hts
  | cons t ts ih =>
    by_cases hnull : t.currency = none
    · have hraise : mapTransaction (ExchangeRateRestTemplateClient.getExchangeRate service) t rates s =
          ((t, some .nullPointer), rates, s) := by
        rw [mapTransaction, if_pos (by rw [hnull]; exact (Option.some_ne_none _).symm), hnull,
          Memo.computeIfAbsent, hrates]
        rfl
      rw [mapPage_cons_of_raised _ hraise]
    · have hagree := mapTransaction_agree service hnull rates s
      have hkeep :
          (mapTransaction (ExchangeRateRestTemplateClient.getExchangeRate service) t rates s).2.1 none =
            none := by
        rw [mapTransaction_other _ t rates s (Ne.symm hnull), hrates]
      rcases hm : mapTransaction (ExchangeRateRestTemplateClient.getExchangeRate service) t rates s with
        ⟨⟨t', _ | e⟩, rates', s'⟩
      · rw [mapPage_cons_of_done _ hm]
        rw [hm] at hkeep
        apply ih _ rates' hkeep
        obtain ⟨u, hu, hunull⟩ := hts
        rcases List.mem_cons.mp hu with rfl | hu
        · exact absurd hunull hnull
        · exact ⟨u, hu, hunull⟩
      · rw [mapPage_cons_of_raised _ hm]
        rw [← hagree] at hm
        rw [feign_raised service (congrArg (fun r => r.1.2) hm)]

end Service

/-- Some transaction in a foreign currency met a first non-null reply, one of the two without its number. -/
def MissingNumberMet (replies : String → String → ℕ → ServiceReply A) (ts : List (Transaction A)) : Prop :=
  ∃ i t, ts[i]? = some t ∧ ∃ c ∈ t.currency, c ≠ getTargetCurrency ∧
    ∃ r ∈ Memo.firstReply (fun j => (replies c.toString getTargetCurrency.toString j).rate)
        (Memo.occurrences ((ts.take i).map Transaction.currency) (some c) + 1),
      t.amount = none ∨ r.value = none

section Scripted
variable (replies : String → String → ℕ → ServiceReply A)

omit [Mul A] in
theorem feign_rateFor_iff (seen : List (Option Currency)) (t : Transaction A) (r : InlineResponse200 A) :
    r ∈ rateFor (feignReplies replies) seen t ↔ ∃ c ∈ t.currency, c ≠ getTargetCurrency ∧
      r ∈ Memo.firstReply (fun j => (replies c.toString getTargetCurrency.toString j).rate)
        (Memo.occurrences seen (some c) + 1) := by
  unfold rateFor
  cases hc : t.currency with
  | none =>
    have hnone : Memo.firstReply (feignReplies replies none) (Memo.occurrences seen none + 1) = none :=
      (Memo.firstReply_eq_none_iff _ _).mpr fun _ _ => rfl
    simp [hnone]
  | some c =>
    have hreplies : feignReplies replies (some c) = fun j =>
        (replies c.toString getTargetCurrency.toString j).rate := rfl
    by_cases htarget : c = getTargetCurrency
    · simp [htarget]
    · simp [htarget, hreplies]

theorem feign_raised_iff (ts : List (Transaction A)) :
    (mapPage (ExchangeRateFeignClient.getExchangeRate (scriptedService replies)) ts (fun _ => none) (fun _ => 0)).raised ≠
      none ↔ MissingNumberMet replies ts := by
  rw [(mapPage_start (feign_plays replies) (fun _ => rfl) ts).2, exchangeAll_raised_iff]
  simp only [exchange_raised_iff, mem_withRates_iff]
  constructor
  · rintro ⟨-, ⟨i, t, ht, rfl⟩, r, hr, hmissing⟩
    obtain ⟨c, hc, htarget, hfirst⟩ := (feign_rateFor_iff replies _ t r).mp hr
    exact ⟨i, t, ht, c, hc, htarget, r, hfirst, hmissing⟩
  · rintro ⟨i, t, ht, c, hc, htarget, r, hfirst, hmissing⟩
    exact ⟨_, ⟨i, t, ht, rfl⟩, r, (feign_rateFor_iff replies _ t r).mpr ⟨c, hc, htarget, hfirst⟩, hmissing⟩

theorem feign_raised_nullPointer {ts : List (Transaction A)} {e : JavaException}
    (h : (mapPage (ExchangeRateFeignClient.getExchangeRate (scriptedService replies)) ts (fun _ => none)
      (fun _ => 0)).raised = some e) : e = .nullPointer := by
  rw [(mapPage_start (feign_plays replies) (fun _ => rfl) ts).2] at h
  exact exchangeAll_raised h

/-- The two clients give the same outcome exactly on a page without a missing currency, or where
the page fails under the other client too. -/
theorem clients_interchangeable_iff (repository : TransactionRepository A) (accountId : Long)
    (date : LocalDate) (page size : ℤ) (pageable : PageRequest)
    (hpageable : PageRequest.of page size (.ascending "date") = .ok pageable) :
    findForAccountInMonthPaginated repository (ExchangeRateFeignClient.getExchangeRate (scriptedService replies))
        (fun _ => 0) accountId date page size =
      findForAccountInMonthPaginated repository (ExchangeRateRestTemplateClient.getExchangeRate (scriptedService replies))
        (fun _ => 0) accountId date page size ↔
    (∀ t ∈ (repository date.firstDay date.lastDay accountId pageable).content, t.currency ≠ none) ∨
      MissingNumberMet replies (repository date.firstDay date.lastDay accountId pageable).content := by
  rw [find_of_pageable _ _ _ _ _ hpageable, find_of_pageable _ _ _ _ _ hpageable]
  generalize repository date.firstDay date.lastDay accountId pageable = transactionsPage
  by_cases hnull : ∀ t ∈ transactionsPage.content, t.currency ≠ none
  · constructor
    · intro _
      exact .inl hnull
    · intro _
      rw [convert, convert, mapPage_agree _ _ hnull]
  · have hrest :
        convert (ExchangeRateRestTemplateClient.getExchangeRate (scriptedService replies)) (fun _ => 0)
          transactionsPage = .error .nullPointer := by
      rw [convert, restTemplate_raises _ _ (by simpa using hnull) _ rfl]
    rw [hrest, ← feign_raised_iff]
    constructor
    · intro hfeign
      right
      intro hdone
      rw [convert_of_not_raised hdone] at hfeign
      cases hfeign
    · rintro (hall | hraised)
      · exact absurd hall hnull
      · obtain ⟨e, he⟩ := Option.ne_none_iff_exists'.mp hraised
        rw [convert, he, feign_raised_nullPointer replies he]

end Scripted

def unreachable (_ _ : String) (_ : ℕ) : ServiceReply ℤ := .error

def pageOf (currency : Option Currency) : Page (Transaction ℤ) :=
  ⟨[⟨1, some 1, none, some LocalDate.january, some 10, currency, none⟩], none, 1⟩

theorem francs_interchangeable :
    findForAccountInMonthPaginated (fun _ _ _ _ => pageOf (some .CHF))
        (ExchangeRateFeignClient.getExchangeRate (scriptedService unreachable)) (fun _ => 0) 1 LocalDate.january 0 20 =
      findForAccountInMonthPaginated (fun _ _ _ _ => pageOf (some .CHF))
        (ExchangeRateRestTemplateClient.getExchangeRate (scriptedService unreachable)) (fun _ => 0) 1
        LocalDate.january 0 20 := by
  apply (clients_interchangeable_iff unreachable (fun _ _ _ _ => pageOf (some .CHF)) 1 LocalDate.january 0 20
    ⟨0, 20, .ascending "date", by decide⟩ rfl).mpr
  left
  simp [pageOf]

theorem missingCurrency_differs :
    findForAccountInMonthPaginated (fun _ _ _ _ => pageOf none)
        (ExchangeRateFeignClient.getExchangeRate (scriptedService unreachable)) (fun _ => 0) 1 LocalDate.january 0 20 =
      .ok (pageOf none) ∧
    findForAccountInMonthPaginated (fun _ _ _ _ => pageOf none)
        (ExchangeRateRestTemplateClient.getExchangeRate (scriptedService unreachable)) (fun _ => 0) 1
        LocalDate.january 0 20 = .error .nullPointer ∧
    findForAccountInMonthPaginated (fun _ _ _ _ => pageOf none)
        (ExchangeRateFeignClient.getExchangeRate (scriptedService unreachable)) (fun _ => 0) 1 LocalDate.january 0 20 ≠
      findForAccountInMonthPaginated (fun _ _ _ _ => pageOf none)
        (ExchangeRateRestTemplateClient.getExchangeRate (scriptedService unreachable)) (fun _ => 0) 1
        LocalDate.january 0 20 := by
  refine ⟨rfl, rfl, ?_⟩
  intro h
  cases h

end EBank.TransactionServiceImpl
