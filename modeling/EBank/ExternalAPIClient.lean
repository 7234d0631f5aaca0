import EBank.Models
import EBank.Memo

namespace EBank

variable {σ A : Type}

/-- `getExchangeRate`, whose answer may depend on the state the client and the service are in. -/
abbrev ExternalAPIClient (σ A : Type) :=
  Option Currency → σ → Except JavaException (Option (InlineResponse200 A)) × σ

namespace ExternalAPIClient

def TARGET_CURRENCY : Currency := .GBP

def getTargetCurrency : Currency := TARGET_CURRENCY

def NullOrRate (client : ExternalAPIClient σ A) : Prop :=
  ∀ currency s, ∃ rate, (client currency s).1 = .ok rate ∧ ∀ r ∈ rate, r.value ≠ none

theorem NullOrRate.computeIfAbsent {client : ExternalAPIClient σ A} (hclient : client.NullOrRate)
    {rates : Option Currency → Option (InlineResponse200 A)} (hrates : ∀ c, ∀ r ∈ rates c, r.value ≠ none)
    (c : Option Currency) (s : σ) :
    ∃ rate rates' s', Memo.computeIfAbsent rates c client s = (.ok rate, rates', s') ∧
      (∀ r ∈ rate, r.value ≠ none) ∧ ∀ c, ∀ r ∈ rates' c, r.value ≠ none := by
  cases hc : rates c with
  | some r =>
    exact ⟨some r, rates, s, by simp [Memo.computeIfAbsent, hc], hc ▸ hrates c, hrates⟩
  | none =>
    obtain ⟨rate, hrate, hvalue⟩ := hclient c s
    have hsplit : client c s = (.ok rate, (client c s).2) := by rw [← hrate]
    cases rate with
    | none =>
      refine ⟨none, rates, (client c s).2, ?_, hvalue, hrates⟩
      simp only [Memo.computeIfAbsent, hc]
      rw [hsplit]
    | some r =>
      refine ⟨some r, Function.update rates c (some r), (client c s).2, ?_, hvalue, ?_⟩
      · simp only [Memo.computeIfAbsent, hc]
        rw [hsplit]
      · intro c' r' hr'
        by_cases hcc : c' = c
        · subst hcc
          exact hvalue r' (by simpa using hr')
        · rw [Function.update_of_ne hcc] at hr'
          exact hrates c' r' hr'

def ofRates (rates : Option Currency → Option (InlineResponse200 A)) : ExternalAPIClient Unit A :=
  fun currency s => (.ok (rates currency), s)

theorem ofRates_nullOrRate (rates : Option Currency → Option (InlineResponse200 A))
    (h : ∀ currency, ∀ r ∈ rates currency, r.value ≠ none) : (ofRates rates).NullOrRate :=
  fun currency _ => ⟨rates currency, rfl, h currency⟩

theorem ofRates_plays (rates : Option Currency → Option (InlineResponse200 A)) :
    Memo.Plays (ofRates rates) (fun currency _ => rates currency) (fun _ _ => True) := Memo.const_plays rates

end ExternalAPIClient

open ExternalAPIClient

inductive ServiceReply (A : Type) where
  | body (response : InlineResponse200 A)
  | empty
  | error
  deriving DecidableEq, Repr

abbrev ExchangeRateService (σ A : Type) := String → String → σ → ServiceReply A × σ

def request (service : ExchangeRateService σ A) (baseCurrency targetCurrency : String) (s : σ) :
    Except JavaException (Option (InlineResponse200 A)) × σ :=
  match service baseCurrency targetCurrency s with
  | (.body response, s') => (.ok (some response), s')
  | (.empty, s') => (.ok none, s')
  | (.error, s') => (.error .remoteCall, s')

-- `try { .. } catch (Exception e) { return null; }`
def nullOnException (r : Except JavaException (Option (InlineResponse200 A)) × σ) :
    Except JavaException (Option (InlineResponse200 A)) × σ :=
  match r with
  | (.ok rate, s) => (.ok rate, s)
  | (.error _, s) => (.ok none, s)

def currencyString : Option Currency → Except JavaException String
  | some currency => .ok currency.toString
  | none => .error .nullPointer

namespace ExchangeRateFeignClient

def getExchangeRate (service : ExchangeRateService σ A) : ExternalAPIClient σ A := fun currency s =>
  nullOnException (match currencyString currency with
    | .ok baseCurrency => request service baseCurrency getTargetCurrency.toString s
    | .error e => (.error e, s))

end ExchangeRateFeignClient

namespace ExchangeRateRestTemplateClient

def getExchangeRate (service : ExchangeRateService σ A) : ExternalAPIClient σ A := fun currency s =>
  match currencyString currency with
  | .ok baseCurrency => nullOnException (request service baseCurrency getTargetCurrency.toString s)
  | .error e => (.error e, s)

end ExchangeRateRestTemplateClient

theorem clients_agree (service : ExchangeRateService σ A) (currency : Currency) :
    ExchangeRateFeignClient.getExchangeRate service (some currency) =
      ExchangeRateRestTemplateClient.getExchangeRate service (some currency) := rfl

theorem feign_ok (service : ExchangeRateService σ A) (currency : Option Currency) (s : σ) :
    ∃ rate, (ExchangeRateFeignClient.getExchangeRate service currency s).1 = .ok rate := by
  unfold ExchangeRateFeignClient.getExchangeRate nullOnException
  split <;> exact ⟨_, rfl⟩

namespace ServiceReply

def rate : ServiceReply A → Option (InlineResponse200 A)
  | body response => some response
  | empty => none
  | error => none

end ServiceReply

def scriptedService (replies : String → String → ℕ → ServiceReply A) :
    ExchangeRateService (String × String → ℕ) A := fun base target asked =>
  (replies base target (asked (base, target)),
    Function.update asked (base, target) (asked (base, target) + 1))

def feignReplies (replies : String → String → ℕ → ServiceReply A) :
    Option Currency → ℕ → Option (InlineResponse200 A)
  | some currency, j => (replies currency.toString getTargetCurrency.toString j).rate
  | none, _ => none

theorem feign_plays (replies : String → String → ℕ → ServiceReply A) :
    Memo.Plays (ExchangeRateFeignClient.getExchangeRate (scriptedService replies)) (feignReplies replies)
      (fun asked s => ∀ currency : Currency,
        s (currency.toString, getTargetCurrency.toString) = asked (some currency)) := by
  intro asked s k hs
  cases k with
  | none => exact ⟨s, rfl, fun currency => by simp [hs currency]⟩
  | some currency =>
    have hreply : ExchangeRateFeignClient.getExchangeRate (scriptedService replies) (some currency) s =
        (.ok (feignReplies replies (some currency) (asked (some currency))),
          Function.update s (currency.toString, getTargetCurrency.toString)
            (asked (some currency) + 1)) := by
      simp only [ExchangeRateFeignClient.getExchangeRate, currencyString, request, scriptedService,
        feignReplies, hs currency]
      cases replies currency.toString getTargetCurrency.toString (asked (some currency)) <;> rfl
    refine ⟨_, hreply, ?_⟩
    intro c
    by_cases hc : c = currency
    · subst hc; simp
    · have hne : (c.toString, getTargetCurrency.toString) ≠
          (currency.toString, getTargetCurrency.toString) := by
        intro he
        exact hc (Currency.code_injective (Prod.mk.inj he).1)
      rw [Function.update_of_ne hne, Function.update_of_ne (by simpa using hc)]
      exact hs c

end EBank
