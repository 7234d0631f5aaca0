import EBank.PrivateBank
import EBank.SampleCalls

namespace EBank.SampleData

open Procedure Transition

variable {K σ : Type}

theorem findByCustomerId_eq_nil {store : Store K} {customerId : Long}
    (h : customerId ∉ store.customers.map Customer.id) :
    AccountRepository.findByCustomerId store customerId = [] := by
  rw [AccountRepository.findByCustomerId, List.filter_eq_nil_iff]
  intro a ha hcustomer
  exact h (store.cust_fk a ha customerId (of_decide_eq_true hcustomer))

section Traces
variable {calls : List Call} {before after : Store K}

theorem some_account_of_trace (h : Trace Call.Adds before calls after)
    (hbefore : ∀ c ∈ before.customers, 1 ≤ (AccountRepository.findByCustomerId before c.id).length) :
    ∀ c ∈ after.customers, 1 ≤ (AccountRepository.findByCustomerId after c.id).length := by
  apply h.invariant (fun store => ∀ c ∈ store.customers,
    1 ≤ (AccountRepository.findByCustomerId store c.id).length) hbefore
  intro s call s' hs hadds c hc
  have hbetween := hadds.accounts_between hc
  omega

theorem accounts_le_of_trace (h : Trace Call.Adds before calls after) (customerId : Long) :
    (AccountRepository.findByCustomerId after customerId).length ≤
      (AccountRepository.findByCustomerId before customerId).length + 2 * calls.length := by
  induction h with
  | nil store => simp
  | @cons before first after call calls hadds rest ih =>
    have hfirst : (AccountRepository.findByCustomerId first customerId).length ≤
        (AccountRepository.findByCustomerId before customerId).length + 2 := by
      by_cases hmem : customerId ∈ first.customers.map Customer.id
      · obtain ⟨c, hc, rfl⟩ := List.mem_map.mp hmem
        exact (hadds.accounts_between hc).2
      · rw [findByCustomerId_eq_nil hmem]
        exact Nat.zero_le _
    rw [List.length_cons]
    omega

end Traces

theorem mem_holders_iff {store : Store K} {key : String} {c : Customer} :
    c ∈ holders store key ↔ c ∈ store.customers ∧ c.identityKey = some key := by
  simp [holders]

section
variable {server : Server σ K} {order : DateOrder K} {store : Store K} {header principal : Option String}
  {customerId : Long}

theorem owns_iff_holders {key : String} :
    (server.onDatabase order store).Owns (some key) customerId ↔
      customerId ∈ (holders store key).map Customer.id := by
  simp only [Server.Owns, Server.onDatabase, List.mem_map, mem_holders_iff]
  constructor
  · rintro ⟨c, hc, hid, hkey⟩
    exact ⟨c, ⟨hc, hkey⟩, hid⟩
  · rintro ⟨c, ⟨hc, hkey⟩, hid⟩
    exact ⟨c, hc, hid, hkey⟩

theorem serve_accounts_of_owns [Mul K] (order : DateOrder K) (hcaller : server.Caller header principal)
    (howns : (server.onDatabase order store).Owns principal customerId) :
    ∃ dtos, (server.onDatabase order store).serve header (.getCustomerAccounts customerId) =
        .ok ⟨200, some (.resource (.accounts dtos))⟩ ∧
      dtos.length = (AccountRepository.findByCustomerId store customerId).length := by
  refine ⟨_, serve_accounts (order.repository store) hcaller howns, ?_⟩
  rw [AccountMapper.toListDto, List.length_map]
  exact (arrange_perm server.accountOrder _).length_eq

theorem serve_of_not_owns [Mul K] (hcaller : server.Caller header principal)
    (howns : ¬ (server.onDatabase order store).Owns principal customerId) :
    statusOf ((server.onDatabase order store).serve header (.getCustomerAccounts customerId)) = some 403 := by
  rw [serve_onDatabase _ _ _ hcaller, Server.handle_denied _ rfl howns]
  rfl

end

variable [Field K] [LinearOrder K] [IsStrictOrderedRing K] [FloorRing K]

theorem sample_opened (stream : ℕ → Set.Ico (0 : K) 1) (calls : List Call) (server : Server σ K)
    (order : DateOrder K) {header : Option String} {i : ℤ} (hi : 1 ≤ i)
    (hcaller : server.Caller header (some (identityKey i))) :
    ∃ (s : Session K) (ids : List Long), calls.forM Call.run (Session.fresh stream) = .ok () s ∧ ids.Nodup ∧
      ids.length = calls.countP (fun call => i ≤ call.nbClient) ∧
      ∀ customerId,
        (customerId ∈ ids → ∃ dtos,
          (server.onDatabase order s.store).serve header (.getCustomerAccounts customerId) =
            .ok ⟨200, some (.resource (.accounts dtos))⟩ ∧
          1 ≤ dtos.length ∧ dtos.length ≤ 2 * calls.length) ∧
        (customerId ∉ ids →
          statusOf ((server.onDatabase order s.store).serve header (.getCustomerAccounts customerId)) =
            some 403) := by
  obtain ⟨s, hrun, -, htrace⟩ := runs_add calls (serials_fresh stream)
  refine ⟨s, (holders s.store (identityKey i)).map Customer.id, hrun, ?_, ?_, ?_⟩
  · exact s.store.customer_pkey.sublist (List.filter_sublist.map _)
  · rw [List.length_map, holders_of_trace htrace (by omega)]
    simp [holders, Session.fresh, Store.emptyTables, hi]
  · intro customerId
    constructor
    · intro hmem
      obtain ⟨dtos, hserve, hlength⟩ :=
        serve_accounts_of_owns order hcaller (owns_iff_holders.mpr hmem)
      obtain ⟨c, hc, rfl⟩ := List.mem_map.mp hmem
      have hlow := some_account_of_trace htrace (List.forall_mem_nil _) c (mem_holders_iff.mp hc).1
      have hhigh := accounts_le_of_trace htrace c.id
      have hnone : (AccountRepository.findByCustomerId (Session.fresh stream).store c.id).length = 0 := rfl
      exact ⟨dtos, hserve, by omega, by omega⟩
    · intro hmem
      exact serve_of_not_owns hcaller (fun howns => hmem (owns_iff_holders.mp howns))

noncomputable def tokenBank : Server Unit ℚ where
  store := .emptyTables
  customerOrder := .arbitrary
  accountOrder := .arbitrary
  sources := ⟨false, TransactionRepository.inTableOrder .emptyTables, ExternalAPIClient.ofRates fun _ => none,
    (), .ok []⟩
  parseClaimsJws _ token := .ok fun _ => some (.string token)
  secret := "secret"

theorem second_customer_opened :
    ∃ (s : Session ℚ) (ids : List Long), [sampleCall 2 25, sampleCall 1 10].forM Call.run
        (Session.fresh halves) = .ok () s ∧ ids.Nodup ∧
      ids.length = [sampleCall 2 25, sampleCall 1 10].countP (fun call => 2 ≤ call.nbClient) ∧
      ∀ customerId,
        (customerId ∈ ids → ∃ dtos,
          (tokenBank.onDatabase .arbitrary s.store).serve (some ("Bearer " ++ identityKey 2))
              (.getCustomerAccounts customerId) =
            .ok ⟨200, some (.resource (.accounts dtos))⟩ ∧
          1 ≤ dtos.length ∧ dtos.length ≤ 4) ∧
        (customerId ∉ ids →
          statusOf ((tokenBank.onDatabase .arbitrary s.store).serve (some ("Bearer " ++ identityKey 2))
            (.getCustomerAccounts customerId)) = some 403) :=
  sample_opened halves _ tokenBank .arbitrary (by omega) ⟨_, _, rfl, rfl, rfl⟩

end EBank.SampleData
