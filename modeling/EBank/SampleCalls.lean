import EBank.ConsistentBank
import EBank.Transition
import Mathlib.Algebra.BigOperators.Ring.List

namespace EBank.SampleData

open Procedure Transition

variable {K : Type}

def holders (store : Store K) (key : String) : List Customer :=
  store.customers.filter (fun c => c.identityKey = some key)

theorem holders_of_series {n i : ℤ} {block : List Customer} (h : Blocks CustomerRow (generate_series 1 n) block)
    (hi : 0 ≤ i) :
    (block.filter (fun c => c.identityKey = some (identityKey i))).length =
      if 1 ≤ i ∧ i ≤ n then 1 else 0 := by
  have href : ∀ i block, CustomerRow i block → ∀ c ∈ block, c.identityKey = some (identityKey i) := by
    rintro i block ⟨id, familyName, givenName, rfl⟩ c hc
    rw [List.mem_singleton.mp hc]
  have hnonneg : ∀ j ∈ generate_series 1 n, 0 ≤ j := fun j hj => by
    have hlow := (mem_generate_series.mp hj).1
    omega
  split_ifs with hrange
  · have hkeys : ((generate_series 1 n).map identityKey).Nodup := by
      apply (nodup_generate_series 1 n).map_on
      intro j hj k hk hjk
      exact identityKey_inj (hnonneg j hj) (hnonneg k hk) hjk
    obtain ⟨id, familyName, givenName, hrow⟩ :=
      h.filter hkeys Customer.identityKey href (mem_generate_series.mpr hrange)
    rw [hrow, List.length_singleton]
  · rw [List.length_eq_zero_iff, List.filter_eq_nil_iff]
    intro c hc hkey
    obtain ⟨j, hj, row, hrow, hc⟩ := h.mem hc
    have hsame := (href j row hrow c hc).symm.trans (of_decide_eq_true hkey)
    have hji := identityKey_inj (hnonneg j hj) hi (Option.some_inj.mp hsame)
    exact hrange (hji ▸ mem_generate_series.mp hj)

namespace Call.Adds

variable {before after : Store K} {call : Call} (h : call.Adds before after)
include h

theorem holders_length {i : ℤ} (hi : 0 ≤ i) :
    (holders after (identityKey i)).length = (holders before (identityKey i)).length +
      if 1 ≤ i ∧ i ≤ call.nbClient then 1 else 0 := by
  obtain ⟨block, hblock, hcustomers⟩ := h.customers
  rw [holders, hcustomers, List.filter_append, List.length_append, holders_of_series hblock hi, holders]

theorem accounts_of_customer {c : Customer} (hc : c ∈ after.customers) :
    ∃ new, CustomerBlock c new ∧
      AccountRepository.findByCustomerId after c.id = AccountRepository.findByCustomerId before c.id ++ new := by
  obtain ⟨cs, block, hperm, hblock, haccounts⟩ := h.accounts
  have hids : (cs.map Customer.id).Nodup := (hperm.map _).nodup_iff.mpr after.customer_pkey
  have hnew := hblock.filter hids Account.customer (fun c block hc a ha => (customerBlock_mem hc ha).1)
    (hperm.mem_iff.mpr hc)
  refine ⟨_, hnew, ?_⟩
  rw [AccountRepository.findByCustomerId, haccounts, List.filter_append, AccountRepository.findByCustomerId]

theorem transactions_of_account {a : Account} (ha : a ∈ after.accounts) {month : LocalDate}
    (hyear : month.year = 2018 ∨ month.year = 2019) :
    ∃ new, MonthBlock call.maxMonthlyTransactions a month.year month.month new ∧
      monthTransactions after a month = monthTransactions before a month ++ new := by
  obtain ⟨fs, block, hperm, hblock, htransactions⟩ := h.transactions
  have hids : (fs.map Account.id).Nodup := (hperm.map _).nodup_iff.mpr after.account_pkey
  refine ⟨_, transactions_of_month hblock hids (hperm.mem_iff.mpr ha) hyear, ?_⟩
  rw [monthTransactions, htransactions, List.filter_append, monthTransactions]

theorem customers_kept : before.customers <+: after.customers := by
  obtain ⟨block, -, hcustomers⟩ := h.customers
  exact ⟨block, hcustomers.symm⟩

theorem accounts_kept : before.accounts <+: after.accounts := by
  obtain ⟨-, block, -, -, haccounts⟩ := h.accounts
  exact ⟨block, haccounts.symm⟩

theorem transactions_kept : before.transactions <+: after.transactions := by
  obtain ⟨-, block, -, -, htransactions⟩ := h.transactions
  exact ⟨block, htransactions.symm⟩

theorem accounts_between {c : Customer} (hc : c ∈ after.customers) :
    (AccountRepository.findByCustomerId before c.id).length + 1 ≤
        (AccountRepository.findByCustomerId after c.id).length ∧
      (AccountRepository.findByCustomerId after c.id).length ≤
        (AccountRepository.findByCustomerId before c.id).length + 2 := by
  obtain ⟨new, hnew, haccounts⟩ := h.accounts_of_customer hc
  have hlength := customerBlock_length hnew
  rw [haccounts, List.length_append]
  omega

theorem transactions_between {a : Account} (ha : a ∈ after.accounts) {month : LocalDate}
    (hyear : month.year = 2018 ∨ month.year = 2019) :
    (monthTransactions before a month).length + 8 * (call.maxMonthlyTransactions.tdiv 10).toNat ≤
        (monthTransactions after a month).length ∧
      (monthTransactions after a month).length ≤
        (monthTransactions before a month).length + 10 * (call.maxMonthlyTransactions.tdiv 10).toNat := by
  obtain ⟨new, ⟨factor, hfactor, hrows⟩, htransactions⟩ := h.transactions_of_account ha hyear
  have hlength : new.length = (factor * call.maxMonthlyTransactions.tdiv 10).toNat := by
    rw [hrows.length (n := 1), length_generate_series]
    · omega
    · rintro i block ⟨id, iban, description, date, amount, rfl, -⟩
      rfl
  obtain rfl | rfl | rfl : factor = 8 ∨ factor = 9 ∨ factor = 10 := by omega
  all_goals
    rw [htransactions, List.length_append, hlength]
    omega

end Call.Adds

structure Kept (before after : Store K) : Prop where
  customers : before.customers <+: after.customers
  accounts : before.accounts <+: after.accounts
  transactions : before.transactions <+: after.transactions

/-- What the calls add from the state `first` the first of them leaves, when the rows before it are `before`. -/
structure Grown (calls : List Call) (before first after : Store K) : Prop where
  kept : Kept before after
  identityKeys : ∀ i, 0 ≤ i → (holders after (identityKey i)).length =
    (holders before (identityKey i)).length + calls.countP (fun call => 1 ≤ i ∧ i ≤ call.nbClient)
  accounts : ∀ c ∈ first.customers,
    (AccountRepository.findByCustomerId before c.id).length + calls.length ≤
        (AccountRepository.findByCustomerId after c.id).length ∧
      (AccountRepository.findByCustomerId after c.id).length ≤
        (AccountRepository.findByCustomerId before c.id).length + 2 * calls.length
  monthlyTransactions : ∀ a ∈ first.accounts, ∀ month : LocalDate, month.year = 2018 ∨ month.year = 2019 →
    (monthTransactions before a month).length +
          8 * (calls.map fun call => (call.maxMonthlyTransactions.tdiv 10).toNat).sum ≤
        (monthTransactions after a month).length ∧
      (monthTransactions after a month).length ≤ (monthTransactions before a month).length +
        10 * (calls.map fun call => (call.maxMonthlyTransactions.tdiv 10).toNat).sum

section Runs
variable {calls : List Call} {before after : Store K}

theorem kept_of_trace (h : Trace Call.Adds before calls after) : Kept before after := by
  apply h.invariant (Kept before)
  · exact ⟨List.prefix_rfl, List.prefix_rfl, List.prefix_rfl⟩
  · intro s call s' hs hadds
    exact ⟨hs.customers.trans hadds.customers_kept, hs.accounts.trans hadds.accounts_kept,
      hs.transactions.trans hadds.transactions_kept⟩

theorem holders_of_trace (h : Trace Call.Adds before calls after) {i : ℤ} (hi : 0 ≤ i) :
    (holders after (identityKey i)).length =
      (holders before (identityKey i)).length + calls.countP (fun call => 1 ≤ i ∧ i ≤ call.nbClient) := by
  induction h with
  | nil store => rfl
  | cons hadds rest ih =>
    rw [ih, hadds.holders_length hi, List.countP_cons]
    simp only [decide_eq_true_eq]
    omega

theorem accounts_of_trace (h : Trace Call.Adds before calls after) {c : Customer} (hc : c ∈ before.customers) :
    (AccountRepository.findByCustomerId before c.id).length + calls.length ≤
        (AccountRepository.findByCustomerId after c.id).length ∧
      (AccountRepository.findByCustomerId after c.id).length ≤
        (AccountRepository.findByCustomerId before c.id).length + 2 * calls.length := by
  have hsum := h.measure_between (fun store => (AccountRepository.findByCustomerId store c.id).length) hc
    (fun s call s' hs hadds => hadds.customers_kept.subset hs)
    (fun s call s' hs hadds => hadds.accounts_between (hadds.customers_kept.subset hs))
  simpa [Nat.mul_comm] using hsum

theorem transactions_of_trace (h : Trace Call.Adds before calls after) {a : Account} (ha : a ∈ before.accounts)
    {month : LocalDate} (hyear : month.year = 2018 ∨ month.year = 2019) :
    (monthTransactions before a month).length +
          8 * (calls.map fun call => (call.maxMonthlyTransactions.tdiv 10).toNat).sum ≤
        (monthTransactions after a month).length ∧
      (monthTransactions after a month).length ≤ (monthTransactions before a month).length +
        10 * (calls.map fun call => (call.maxMonthlyTransactions.tdiv 10).toNat).sum := by
  have hsum := h.measure_between (fun store => (monthTransactions store a month).length) ha
    (fun s call s' hs hadds => hadds.accounts_kept.subset hs)
    (fun s call s' hs hadds => hadds.transactions_between (hadds.accounts_kept.subset hs) hyear)
  simpa [List.sum_map_mul_left] using hsum

theorem grown_of_trace {call : Call} {first : Store K} (hfirst : call.Adds before first)
    (hrest : Trace Call.Adds first calls after) : Grown (call :: calls) before first after where
  kept := kept_of_trace (.cons hfirst hrest)
  identityKeys _ hi := holders_of_trace (.cons hfirst hrest) hi
  accounts c hc := by
    have hone := hfirst.accounts_between hc
    have hmore := accounts_of_trace hrest hc
    rw [List.length_cons]
    omega
  monthlyTransactions a ha month hyear := by
    have hone := hfirst.transactions_between ha hyear
    have hmore := transactions_of_trace hrest ha hyear
    rw [List.map_cons, List.sum_cons]
    omega

variable [Field K] [LinearOrder K] [IsStrictOrderedRing K] [FloorRing K]

theorem runs_add (calls : List Call) {s : Session K} (h : Serials s.toTables) :
    ∃ s', calls.forM Call.run s = .ok () s' ∧ Serials s'.toTables ∧
      Trace Call.Adds s.store calls s'.store := by
  induction calls generalizing s with
  | nil => exact ⟨s, rfl, h, .nil _⟩
  | cons call calls ih =>
    obtain ⟨s₁, hrun, hserials, hadds⟩ := call.run_adds h
    obtain ⟨s', hruns, hserials', htrace⟩ := ih hserials
    exact ⟨s', (bind_of_ok hrun).trans hruns, hserials', .cons hadds htrace⟩

theorem runs_grow (call : Call) (calls : List Call) {s : Session K} (h : Serials s.toTables) :
    ∃ first s', call.run s = .ok () first ∧ calls.forM Call.run first = .ok () s' ∧
      Serials s'.toTables ∧ Grown (call :: calls) s.store first.store s'.store := by
  obtain ⟨first, hrun, hserials, hadds⟩ := call.run_adds h
  obtain ⟨s', hruns, hserials', htrace⟩ := runs_add calls hserials
  exact ⟨first, s', hrun, hruns, hserials', grown_of_trace hadds htrace⟩

end Runs

noncomputable def sampleCall (nbClient maxMonthlyTransactions : ℤ) : Call :=
  ⟨.arbitrary, .arbitrary, nbClient, maxMonthlyTransactions⟩

def halves (_ : ℕ) : Set.Ico (0 : ℚ) 1 := ⟨1 / 2, one_half_pos.le, one_half_lt_one⟩

theorem two_runs_grow :
    ∃ first s', (sampleCall 2 25).run (Session.fresh halves) = .ok () first ∧
      [sampleCall 3 10].forM Call.run first = .ok () s' ∧ Serials s'.toTables ∧
      Grown [sampleCall 2 25, sampleCall 3 10] .emptyTables first.store s'.store :=
  runs_grow (sampleCall 2 25) [sampleCall 3 10] (serials_fresh halves)

end EBank.SampleData
