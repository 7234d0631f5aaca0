import EBank.SampleData

namespace EBank.SampleData

open Procedure

variable {K ρ : Type} [Field K] [LinearOrder K]

def onTables {α : Sort*} (I : Tables K → α) (s : Session K) : α := I s.toTables

section Draws
variable {I : Tables K → Prop} {rows : Tables K → List ρ}

theorem random_returns : Returns (onTables I) (onTables rows)
    (fun r => 0 ≤ r ∧ r < 1) (random : Sql K K) := by
  rintro before s hs
  exact ⟨_, _, rfl, (s.stream s.draws).property, hs⟩

variable [IsStrictOrderedRing K] [FloorRing K]

theorem random_between_returns {low high : ℤ} (h : low ≤ high) :
    Returns (onTables I) (onTables rows) (fun z => low ≤ z ∧ z ≤ high)
      (random_between low high : Sql K ℤ) := by
  apply random_returns.bind
  rintro r ⟨hr, hr'⟩
  apply Returns.pure
  have hwidth : (0 : K) < high - low + 1 := by
    have hcast : (low : K) ≤ high := Int.cast_le.mpr h
    linarith
  constructor
  · rw [Int.le_floor]
    have hnonneg : 0 ≤ r * (high - low + 1) := mul_nonneg hr hwidth.le
    linarith
  · rw [← Int.lt_add_one_iff, Int.floor_lt]
    have hlt : r * (high - low + 1) < 1 * (high - low + 1) := mul_lt_mul_of_pos_right hr' hwidth
    push_cast
    linarith

theorem random_currency_returns : Returns (onTables I) (onTables rows)
    (fun _ => True) (random_currency : Sql K Currency) := by
  apply (random_between_returns (show (1 : ℤ) ≤ 3 by omega)).bind
  intro _ _
  exact Returns.pure trivial

theorem random_iban_returns : Returns (onTables I) (onTables rows)
    (fun _ => True) (random_iban : Sql K String) := by
  have hgroup : Returns (onTables I) (onTables rows) (fun z => 1000 ≤ z ∧ z ≤ 9999)
      (random_between 1000 9999 : Sql K ℤ) := random_between_returns (by omega)
  apply hgroup.bind; intro _ _
  apply hgroup.bind; intro _ _
  apply hgroup.bind; intro _ _
  apply hgroup.bind; intro _ _
  apply (random_between_returns (show (1 : ℤ) ≤ 9 by omega)).bind; intro _ _
  exact Returns.pure trivial

end Draws

section Blocks

def CustomerRow (i : ℤ) (block : List Customer) : Prop :=
  ∃ (id : ℕ) (familyName givenName : Option String), block = [⟨id, familyName, givenName, some (identityKey i)⟩]

def AccountRow (customerId nb_account : ℤ) (block : List Account) : Prop :=
  ∃ (id : ℕ) (iban : Option String) (currency : Currency),
    block = [⟨id, some customerId, iban, some (accountName customerId nb_account), some currency⟩]

def CustomerBlock (c : Customer) (block : List Account) : Prop :=
  ∃ nbAccounts, (1 ≤ nbAccounts ∧ nbAccounts ≤ 2) ∧
    Blocks (AccountRow c.id) (generate_series 1 nbAccounts) block

def TransactionRow (f : Account) (y nb_month : ℤ) (block : List (Transaction K)) : Prop :=
  ∃ (id : ℕ) (iban description : Option String) (date : LocalDate) (amount : Option K),
    block = [⟨id, some f.id, iban, some date, amount, f.currency, description⟩] ∧
      date.year = y ∧ date.month = nb_month ∧ date.day ≤ 28

def MonthBlock (maxMonthlyTransactions : ℤ) (f : Account) (y nb_month : ℤ) (block : List (Transaction K)) :
    Prop :=
  ∃ factor, (8 ≤ factor ∧ factor ≤ 10) ∧
    Blocks (fun _ => TransactionRow f y nb_month)
      (generate_series 1 (factor * maxMonthlyTransactions.tdiv 10)) block

def YearBlock (maxMonthlyTransactions : ℤ) (f : Account) (y : ℤ) : List (Transaction K) → Prop :=
  Blocks (MonthBlock maxMonthlyTransactions f y) (generate_series 1 12)

def AccountBlock (maxMonthlyTransactions : ℤ) (f : Account) : List (Transaction K) → Prop :=
  Blocks (YearBlock maxMonthlyTransactions f) (generate_series 2018 2019)

end Blocks

structure Serials (t : Tables K) : Prop where
  customers : ∀ c ∈ t.store.customers, c.id < t.customer_id_seq
  accounts : ∀ a ∈ t.store.accounts, a.id < t.account_id_seq
  transactions : ∀ u ∈ t.store.transactions, u.id < t.account_transaction_id_seq

def CustomersGrow (accounts : List Account) (transactions : List (Transaction K)) (t : Tables K) : Prop :=
  Serials t ∧ t.store.accounts = accounts ∧ t.store.transactions = transactions

def AccountsGrow (customers : List Customer) (transactions : List (Transaction K)) (t : Tables K) : Prop :=
  Serials t ∧ t.store.customers = customers ∧ t.store.transactions = transactions

def TransactionsGrow (customers : List Customer) (accounts : List Account) (t : Tables K) : Prop :=
  Serials t ∧ t.store.customers = customers ∧ t.store.accounts = accounts

theorem lt_seq_append {α : Type} {key : α → ℤ} {l : List α} {x : α} {n : ℕ} (hl : ∀ y ∈ l, key y < n)
    (hx : key x = n) : ∀ y ∈ l ++ [x], key y < (n + 1 : ℕ) := by
  intro y hy
  rcases List.mem_append.mp hy with hy | hy
  · have hlt := hl y hy
    omega
  · rw [List.mem_singleton.mp hy, hx]
    omega

theorem notMem_of_lt_seq {α : Type} {key : α → ℤ} {l : List α} {n : ℕ} (hl : ∀ y ∈ l, key y < n) :
    (n : ℤ) ∉ l.map key := by
  intro h
  obtain ⟨y, hy, he⟩ := List.mem_map.mp h
  have hlt := hl y hy
  omega

section Inserts
variable {customers : List Customer} {accounts : List Account} {transactions : List (Transaction K)}

theorem serials_fresh (stream : ℕ → Set.Ico (0 : K) 1) : Serials (Session.fresh stream).toTables :=
  ⟨List.forall_mem_nil _, List.forall_mem_nil _, List.forall_mem_nil _⟩

theorem insertCustomer_grows (i : ℤ) (givenName familyName : String) :
    Appends (onTables (CustomersGrow accounts transactions)) (onTables fun t => t.store.customers)
      (CustomerRow i) (insertCustomer givenName familyName (identityKey i)) := by
  rintro before s ⟨⟨hserials, haccounts, htransactions⟩, hrows⟩
  obtain ⟨store, hinsert, hcustomers, haccounts', htransactions'⟩ := s.store.insertCustomer_ok
    (c := ⟨s.customer_id_seq, some familyName, some givenName, some (identityKey i)⟩)
    (notMem_of_lt_seq hserials.customers)
  refine ⟨(), _, insertCustomer_of_ok hinsert, ?_⟩
  refine ⟨⟨⟨?_, ?_, ?_⟩, haccounts'.trans haccounts, htransactions'.trans htransactions⟩, _,
    ⟨s.customer_id_seq, some familyName, some givenName, rfl⟩, ?_⟩
  · rw [hcustomers]
    exact lt_seq_append hserials.customers rfl
  · rw [haccounts']
    exact hserials.accounts
  · rw [htransactions']
    exact hserials.transactions
  · rw [← hrows]
    exact hcustomers

theorem insertAccount_grows {customerId : ℤ} (h : customerId ∈ customers.map Customer.id) (nb_account : ℤ)
    (iban : String) (currency : Currency) :
    Appends (onTables (AccountsGrow customers transactions)) (onTables fun t => t.store.accounts)
      (AccountRow customerId nb_account)
      (insertAccount customerId iban (accountName customerId nb_account) currency) := by
  rintro before s ⟨⟨hserials, hcustomers, htransactions⟩, hrows⟩
  obtain ⟨store, hinsert, hcustomers', haccounts, htransactions'⟩ := s.store.insertAccount_ok
    (a := ⟨s.account_id_seq, some customerId, some iban, some (accountName customerId nb_account), some currency⟩)
    (notMem_of_lt_seq hserials.accounts) (by simpa [hcustomers] using h)
  refine ⟨(), _, insertAccount_of_ok hinsert, ?_⟩
  refine ⟨⟨⟨?_, ?_, ?_⟩, hcustomers'.trans hcustomers, htransactions'.trans htransactions⟩, _,
    ⟨s.account_id_seq, some iban, currency, rfl⟩, ?_⟩
  · rw [hcustomers']
    exact hserials.customers
  · rw [haccounts]
    exact lt_seq_append hserials.accounts rfl
  · rw [htransactions']
    exact hserials.transactions
  · rw [← hrows]
    exact haccounts

theorem insertTransaction_grows {f : Account} (h : f ∈ accounts) {y nb_month : ℤ} {date : LocalDate}
    (hyear : date.year = y) (hmonth : date.month = nb_month) (hday : date.day ≤ 28) (iban description : String)
    (amount : K) :
    Appends (onTables (TransactionsGrow customers accounts)) (onTables fun t => t.store.transactions)
      (TransactionRow f y nb_month) (insertTransaction f.id iban date amount f.currency description) := by
  rintro before s ⟨⟨hserials, hcustomers, haccounts⟩, hrows⟩
  obtain ⟨store, hinsert, hcustomers', haccounts', htransactions⟩ := s.store.insertTransaction_ok
    (t := ⟨s.account_transaction_id_seq, some f.id, some iban, some date, some amount, f.currency,
      some description⟩)
    (notMem_of_lt_seq hserials.transactions) (by simpa [haccounts] using ⟨f, h, rfl⟩)
  refine ⟨(), _, insertTransaction_of_ok hinsert, ?_⟩
  refine ⟨⟨⟨?_, ?_, ?_⟩, hcustomers'.trans hcustomers, haccounts'.trans haccounts⟩, _,
    ⟨s.account_transaction_id_seq, some iban, some description, date, some amount, rfl, hyear, hmonth, hday⟩, ?_⟩
  · rw [hcustomers']
    exact hserials.customers
  · rw [haccounts']
    exact hserials.accounts
  · rw [htransactions]
    exact lt_seq_append hserials.transactions rfl
  · rw [← hrows]
    exact htransactions

theorem populateCustomers_grows (nbClient : ℤ) :
    Appends (onTables (CustomersGrow accounts transactions)) (onTables fun t => t.store.customers)
      (Blocks CustomerRow (generate_series 1 nbClient)) (populateCustomers nbClient) := by
  apply Appends.forM
  intro i _
  exact insertCustomer_grows i _ _

end Inserts

theorem date_ok {y nb_month day : ℤ} (hy : 0 ≤ y) (hm : 1 ≤ nb_month ∧ nb_month ≤ 12)
    (hd : 1 ≤ day ∧ day ≤ 28) :
    ∃ d : LocalDate, date (toString y ++ "-" ++ toString nb_month ++ "-" ++ toString day) = .ok d ∧
      d.year = y ∧ d.month = nb_month ∧ d.day ≤ 28 := by
  obtain ⟨y, rfl⟩ := Int.eq_ofNat_of_zero_le hy
  obtain ⟨m, rfl⟩ := Int.eq_ofNat_of_zero_le (show 0 ≤ nb_month by omega)
  obtain ⟨d, rfl⟩ := Int.eq_ofNat_of_zero_le (show 0 ≤ day by omega)
  have hlength : 28 ≤ lengthOfMonth y m := by
    unfold lengthOfMonth
    split_ifs <;> omega
  exact ⟨_, date_text ⟨⟨by omega, by omega⟩, by omega, by omega⟩, rfl, rfl, show d ≤ 28 by omega⟩

section Loops
variable [IsStrictOrderedRing K] [FloorRing K]

theorem customerBlock_grows {customers : List Customer} {transactions : List (Transaction K)} {c : Customer}
    (hc : c ∈ customers) :
    Appends (onTables (AccountsGrow customers transactions)) (onTables fun t => t.store.accounts)
      (CustomerBlock c) (do
        let nbAccounts ← random_between 1 2
        (generate_series 1 nbAccounts).forM fun nb_account => populateAccount c.id nb_account) := by
  apply (random_between_returns (show (1 : ℤ) ≤ 2 by omega)).bind_appends
  intro nbAccounts hnb
  have hblock : Appends (onTables (AccountsGrow customers transactions)) (onTables fun t => t.store.accounts)
      (Blocks (AccountRow c.id) (generate_series 1 nbAccounts))
      ((generate_series 1 nbAccounts).forM fun nb_account => populateAccount c.id nb_account) := by
    apply Appends.forM
    intro nb_account _
    apply random_iban_returns.bind_appends
    intro iban _
    apply random_currency_returns.bind_appends
    intro currency _
    exact insertAccount_grows (List.mem_map_of_mem hc) nb_account iban currency
  apply hblock.weaken
  intro block hrows
  exact ⟨nbAccounts, hnb, hrows⟩

variable {customers : List Customer} {accounts : List Account}

theorem populateTransaction_grows {f : Account} (h : f ∈ accounts) {y nb_month : ℤ} (hy : 0 ≤ y)
    (hm : 1 ≤ nb_month ∧ nb_month ≤ 12) :
    Appends (onTables (TransactionsGrow (K := K) customers accounts)) (onTables fun t => t.store.transactions)
      (TransactionRow f y nb_month) (populateTransaction f y nb_month) := by
  apply (random_between_returns (show (1 : ℤ) ≤ 28 by omega)).bind_appends
  intro day hday
  obtain ⟨d, hdate, hyear, hmonth, hd⟩ := date_ok hy hm hday
  rw [hdate]
  apply random_iban_returns.bind_appends
  intro iban _
  apply random_returns.bind_appends
  intro r _
  exact insertTransaction_grows h hyear hmonth hd iban _ _

theorem populateMonth_grows (maxMonthlyTransactions : ℤ) {f : Account} (h : f ∈ accounts) {y nb_month : ℤ}
    (hy : 0 ≤ y) (hm : 1 ≤ nb_month ∧ nb_month ≤ 12) :
    Appends (onTables (TransactionsGrow (K := K) customers accounts)) (onTables fun t => t.store.transactions)
      (MonthBlock maxMonthlyTransactions f y nb_month) (populateMonth maxMonthlyTransactions f y nb_month) := by
  apply (random_between_returns (show (8 : ℤ) ≤ 10 by omega)).bind_appends
  intro factor hfactor
  have hloop : Appends (onTables (TransactionsGrow (K := K) customers accounts))
      (onTables fun t => t.store.transactions)
      (Blocks (fun _ => TransactionRow f y nb_month)
        (generate_series 1 (factor * maxMonthlyTransactions.tdiv 10)))
      ((generate_series 1 (factor * maxMonthlyTransactions.tdiv 10)).forM fun _ =>
        populateTransaction f y nb_month) := by
    apply Appends.forM
    intro _ _
    exact populateTransaction_grows h hy hm
  apply hloop.weaken
  intro block hblocks
  exact ⟨factor, hfactor, hblocks⟩

theorem accountBlock_grows (maxMonthlyTransactions : ℤ) {f : Account} (h : f ∈ accounts) :
    Appends (onTables (TransactionsGrow (K := K) customers accounts)) (onTables fun t => t.store.transactions)
      (AccountBlock maxMonthlyTransactions f) ((generate_series 2018 2019).forM fun y =>
        (generate_series 1 12).forM fun nb_month => populateMonth maxMonthlyTransactions f y nb_month) := by
  apply Appends.forM
  intro y hy
  apply Appends.forM
  intro nb_month hm
  have hyear := mem_generate_series.mp hy
  exact populateMonth_grows maxMonthlyTransactions h (by omega) (mem_generate_series.mp hm)

end Loops

theorem arrange_perm {α : Type} (order : RowOrder α) (rows : List α) : (order.arrange rows).Perm rows :=
  Multiset.coe_eq_coe.mp (order.arrange_eq rows)

structure Call where
  customerOrder : RowOrder Customer
  accountOrder : RowOrder Account
  nbClient : ℤ
  maxMonthlyTransactions : ℤ

namespace Call

structure Adds (before : Store K) (call : Call) (after : Store K) : Prop where
  customers : ∃ block, Blocks CustomerRow (generate_series 1 call.nbClient) block ∧
    after.customers = before.customers ++ block
  accounts : ∃ cs block, cs.Perm after.customers ∧ Blocks CustomerBlock cs block ∧
    after.accounts = before.accounts ++ block
  transactions : ∃ fs block, fs.Perm after.accounts ∧
    Blocks (AccountBlock call.maxMonthlyTransactions) fs block ∧
    after.transactions = before.transactions ++ block

section
variable [FloorRing K]

def run (call : Call) : Sql K Unit :=
  generateSampleData call.customerOrder call.accountOrder call.nbClient call.maxMonthlyTransactions

variable [IsStrictOrderedRing K]

theorem run_adds (call : Call) {s : Session K} (h : Serials s.toTables) :
    ∃ s', call.run s = .ok () s' ∧ Serials s'.toTables ∧ call.Adds s.store s'.store := by
  obtain ⟨_, s₁, hrun₁, ⟨hserials₁, haccounts₁, htransactions₁⟩, new₁, hblock₁, hcustomers₁⟩ :=
    populateCustomers_grows call.nbClient s.store.customers s ⟨⟨h, rfl, rfl⟩, rfl⟩
  have hcs : ∀ c ∈ call.customerOrder.arrange s₁.store.customers, c ∈ s₁.store.customers :=
    fun c => (arrange_perm call.customerOrder s₁.store.customers).mem_iff.mp
  obtain ⟨_, s₂, hrun₂, ⟨hserials₂, hcustomers₂, htransactions₂⟩, new₂, hblock₂, haccounts₂⟩ :=
    Appends.forM (fun c hc => customerBlock_grows (hcs c hc)) s₁.store.accounts s₁
      ⟨⟨hserials₁, rfl, rfl⟩, rfl⟩
  have hfs : ∀ f ∈ call.accountOrder.arrange s₂.store.accounts, f ∈ s₂.store.accounts :=
    fun f => (arrange_perm call.accountOrder s₂.store.accounts).mem_iff.mp
  obtain ⟨_, s₃, hrun₃, ⟨hserials₃, hcustomers₃, haccounts₃⟩, new₃, hblock₃, htransactions₃⟩ :=
    Appends.forM (fun f hf => accountBlock_grows call.maxMonthlyTransactions (hfs f hf))
      s₂.store.transactions s₂ ⟨⟨hserials₂, rfl, rfl⟩, rfl⟩
  refine ⟨s₃, ?_, hserials₃, ?_, ?_, ?_⟩
  · rw [run, generateSampleData, bind_of_ok hrun₁]
    exact (bind_of_ok hrun₂).trans hrun₃
  · have hcustomers : s₃.store.customers = s₁.store.customers := hcustomers₃.trans hcustomers₂
    exact ⟨new₁, hblock₁, hcustomers.trans hcustomers₁⟩
  · refine ⟨_, new₂, ?_, hblock₂, ?_⟩
    · rw [hcustomers₃, hcustomers₂]
      exact arrange_perm call.customerOrder s₁.store.customers
    · rw [haccounts₃, ← haccounts₁]
      exact haccounts₂
  · refine ⟨_, new₃, ?_, hblock₃, ?_⟩
    · rw [haccounts₃]
      exact arrange_perm call.accountOrder s₂.store.accounts
    · rw [← htransactions₁, ← htransactions₂]
      exact htransactions₃

end

end Call

end EBank.SampleData
