import EBank.Controllers

namespace EBank

variable {σ A : Type}

/-- What belongs to an identity key in a store: its customers, their accounts, and the transactions of these. -/
@[ext]
structure View (A : Type) where
  customers : Multiset Customer
  accounts : Multiset Account
  transactions : Multiset (Transaction A)

section
variable (store : Store A) (identityKey : String)

def ownCustomers : List Customer := store.customers.filter (fun c => c.identityKey = some identityKey)

def ownAccounts : List Account :=
  store.accounts.filter (fun a => ∃ c ∈ ownCustomers store identityKey, a.customer = some c.id)

def ownTransactions : List (Transaction A) :=
  store.transactions.filter (fun t => ∃ a ∈ ownAccounts store identityKey, t.account = some a.id)

def view : View A :=
  ⟨ownCustomers store identityKey, ownAccounts store identityKey, ownTransactions store identityKey⟩

variable {store identityKey}

theorem mem_ownCustomers_iff {c : Customer} :
    c ∈ ownCustomers store identityKey ↔ c ∈ store.customers ∧ c.identityKey = some identityKey := by
  simp [ownCustomers]

theorem mem_ownAccounts {c : Customer} (hc : c ∈ ownCustomers store identityKey) {a : Account}
    (ha : a ∈ store.accounts) (hcustomer : a.customer = some c.id) : a ∈ ownAccounts store identityKey := by
  simp only [ownAccounts, List.mem_filter, decide_eq_true_eq]
  exact ⟨ha, c, hc, hcustomer⟩

theorem findByCustomerId_own {c : Customer} (hc : c ∈ ownCustomers store identityKey) :
    AccountRepository.findByCustomerId store c.id =
      (ownAccounts store identityKey).filter (fun a => a.customer = some c.id) := by
  rw [AccountRepository.findByCustomerId, ownAccounts, List.filter_filter]
  apply List.filter_congr
  intro a _
  by_cases ha : a.customer = some c.id
  · have hexists : ∃ c' ∈ ownCustomers store identityKey, a.customer = some c'.id := ⟨c, hc, ha⟩
    simp only [ha, decide_true, Bool.true_and]
    simpa [ha] using hexists
  · simp [ha]

theorem rows_own {a : Account} (ha : a ∈ ownAccounts store identityKey) (startDate endDate : LocalDate) :
    TransactionRepository.rows store startDate endDate a.id =
      (ownTransactions store identityKey).filter
        (fun t => TransactionRepository.Matches startDate endDate a.id t) := by
  rw [TransactionRepository.rows, ownTransactions, List.filter_filter]
  apply List.filter_congr
  intro t _
  by_cases ht : TransactionRepository.Matches startDate endDate a.id t
  · have hexists : ∃ a' ∈ ownAccounts store identityKey, t.account = some a'.id := ⟨a, ha, ht.2⟩
    simp [ht, hexists]
  · simp [ht]

end

section
variable {store store' : Store A} {identityKey : String}
  (h : view store identityKey = view store' identityKey)
include h

theorem ownCustomers_perm : (ownCustomers store identityKey).Perm (ownCustomers store' identityKey) :=
  Multiset.coe_eq_coe.mp (congrArg View.customers h)

theorem ownAccounts_perm : (ownAccounts store identityKey).Perm (ownAccounts store' identityKey) :=
  Multiset.coe_eq_coe.mp (congrArg View.accounts h)

theorem ownTransactions_perm :
    (ownTransactions store identityKey).Perm (ownTransactions store' identityKey) :=
  Multiset.coe_eq_coe.mp (congrArg View.transactions h)

theorem matchingCustomer_view (customerId : Long) :
    matchingCustomer store (some identityKey) customerId =
      matchingCustomer store' (some identityKey) customerId := by
  apply Option.ext
  intro c
  have hmem := (ownCustomers_perm h).mem_iff (a := c)
  rw [mem_ownCustomers_iff, mem_ownCustomers_iff] at hmem
  rw [matchingCustomer_eq_some_iff, matchingCustomer_eq_some_iff]
  tauto

theorem matchingAccount_view {c : Customer} (hc : c ∈ ownCustomers store identityKey) (accountId : Long) :
    matchingAccount store accountId c.id = matchingAccount store' accountId c.id := by
  have hc' := (ownCustomers_perm h).mem_iff.mp hc
  apply Option.ext
  intro a
  rw [matchingAccount_eq_some_iff, matchingAccount_eq_some_iff]
  constructor
  · rintro ⟨ha, hid, hcustomer⟩
    have hown := (ownAccounts_perm h).mem_iff.mp (mem_ownAccounts hc ha hcustomer)
    exact ⟨List.mem_of_mem_filter hown, hid, hcustomer⟩
  · rintro ⟨ha, hid, hcustomer⟩
    have hown := (ownAccounts_perm h).mem_iff.mpr (mem_ownAccounts hc' ha hcustomer)
    exact ⟨List.mem_of_mem_filter hown, hid, hcustomer⟩

theorem findByCustomerId_view {c : Customer} (hc : c ∈ ownCustomers store identityKey) :
    (AccountRepository.findByCustomerId store c.id).Perm (AccountRepository.findByCustomerId store' c.id) := by
  rw [findByCustomerId_own hc, findByCustomerId_own ((ownCustomers_perm h).mem_iff.mp hc)]
  exact (ownAccounts_perm h).filter _

theorem repository_view {a : Account} (ha : a ∈ ownAccounts store identityKey) (order : DateOrder A)
    (startDate endDate : LocalDate) (pageable : PageRequest) :
    order.repository store startDate endDate a.id pageable =
      order.repository store' startDate endDate a.id pageable := by
  have hrows : (TransactionRepository.rows store startDate endDate a.id).Perm
      (TransactionRepository.rows store' startDate endDate a.id) := by
    rw [rows_own ha, rows_own ((ownAccounts_perm h).mem_iff.mp ha)]
    exact (ownTransactions_perm h).filter _
  rw [DateOrder.repository, DateOrder.repository, Multiset.coe_eq_coe.mpr hrows]

variable (accountOrder : RowOrder Account) (customerId : Long)

theorem getCustomerById_view :
    CustomerController.getCustomerById accountOrder store (contextOf identityKey) customerId =
      CustomerController.getCustomerById accountOrder store' (contextOf identityKey) customerId := by
  rw [CustomerController.getCustomerById, CustomerController.getCustomerById,
    BasicController.getValidatedCustomer, BasicController.getValidatedCustomer,
    getCustomerOrAccessDenied_eq, getCustomerOrAccessDenied_eq, UsernamePasswordAuthenticationToken,
    ← matchingCustomer_view h]
  cases hc : matchingCustomer store (some identityKey) customerId with
  | none => rfl
  | some c =>
    have hown := matchingCustomer_eq_some_iff.mp hc
    have hperm := findByCustomerId_view h (mem_ownCustomers_iff.mpr ⟨hown.1, hown.2.2⟩)
    simp only [ok_bind, Multiset.coe_eq_coe.mpr hperm]

theorem validateAccess_view {β : Type} {f f' : Unit → Except JavaException β}
    (hf : ∀ c ∈ ownCustomers store identityKey, c.id = customerId → f () = f' ()) :
    (BasicController.validateAccessToRequestedCustomer store (contextOf identityKey) customerId >>= f) =
      (BasicController.validateAccessToRequestedCustomer store' (contextOf identityKey) customerId >>= f') := by
  rw [validateAccess_bind, validateAccess_bind, UsernamePasswordAuthenticationToken, ← matchingCustomer_view h]
  cases hc : matchingCustomer store (some identityKey) customerId with
  | none => rfl
  | some c =>
    obtain ⟨hmem, hid, hkey⟩ := matchingCustomer_eq_some_iff.mp hc
    exact hf c (mem_ownCustomers_iff.mpr ⟨hmem, hkey⟩) hid

theorem getCustomerAccounts_view :
    AccountController.getCustomerAccounts accountOrder store (contextOf identityKey) customerId =
      AccountController.getCustomerAccounts accountOrder store' (contextOf identityKey) customerId := by
  apply validateAccess_view h
  rintro c hc rfl
  rw [AccountService.getAllForCustomer, AccountService.getAllForCustomer,
    Multiset.coe_eq_coe.mpr (findByCustomerId_view h hc)]

theorem getCustomerAccount_view (accountId : Long) :
    AccountController.getCustomerAccount store (contextOf identityKey) customerId accountId =
      AccountController.getCustomerAccount store' (contextOf identityKey) customerId accountId := by
  apply validateAccess_view h
  rintro c hc rfl
  rw [getOneForCustomer_eq, getOneForCustomer_eq, matchingAccount_view h hc]

end

def databaseSources (order : DateOrder A) (client : ExternalAPIClient σ A) (s : σ) (store : Store A) :
    AccountController.Sources σ A := ⟨false, order.repository store, client, s, .ok []⟩

section
variable [Mul A] {store store' : Store A} {identityKey : String}
  (h : view store identityKey = view store' identityKey)
include h

theorem getAccountTransactions_view (order : DateOrder A) (client : ExternalAPIClient σ A) (s : σ)
    (customerId accountId : Long) (dateString : String) (page size : ℤ) :
    AccountController.getAccountTransactions (databaseSources order client s store) store
        (contextOf identityKey) customerId accountId dateString page size =
      AccountController.getAccountTransactions (databaseSources order client s store') store'
        (contextOf identityKey) customerId accountId dateString page size := by
  rw [getAccountTransactions_eq, getAccountTransactions_eq, UsernamePasswordAuthenticationToken,
    ← matchingCustomer_view h]
  cases hc : matchingCustomer store (some identityKey) customerId with
  | none => rfl
  | some c =>
    obtain ⟨hmem, rfl, hkey⟩ := matchingCustomer_eq_some_iff.mp hc
    have hown := mem_ownCustomers_iff.mpr ⟨hmem, hkey⟩
    simp only [← matchingAccount_view h hown]
    cases ha : matchingAccount store accountId c.id with
    | none => rfl
    | some a =>
      obtain ⟨hamem, rfl, hcustomer⟩ := matchingAccount_eq_some_iff.mp ha
      have haccount := mem_ownAccounts hown hamem hcustomer
      cases DateFormatter.parse dateString with
      | error e => rfl
      | ok date =>
        simp only [AccountController.resultPage, databaseSources, Bool.false_eq_true, if_false,
          TransactionServiceImpl.findForAccountInMonthPaginated, repository_view h haccount]

theorem securedOperations_view (accountOrder : RowOrder Account) (order : DateOrder A)
    (client : ExternalAPIClient σ A) (s : σ) (customerId accountId : Long) (dateString : String)
    (page size : ℤ) :
    let context := contextOf identityKey
    CustomerController.getCustomerById accountOrder store context customerId =
        CustomerController.getCustomerById accountOrder store' context customerId ∧
      AccountController.getCustomerAccounts accountOrder store context customerId =
        AccountController.getCustomerAccounts accountOrder store' context customerId ∧
      AccountController.getCustomerAccount store context customerId accountId =
        AccountController.getCustomerAccount store' context customerId accountId ∧
      AccountController.getAccountTransactions (databaseSources order client s store) store context
          customerId accountId dateString page size =
        AccountController.getAccountTransactions (databaseSources order client s store') store' context
          customerId accountId dateString page size :=
  ⟨getCustomerById_view h accountOrder customerId, getCustomerAccounts_view h accountOrder customerId,
    getCustomerAccount_view h customerId accountId,
    getAccountTransactions_view h order client s customerId accountId dateString page size⟩

end

def alone : Store ℤ :=
  .ofTransactions (some "alice") [.row 1 1 LocalDate.january 10 .GBP] (by decide) (by decide)

def withNeighbour : Store ℤ where
  customers := [⟨2, none, none, some "bob"⟩, ⟨1, none, none, some "alice"⟩]
  accounts := [⟨2, some 2, none, none, none⟩, ⟨1, some 1, none, none, none⟩]
  transactions := [.row 2 2 LocalDate.january 20 .GBP, .row 1 1 LocalDate.january 10 .GBP]
  customer_pkey := by decide
  account_pkey := by decide
  account_transaction_pkey := by decide
  cust_fk := by decide
  account_fk := by decide

theorem neighbour_unobserved :
    let context := contextOf "alice"
    CustomerController.getCustomerById .arbitrary alone context 2 =
        CustomerController.getCustomerById .arbitrary withNeighbour context 2 ∧
      AccountController.getCustomerAccounts .arbitrary alone context 2 =
        AccountController.getCustomerAccounts .arbitrary withNeighbour context 2 ∧
      AccountController.getCustomerAccount alone context 2 2 =
        AccountController.getCustomerAccount withNeighbour context 2 2 ∧
      AccountController.getAccountTransactions
          (databaseSources .arbitrary (ExternalAPIClient.ofRates fun _ => none) () alone) alone context
          2 2 "2019-01" 0 20 =
        AccountController.getAccountTransactions
          (databaseSources .arbitrary (ExternalAPIClient.ofRates fun _ => none) () withNeighbour)
          withNeighbour context 2 2 "2019-01" 0 20 := by
  apply securedOperations_view
  apply View.ext <;> decide

end EBank
