import EBank.NonInterference
import EBank.Server

namespace EBank

open BasicController JwtAuthorizationFilter RestResponseEntityExceptionHandler

variable {σ A : Type}

theorem filter_filter_of_imp {α : Type} {p q : α → Bool} (h : ∀ x, p x → q x) (l : List α) :
    (l.filter q).filter p = l.filter p := by
  rw [List.filter_filter]
  apply List.filter_congr
  intro x _
  by_cases hx : p x
  · rw [hx, h x hx, Bool.and_self]
  · simp [hx]

section
variable (store : Store A) (principal : Option String)

def privateCustomers : List Customer := store.customers.filter (fun c => c.identityKey = principal)

def privateAccounts : List Account :=
  store.accounts.filter (fun a => ∃ c ∈ privateCustomers store principal, a.customer = some c.id)

def privateTransactions : List (Transaction A) :=
  store.transactions.filter (fun t => ∃ a ∈ privateAccounts store principal, t.account = some a.id)

theorem privateAccounts_owned (a : Account) (ha : a ∈ privateAccounts store principal) (c : Long)
    (hc : c ∈ a.customer) : c ∈ (privateCustomers store principal).map Customer.id := by
  obtain ⟨owner, howner, hid⟩ := of_decide_eq_true (List.mem_filter.mp ha).2
  rw [hid, Option.mem_some_iff] at hc
  exact hc ▸ List.mem_map_of_mem howner

theorem privateTransactions_owned (t : Transaction A) (ht : t ∈ privateTransactions store principal) (a : Long)
    (ha : a ∈ t.account) : a ∈ (privateAccounts store principal).map Account.id := by
  obtain ⟨owner, howner, hid⟩ := of_decide_eq_true (List.mem_filter.mp ht).2
  rw [hid, Option.mem_some_iff] at ha
  exact ha ▸ List.mem_map_of_mem howner

def privateBank : Store A where
  customers := privateCustomers store principal
  accounts := privateAccounts store principal
  transactions := privateTransactions store principal
  customer_pkey := store.customer_pkey.sublist (List.filter_sublist.map _)
  account_pkey := store.account_pkey.sublist (List.filter_sublist.map _)
  account_transaction_pkey := store.account_transaction_pkey.sublist (List.filter_sublist.map _)
  cust_fk := privateAccounts_owned store principal
  account_fk := privateTransactions_owned store principal

variable {store principal}

theorem mem_privateCustomers_iff {c : Customer} :
    c ∈ privateCustomers store principal ↔ c ∈ store.customers ∧ c.identityKey = principal := by
  simp [privateCustomers]

theorem mem_privateAccounts_iff {c : Customer} (hc : c ∈ privateCustomers store principal) {a : Account}
    (hcustomer : a.customer = some c.id) : a ∈ privateAccounts store principal ↔ a ∈ store.accounts := by
  rw [privateAccounts, List.mem_filter, decide_eq_true_eq]
  exact and_iff_left ⟨c, hc, hcustomer⟩

theorem matchingCustomer_private (customerId : Long) :
    matchingCustomer (privateBank store principal) principal customerId =
      matchingCustomer store principal customerId := by
  apply Option.ext
  intro c
  rw [matchingCustomer_eq_some_iff, matchingCustomer_eq_some_iff]
  constructor
  · rintro ⟨hc, hid, hkey⟩
    exact ⟨(mem_privateCustomers_iff.mp hc).1, hid, hkey⟩
  · rintro ⟨hc, hid, hkey⟩
    exact ⟨mem_privateCustomers_iff.mpr ⟨hc, hkey⟩, hid, hkey⟩

theorem matchingAccount_private {c : Customer} (hc : c ∈ privateCustomers store principal) (accountId : Long) :
    matchingAccount (privateBank store principal) accountId c.id = matchingAccount store accountId c.id := by
  apply Option.ext
  intro a
  rw [matchingAccount_eq_some_iff, matchingAccount_eq_some_iff]
  constructor
  · rintro ⟨ha, hid, hcustomer⟩
    exact ⟨(mem_privateAccounts_iff hc hcustomer).mp ha, hid, hcustomer⟩
  · rintro ⟨ha, hid, hcustomer⟩
    exact ⟨(mem_privateAccounts_iff hc hcustomer).mpr ha, hid, hcustomer⟩

theorem findByCustomerId_private {c : Customer} (hc : c ∈ privateCustomers store principal) :
    AccountRepository.findByCustomerId (privateBank store principal) c.id =
      AccountRepository.findByCustomerId store c.id := by
  apply filter_filter_of_imp
  intro a ha
  exact decide_eq_true ⟨c, hc, of_decide_eq_true ha⟩

theorem rows_private {a : Account} (ha : a ∈ privateAccounts store principal) (startDate endDate : LocalDate) :
    TransactionRepository.rows (privateBank store principal) startDate endDate a.id =
      TransactionRepository.rows store startDate endDate a.id := by
  apply filter_filter_of_imp
  intro t ht
  exact decide_eq_true ⟨a, ha, (of_decide_eq_true ht).2⟩

theorem validateAccess_private {β : Type} {customerId : Long} {f f' : Unit → Except JavaException β}
    (hf : ∀ c ∈ privateCustomers store principal, c.id = customerId → f () = f' ()) :
    (validateAccessToRequestedCustomer (privateBank store principal)
        (some (UsernamePasswordAuthenticationToken principal)) customerId >>= f) =
      (validateAccessToRequestedCustomer store (some (UsernamePasswordAuthenticationToken principal))
        customerId >>= f') := by
  rw [validateAccess_bind, validateAccess_bind, UsernamePasswordAuthenticationToken, matchingCustomer_private]
  cases hc : matchingCustomer store principal customerId with
  | none => rfl
  | some c =>
    obtain ⟨hmem, hid, hkey⟩ := matchingCustomer_eq_some_iff.mp hc
    exact hf c (mem_privateCustomers_iff.mpr ⟨hmem, hkey⟩) hid

theorem getCustomerById_private (accountOrder : RowOrder Account) (customerId : Long) :
    CustomerController.getCustomerById accountOrder (privateBank store principal)
        (some (UsernamePasswordAuthenticationToken principal)) customerId =
      CustomerController.getCustomerById accountOrder store
        (some (UsernamePasswordAuthenticationToken principal)) customerId := by
  simp only [CustomerController.getCustomerById, getValidatedCustomer, getCustomerOrAccessDenied_eq,
    UsernamePasswordAuthenticationToken, matchingCustomer_private]
  cases hc : matchingCustomer store principal customerId with
  | none => rfl
  | some c =>
    obtain ⟨hmem, -, hkey⟩ := matchingCustomer_eq_some_iff.mp hc
    simp only [ok_bind, findByCustomerId_private (mem_privateCustomers_iff.mpr ⟨hmem, hkey⟩)]

theorem getCustomerAccounts_private (accountOrder : RowOrder Account) (customerId : Long) :
    AccountController.getCustomerAccounts accountOrder (privateBank store principal)
        (some (UsernamePasswordAuthenticationToken principal)) customerId =
      AccountController.getCustomerAccounts accountOrder store
        (some (UsernamePasswordAuthenticationToken principal)) customerId := by
  apply validateAccess_private
  rintro c hc rfl
  rw [AccountService.getAllForCustomer, AccountService.getAllForCustomer, findByCustomerId_private hc]

theorem getCustomerAccount_private (customerId accountId : Long) :
    AccountController.getCustomerAccount (privateBank store principal)
        (some (UsernamePasswordAuthenticationToken principal)) customerId accountId =
      AccountController.getCustomerAccount store
        (some (UsernamePasswordAuthenticationToken principal)) customerId accountId := by
  apply validateAccess_private
  rintro c hc rfl
  rw [getOneForCustomer_eq, getOneForCustomer_eq, matchingAccount_private hc]

end

def Server.onRepository (server : Server σ A) (repository : TransactionRepository A) (store : Store A) :
    Server σ A where
  store := store
  customerOrder := server.customerOrder
  accountOrder := server.accountOrder
  sources := ⟨false, repository, server.sources.client, server.sources.state, server.sources.polled⟩
  parseClaimsJws := server.parseClaimsJws
  secret := server.secret

def Server.onDatabase (server : Server σ A) (order : DateOrder A) (store : Store A) : Server σ A :=
  server.onRepository (order.repository store) store

section
variable [Mul A] (server : Server σ A) (order : DateOrder A) (store : Store A) {header principal : Option String}
  {op : Operation}

theorem serve_onRepository (repository : TransactionRepository A) (hcaller : server.Caller header principal) :
    (server.onRepository repository store).serve header op =
      respond ((server.onRepository repository store).handle op
        (some (UsernamePasswordAuthenticationToken principal))) :=
  (server.onRepository repository store).serve_caller hcaller

theorem serve_onDatabase (hcaller : server.Caller header principal) :
    (server.onDatabase order store).serve header op =
      respond ((server.onDatabase order store).handle op (some (UsernamePasswordAuthenticationToken principal))) :=
  serve_onRepository server store (order.repository store) hcaller

theorem getAccountTransactions_private (customerId accountId : Long) (date : String) (page size : ℤ) :
    AccountController.getAccountTransactions (server.onDatabase order (privateBank store principal)).sources
        (privateBank store principal) (some (UsernamePasswordAuthenticationToken principal)) customerId accountId
        date page size =
      AccountController.getAccountTransactions (server.onDatabase order store).sources store
        (some (UsernamePasswordAuthenticationToken principal)) customerId accountId date page size := by
  rw [getAccountTransactions_eq, getAccountTransactions_eq, UsernamePasswordAuthenticationToken,
    matchingCustomer_private]
  cases hc : matchingCustomer store principal customerId with
  | none => rfl
  | some c =>
    obtain ⟨hmem, rfl, hkey⟩ := matchingCustomer_eq_some_iff.mp hc
    have hown := mem_privateCustomers_iff.mpr ⟨hmem, hkey⟩
    simp only [matchingAccount_private hown]
    cases ha : matchingAccount store accountId c.id with
    | none => rfl
    | some a =>
      obtain ⟨hamem, rfl, hcustomer⟩ := matchingAccount_eq_some_iff.mp ha
      have haccount := (mem_privateAccounts_iff hown hcustomer).mpr hamem
      cases DateFormatter.parse date with
      | error e => rfl
      | ok d =>
        simp only [AccountController.resultPage, Server.onDatabase, Server.onRepository, Bool.false_eq_true,
          if_false, TransactionServiceImpl.findForAccountInMonthPaginated, DateOrder.repository, rows_private haccount]

theorem handle_private (hop : op.customerId ≠ none) :
    (server.onDatabase order (privateBank store principal)).handle op
        (some (UsernamePasswordAuthenticationToken principal)) =
      (server.onDatabase order store).handle op (some (UsernamePasswordAuthenticationToken principal)) := by
  cases op with
  | getStatus => exact absurd rfl hop
  | getCustomers => exact absurd rfl hop
  | getCustomerById customerId => exact congrArg (Except.map _) (getCustomerById_private _ customerId)
  | getCustomerAccounts customerId => exact congrArg (Except.map _) (getCustomerAccounts_private _ customerId)
  | getCustomerAccount customerId accountId =>
    exact congrArg (Except.map _) (getCustomerAccount_private customerId accountId)
  | getAccountTransactions customerId accountId date page size =>
    exact congrArg (Except.map _) (getAccountTransactions_private server order store customerId accountId date page size)

theorem serve_private {store' : Store A} (hop : op.customerId ≠ none)
    (hown : ∀ principal, server.Caller header principal → store' = privateBank store principal) :
    (server.onDatabase order store).serve header op = (server.onDatabase order store').serve header op := by
  by_cases hcaller : ∃ principal, server.Caller header principal
  · obtain ⟨principal, hcaller⟩ := hcaller
    rw [hown principal hcaller, serve_onDatabase _ _ _ hcaller, serve_onDatabase _ _ _ hcaller,
      handle_private server order store hop]
  · rcases server.authentication_without_caller hcaller with ⟨e, hauth⟩ | hauth
    · have herror (bank : Store A) : (server.onDatabase order bank).serve header op = .error e := by
        rw [Server.serve, doFilter, Server.onDatabase, Server.onRepository, hauth]
      rw [herror, herror]
    · have hanonymous (bank : Store A) :
          (server.onDatabase order bank).serve header op = .ok SecurityConfig.authenticationEntryPoint :=
        Server.serve_anonymous _ hauth hop
      rw [hanonymous, hanonymous]

end

theorem map_eq_ok {ε α β : Type} {x : Except ε α} {f : α → β} {b : β} (h : x.map f = .ok b) :
    ∃ a, x = .ok a ∧ f a = b := by
  cases x with
  | error e => cases h
  | ok a => exact ⟨a, rfl, Except.ok.inj h⟩

theorem getOneForCustomer_ok {bank : Store A} {customerId accountId : Long} {a : Account}
    (h : AccountService.getOneForCustomer bank accountId customerId = .ok a) :
    a ∈ bank.accounts ∧ a.id = accountId ∧ a.customer = some customerId := by
  rw [getOneForCustomer_eq] at h
  split at h
  · rename_i a' ha
    obtain rfl := Except.ok.inj h
    exact matchingAccount_eq_some_iff.mp ha
  · cases h

def Resource.Shows (bank : Store A) : Operation → Resource A → Prop
  | .getCustomerById customerId, .customer dto => ∃ c ∈ bank.customers, c.id = customerId ∧
      ∃ accounts : List Account, accounts.Perm (AccountRepository.findByCustomerId bank customerId) ∧
        dto = CustomerMapper.toDto c accounts
  | .getCustomerAccounts customerId, .accounts dtos =>
      ∃ accounts : List Account, accounts.Perm (AccountRepository.findByCustomerId bank customerId) ∧
        dtos = AccountMapper.toListDto accounts
  | .getCustomerAccount customerId accountId, .account dto => ∃ a ∈ bank.accounts, a.id = accountId ∧
      a.customer = some customerId ∧ dto = AccountMapper.toDto a
  | .getAccountTransactions _ accountId date page size, .transactions dto => ∃ d ordered,
      DateFormatter.parse date = .ok d ∧ ordered.Perm (TransactionRepository.monthRows bank accountId d) ∧
      Paging.Ordered Transaction.day ordered ∧
      dto.content.map TransactionDto.unconverted =
        (Paging.slice ordered page.toNat size.toNat).map fun t => (TransactionMapper.toDto t).unconverted
  | _, _ => False

section
variable [Mul A] {server : Server σ A} {order : DateOrder A} {bank : Store A} {header principal : Option String}
  {op : Operation} {resource : Resource A}

theorem find_shows {accountId : Long} {date : LocalDate} {page size : ℤ} {found : Page (Transaction A)}
    (h : AccountController.resultPage (server.onDatabase order bank).sources accountId date page size =
      .ok found) :
    ∃ ordered, ordered.Perm (TransactionRepository.monthRows bank accountId date) ∧
      Paging.Ordered Transaction.day ordered ∧
      found.content.map Transaction.unconverted =
        (Paging.slice ordered page.toNat size.toNat).map Transaction.unconverted := by
  rw [AccountController.resultPage, Server.onDatabase, Server.onRepository, if_neg Bool.false_ne_true] at h
  obtain ⟨pageable, hpageable, hconvert⟩ := bind_eq_ok h
  obtain ⟨hpage, hsize, hsort⟩ : pageable.page = page.toNat ∧ pageable.size = size.toNat ∧
      pageable.sort = .ascending "date" := by
    unfold PageRequest.of at hpageable
    split_ifs at hpageable
    obtain rfl := Except.ok.inj hpageable
    exact ⟨rfl, rfl, rfl⟩
  obtain ⟨-, rfl⟩ := TransactionServiceImpl.convert_ok hconvert
  refine ⟨order.arrange (.ascending "date") (TransactionRepository.monthRows bank accountId date),
    Multiset.coe_eq_coe.mp (order.arrange_eq _ _), order.arrange_ordered _, ?_⟩
  simp only [Page.withContent_content, TransactionServiceImpl.mapPage_unconverted, DateOrder.repository,
    TransactionRepository.execute, Page.pageImpl_content, hpage, hsize, hsort]

theorem handle_shows
    (h : (server.onDatabase order bank).handle op (some (UsernamePasswordAuthenticationToken principal)) =
      .ok (.resource resource)) : resource.Shows bank op := by
  cases op with
  | getStatus => cases h
  | getCustomers => cases h
  | getCustomerById customerId =>
    obtain ⟨dto, hdto, hresource⟩ := map_eq_ok h
    obtain rfl := ResponseBody.resource.inj hresource
    rw [Server.onDatabase, CustomerController.getCustomerById, getValidatedCustomer,
      getCustomerOrAccessDenied_eq] at hdto
    obtain ⟨c, hc, hdto⟩ := bind_eq_ok hdto
    obtain rfl := Except.ok.inj hdto
    split at hc
    · rename_i c' hmatching
      obtain rfl := Except.ok.inj hc
      obtain ⟨hmem, rfl, -⟩ := matchingCustomer_eq_some_iff.mp hmatching
      exact ⟨c', hmem, rfl, _, Multiset.coe_eq_coe.mp (server.accountOrder.arrange_eq _), rfl⟩
    · cases hc
  | getCustomerAccounts customerId =>
    obtain ⟨dtos, hdtos, hresource⟩ := map_eq_ok h
    obtain rfl := ResponseBody.resource.inj hresource
    obtain ⟨-, -, hdtos⟩ := bind_eq_ok hdtos
    obtain rfl := Except.ok.inj hdtos
    exact ⟨_, Multiset.coe_eq_coe.mp (server.accountOrder.arrange_eq _), rfl⟩
  | getCustomerAccount customerId accountId =>
    obtain ⟨dto, hdto, hresource⟩ := map_eq_ok h
    obtain rfl := ResponseBody.resource.inj hresource
    obtain ⟨-, -, hdto⟩ := bind_eq_ok hdto
    obtain ⟨a, ha, hdto⟩ := bind_eq_ok hdto
    obtain rfl := Except.ok.inj hdto
    obtain ⟨hmem, hid, hcustomer⟩ := getOneForCustomer_ok ha
    exact ⟨a, hmem, hid, hcustomer, rfl⟩
  | getAccountTransactions customerId accountId date page size =>
    obtain ⟨dto, hdto, hresource⟩ := map_eq_ok h
    obtain rfl := ResponseBody.resource.inj hresource
    obtain ⟨-, -, hdto⟩ := bind_eq_ok hdto
    obtain ⟨a, ha, hdto⟩ := bind_eq_ok hdto
    obtain ⟨d, hd, hdto⟩ := bind_eq_ok hdto
    obtain ⟨found, hfound, hdto⟩ := bind_eq_ok hdto
    obtain rfl := Except.ok.inj hdto
    obtain ⟨-, rfl, -⟩ := getOneForCustomer_ok ha
    obtain ⟨ordered, hperm, hordered, hunconverted⟩ := find_shows hfound
    refine ⟨d, ordered, hd, hperm, hordered, ?_⟩
    have hdtos := congrArg (List.map TransactionMapper.toDto) hunconverted
    rw [List.map_map, List.map_map] at hdtos
    rw [TransactionMapper.toTransactionPageDto, TransactionMapper.toListDto, List.map_map]
    exact hdtos

theorem serve_shows (server : Server σ A) (order : DateOrder A) (store : Store A) (header : Option String)
    (op : Operation) (resource : Resource A)
    (h : (server.onDatabase order store).serve header op = .ok ⟨200, some (.resource resource)⟩) :
    ∃ principal, server.Caller header principal ∧ resource.Shows (privateBank store principal) op := by
  by_cases hcaller : ∃ principal, server.Caller header principal
  · obtain ⟨principal, hcaller⟩ := hcaller
    refine ⟨principal, hcaller, ?_⟩
    rw [serve_onDatabase _ _ _ hcaller] at h
    have hhandle := respond_ok h
    rw [← handle_private server order store (Server.secured_of_resource _ hhandle)] at hhandle
    exact handle_shows hhandle
  · exfalso
    rcases server.authentication_without_caller hcaller with ⟨e, hauth⟩ | hauth
    · rw [Server.serve, doFilter, Server.onDatabase, Server.onRepository, hauth] at h
      cases h
    · cases hop : op.customerId with
      | none =>
        have hopen : ¬ Rejected server.parseClaimsJws server.secret header := by
          rw [rejected_iff, hauth]
          simp
        rw [Server.serve_open (server.onDatabase order store) hopen hop] at h
        exact Server.secured_of_resource _ (respond_ok h) hop
      | some customerId =>
        rw [Server.serve_anonymous (server.onDatabase order store) hauth (by simp [hop])] at h
        cases h

end

theorem serve_accounts [Mul A] {server : Server σ A} {store : Store A} {header principal : Option String}
    {customerId : Long} (repository : TransactionRepository A) (hcaller : server.Caller header principal)
    (howns : (server.onRepository repository store).Owns principal customerId) :
    (server.onRepository repository store).serve header (.getCustomerAccounts customerId) =
      .ok ⟨200, some (.resource (.accounts (AccountMapper.toListDto (server.accountOrder.arrange
        (AccountRepository.findByCustomerId store customerId)))))⟩ := by
  obtain ⟨c, hc⟩ := Server.matchingCustomer_of_owns _ howns
  rw [serve_onRepository _ _ _ hcaller]
  simp only [Server.handle, AccountController.getCustomerAccounts, validateAccess_bind,
    UsernamePasswordAuthenticationToken, hc]
  rfl

theorem withNeighbour_caller {principal : Option String}
    (h : Server.emptyBank.Caller (some ("Bearer " ++ "alice")) principal) : principal = some "alice" :=
  Server.caller_unique _ h (Server.emptyBank_caller "alice")

theorem withNeighbour_private :
    (Server.emptyBank.onDatabase .arbitrary withNeighbour).serve (some ("Bearer " ++ "alice"))
        (.getCustomerAccounts 2) =
      (Server.emptyBank.onDatabase .arbitrary (privateBank withNeighbour (some "alice"))).serve
        (some ("Bearer " ++ "alice")) (.getCustomerAccounts 2) := by
  apply serve_private
  · simp [Operation.customerId]
  · intro principal hcaller
    rw [withNeighbour_caller hcaller]

theorem withNeighbour_shows :
    ∃ principal, Server.emptyBank.Caller (some ("Bearer " ++ "alice")) principal ∧
      Resource.Shows (privateBank withNeighbour principal) (.getCustomerAccount 1 1)
        (.account ⟨1, none, none, none⟩) := by
  apply serve_shows Server.emptyBank .arbitrary withNeighbour
  have hcaller : (Server.emptyBank.onDatabase .arbitrary withNeighbour).Caller (some ("Bearer " ++ "alice")) _ :=
    Server.emptyBank_caller "alice"
  rw [Server.serve_caller _ hcaller]
  rfl

end EBank
