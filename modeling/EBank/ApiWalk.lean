import EBank.StatementWalk

namespace EBank

open TransactionServiceImpl ExternalAPIClient RestResponseEntityExceptionHandler

variable {σ A : Type}

section Cells
variable {α β κ : Type*}

theorem flatMap_range_of_first {f : ℕ → List β} {n : ℕ} (h : n = 0 → f 0 = []) :
    f 0 ++ (List.range (n - 1)).flatMap (fun page => f (page + 1)) = (List.range n).flatMap f := by
  cases n with
  | zero => simpa using h rfl
  | succ n => rw [List.range_succ_eq_map, List.flatMap_cons, List.flatMap_map, Nat.add_sub_cancel]

end Cells

namespace ApiWalk

variable (api : Operation → Except JavaException (ResponseEntity (ResponseBody (Resource A))))

def bodyOf : Except JavaException (ResponseEntity (ResponseBody (Resource A))) →
    Option (ResponseBody (Resource A))
  | .ok ⟨200, body⟩ => body
  | _ => none

def customers : List CustomerListItemDto :=
  match bodyOf (api .getCustomers) with
  | some (.customers dtos) => dtos
  | _ => []

def accounts (customerId : Long) : List AccountDto :=
  match bodyOf (api (.getCustomerAccounts customerId)) with
  | some (.resource (.accounts dtos)) => dtos
  | _ => []

def transactionPage (customerId accountId : Long) (text : String) (size page : ℕ) :
    Option (TransactionPageDto A) :=
  match bodyOf (api (.getAccountTransactions customerId accountId text page size)) with
  | some (.resource (.transactions dto)) => some dto
  | _ => none

-- the first page says how many more to ask for
def month (size : ℕ) (customerId accountId : Long) (text : String) : List (TransactionDto A) :=
  match transactionPage api customerId accountId text size 0 with
  | some first => first.content ++ (List.range (first.page.totalPages - 1)).flatMap fun page =>
      (transactionPage api customerId accountId text size (page + 1)).elim [] TransactionPageDto.content
  | none => []

variable {api} in
theorem month_eq_slices {size n : ℕ} (hs : 0 < size) {customerId accountId : Long} {text : String}
    {content : ℕ → List (TransactionDto A)} (hlength : ∀ page, (content page).length = n)
    (hpages : ∀ page, transactionPage api customerId accountId text size page =
      some (statementPage (content page) page size)) :
    month api size customerId accountId text =
      (List.range (Paging.pageCount n size)).flatMap fun page => Paging.slice (content page) page size := by
  have hnone : Paging.pageCount n size = 0 → Paging.slice (content 0) 0 size = [] := by
    intro hcount
    have hempty : n = 0 := by
      by_contra hne
      have hlt := (Paging.lt_pageCount_iff (n := n) hs 0).mpr (by omega)
      omega
    rw [List.length_eq_zero_iff.mp ((hlength 0).trans hempty), Paging.slice, List.drop_nil, List.take_nil]
  simp only [month, hpages, statementPage, hlength, Option.elim_some]
  exact flatMap_range_of_first (f := fun page => Paging.slice (content page) page size) hnone

def walk (size : ℕ) (texts : List String) : List (TransactionDto A) :=
  (customers api).flatMap fun customer =>
    (accounts api customer.id).flatMap fun account =>
      texts.flatMap (month api size customer.id account.id)

end ApiWalk

def Transaction.OfMonth (t : Transaction A) (text : String) : Prop :=
  ∃ d ∈ (DateFormatter.parse text).toOption, t.InMonth d

instance (t : Transaction A) (text : String) : Decidable (t.OfMonth text) :=
  inferInstanceAs (Decidable (∃ d ∈ (DateFormatter.parse text).toOption, t.InMonth d))

def DistinctMonths (texts : List String) : Prop :=
  texts.Pairwise fun text text' => ∀ d ∈ (DateFormatter.parse text).toOption,
    ∀ d' ∈ (DateFormatter.parse text').toOption, ¬ d.SameMonth d'

namespace Transaction
variable {t : Transaction A} {text : String}

theorem ofMonth_iff {d : LocalDate} (h : DateFormatter.parse text = .ok d) :
    t.OfMonth text ↔ t.InMonth d := by
  simp [OfMonth, h, Except.toOption]

theorem not_ofMonth {e : JavaException} (h : DateFormatter.parse text = .error e) : ¬ t.OfMonth text := by
  simp [OfMonth, h, Except.toOption]

end Transaction

theorem DistinctMonths.disjoint {texts : List String} (h : DistinctMonths texts) (l : List (Transaction A)) :
    texts.Pairwise fun text text' => ∀ t ∈ l, t.OfMonth text → ¬ t.OfMonth text' := by
  apply h.imp
  rintro text text' hmonths t - ⟨d, hd, e, he, hsame⟩ ⟨d', hd', e', he', hsame'⟩
  obtain rfl : e = e' := Option.mem_unique he he'
  exact hmonths d hd d' hd' (hsame.symm.trans hsame')

def Unsplit (store : Store A) (accountId : Long) (size : ℕ) (text : String) : Prop :=
  ∀ d ∈ (DateFormatter.parse text).toOption, ∀ page : ℕ,
    ¬ Paging.SplitsTie Transaction.day (TransactionRepository.monthRows store accountId d) (page * size)

section
variable {store : Store A} {principal : Option String}

theorem account_private_iff {t : Transaction A} :
    (∃ a ∈ privateAccounts store principal, t.account = some a.id) ↔
      ∃ c ∈ store.customers, c.identityKey = principal ∧
        ∃ a ∈ AccountRepository.findByCustomerId store c.id, t.account = some a.id := by
  constructor
  · rintro ⟨a, hmem, haccount⟩
    obtain ⟨ha, howner⟩ := List.mem_filter.mp hmem
    obtain ⟨c, hc, hcustomer⟩ := of_decide_eq_true howner
    obtain ⟨hcustomers, hkey⟩ := mem_privateCustomers_iff.mp hc
    exact ⟨c, hcustomers, hkey, a, List.mem_filter.mpr ⟨ha, decide_eq_true hcustomer⟩, haccount⟩
  · rintro ⟨c, hc, hkey, a, hmem, haccount⟩
    obtain ⟨ha, hcustomer⟩ := List.mem_filter.mp hmem
    have howned := mem_privateCustomers_iff.mpr ⟨hc, hkey⟩
    exact ⟨a, (mem_privateAccounts_iff howned (of_decide_eq_true hcustomer)).mpr ha, haccount⟩

theorem private_inMonths (texts : List String) :
    ((privateBank store principal).transactions.filter fun t => ∃ text ∈ texts, t.OfMonth text) =
      store.transactions.filter fun t => ∃ c ∈ store.customers, c.identityKey = principal ∧
        ∃ a ∈ AccountRepository.findByCustomerId store c.id, ∃ text ∈ texts,
          t.account = some a.id ∧ t.OfMonth text := by
  change List.filter _ (List.filter _ _) = _
  rw [List.filter_filter]
  apply List.filter_congr
  intro t _
  rw [← Bool.decide_and, decide_eq_decide, account_private_iff]
  constructor
  · rintro ⟨⟨text, htext, hmonth⟩, c, hc, hkey, a, ha, haccount⟩
    exact ⟨c, hc, hkey, a, ha, text, htext, haccount, hmonth⟩
  · rintro ⟨c, hc, hkey, a, ha, text, htext, haccount, hmonth⟩
    exact ⟨⟨text, htext, hmonth⟩, c, hc, hkey, a, ha, haccount⟩

end

section
variable [Mul A] {server : Server σ A} {store : Store A} {repositories : Operation → TransactionRepository A}
  {header principal : Option String} {customerId : Long}
  {rates : Option Currency → Option (InlineResponse200 A)} {texts : List String} {size : ℕ}
  (hcaller : server.Caller header principal)
include hcaller

theorem walk_customers : ApiWalk.customers (server.api store repositories header) =
    CustomerMapper.toListDto (server.customerOrder.arrange store.customers) := by
  rw [ApiWalk.customers, Server.api, serve_onRepository _ _ _ hcaller]
  rfl

theorem walk_accounts (howns : ∃ c ∈ store.customers, c.id = customerId ∧ c.identityKey = principal) :
    ApiWalk.accounts (server.api store repositories header) customerId = AccountMapper.toListDto
      (server.accountOrder.arrange (AccountRepository.findByCustomerId store customerId)) := by
  rw [ApiWalk.accounts, Server.api, serve_accounts _ hcaller howns]
  rfl

theorem walk_accounts_denied
    (howns : ¬ ∃ c ∈ store.customers, c.id = customerId ∧ c.identityKey = principal) :
    ApiWalk.accounts (server.api store repositories header) customerId = [] := by
  have hdenied : ¬ (server.onRepository (repositories (.getCustomerAccounts customerId)) store).Owns principal
      customerId := howns
  rw [ApiWalk.accounts, Server.api, serve_onRepository _ _ _ hcaller, Server.handle_denied _ rfl hdenied]
  rfl

theorem walk_month_unparsed (howns : ∃ c ∈ store.customers, c.id = customerId ∧ c.identityKey = principal)
    {accountId : Long} (hholds : ∃ a ∈ store.accounts, a.id = accountId ∧ a.customer = some customerId)
    {text : String} {e : JavaException} (hdate : DateFormatter.parse text = .error e) :
    ApiWalk.month (server.api store repositories header) size customerId accountId text = [] := by
  obtain rfl := DateFormatter.parse_error hdate
  have hpage : ApiWalk.transactionPage (server.api store repositories header) customerId accountId text size 0 =
      none := by
    have hanswer : ((DateFormatter.parse text).bind fun date => (AccountController.resultPage
        (server.onRepository (repositories (.getAccountTransactions customerId accountId text (0 : ℕ) size))
          store).sources
        accountId date (0 : ℕ) size).map TransactionMapper.toTransactionPageDto) = .error .dateTimeParse := by
      rw [hdate]
      rfl
    rw [ApiWalk.transactionPage, api_of_granted hcaller howns hholds hanswer]
    rfl
  rw [ApiWalk.month, hpage]

variable (hclient : server.sources.client.Answers rates)
  (hrates : ∀ currency, ∀ r ∈ rates currency, r.value ≠ none)
  (hsql : ∀ op, TransactionRepository.SqlGuarantee store (repositories op)) (hs : 0 < size)
include hclient hrates hsql hs

end

end EBank
