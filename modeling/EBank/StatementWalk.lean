import EBank.MonthWalk
import EBank.PrivateBank

namespace EBank

open TransactionServiceImpl ExternalAPIClient RestResponseEntityExceptionHandler

variable {σ A : Type}

namespace ExternalAPIClient

/-- The reply depends on the currency alone, whatever state the client keeps. -/
def Answers (client : ExternalAPIClient σ A) (rates : Option Currency → Option (InlineResponse200 A)) : Prop :=
  ∀ currency s, (client currency s).1 = .ok (rates currency)

variable {client : ExternalAPIClient σ A} {rates : Option Currency → Option (InlineResponse200 A)}

theorem Answers.plays (h : client.Answers rates) :
    Memo.Plays client (fun currency _ => rates currency) (fun _ _ => True) := by
  intro asked s currency _
  refine ⟨(client currency s).2, ?_, trivial⟩
  rw [← h currency s]

theorem Answers.mapPage [Mul A] (h : client.Answers rates) {ts : List (Transaction A)} {s : σ}
    (hraised : (mapPage client ts (fun _ => none) s).raised = none) :
    (mapPage client ts (fun _ => none) s).transactions = ts.map (exchangeWith rates) := by
  obtain ⟨htransactions, hsame⟩ := mapPage_start h.plays (s := s) trivial ts
  rw [hsame] at hraised
  rw [htransactions, exchangeAll_done hraised, withRates_const, List.map_map]
  rfl

end ExternalAPIClient

def statementPage (statement : List (TransactionDto A)) (page size : ℕ) : TransactionPageDto A where
  page := ⟨size, statement.length, Paging.pageCount statement.length size, page⟩
  content := Paging.slice statement page size

theorem slice_map {α β : Type*} (f : α → β) (l : List α) (page size : ℕ) :
    Paging.slice (l.map f) page size = (Paging.slice l page size).map f := by
  rw [Paging.slice, Paging.slice, List.map_take, List.map_drop]

theorem toTransactionPageDto_slice (ordered : List (Transaction A)) (f : Transaction A → Transaction A)
    (pageable : PageRequest) :
    TransactionMapper.toTransactionPageDto ⟨(Paging.slice ordered pageable.page pageable.size).map f,
        some pageable, ordered.length⟩ =
      statementPage (ordered.map fun t => TransactionMapper.toDto (f t)) pageable.page pageable.size := by
  have htotal : PageMapper.toDto (⟨(Paging.slice ordered pageable.page pageable.size).map f, some pageable,
      ordered.length⟩ : Page (Transaction A)) =
      ⟨pageable.size, ordered.length, Paging.pageCount ordered.length pageable.size, pageable.page⟩ := by
    simp [PageMapper.toDto, Page.getSize, Page.getNumber, Page.getTotalPages, Page.getTotalElements,
      pageable.size_pos.ne']
  rw [TransactionMapper.toTransactionPageDto, statementPage, htotal, slice_map, List.length_map,
    TransactionMapper.toListDto, List.map_map]
  rfl

/-- The API over the rows of a store, where each request has a query of its own. -/
def Server.api [Mul A] (server : Server σ A) (store : Store A)
    (repositories : Operation → TransactionRepository A) (header : Option String) (op : Operation) :
    Except JavaException (ResponseEntity (ResponseBody (Resource A))) :=
  (server.onRepository (repositories op) store).serve header op

section
variable [Mul A] {client : ExternalAPIClient σ A} {rates : Option Currency → Option (InlineResponse200 A)}
  {accountId : Long} {date : LocalDate}

theorem find_slice {repository : TransactionRepository A} {page size : ℕ} {hs : 0 < size}
    {ordered : List (Transaction A)} (hclient : client.Answers rates)
    (hrates : ∀ currency, ∀ r ∈ rates currency, r.value ≠ none)
    (hexecute : repository date.firstDay date.lastDay accountId ⟨page, size, .ascending "date", hs⟩ =
      TransactionRepository.execute ordered ⟨page, size, .ascending "date", hs⟩)
    (hamount : ∀ t ∈ ordered, t.currency ≠ some getTargetCurrency → t.amount ≠ none) (s : σ) :
    findForAccountInMonthPaginated repository client s accountId date page size =
      .ok ⟨(Paging.slice ordered page size).map (exchangeWith rates), some ⟨page, size, .ascending "date", hs⟩,
        ordered.length⟩ := by
  let pageable : PageRequest := ⟨page, size, .ascending "date", hs⟩
  have hraised : (mapPage client (Paging.slice ordered page size) (fun _ => none) s).raised = none := by
    apply mapPage_not_raised _ _ _ _ (by simp)
    · intro currency s
      exact ⟨rates currency, hclient currency s, hrates currency⟩
    · intro t ht
      exact hamount t ((Paging.slice_sublist ordered page size).mem ht)
  have hcontent : (TransactionRepository.execute ordered pageable).content =
      Paging.slice ordered page size := Page.pageImpl_content _ _ _
  rw [find_execute s hexecute, convert_of_not_raised (by rw [hcontent, hraised]),
    Page.withContent_total (TransactionRepository.execute ordered pageable) _
      (mapPage_length client _ _ s) ordered pageable rfl, hcontent, hclient.mapPage hraised]

end

section
variable [Mul A] {server : Server σ A} {store : Store A} {repositories : Operation → TransactionRepository A}
  {header principal : Option String} {customerId accountId : Long}
  {rates : Option Currency → Option (InlineResponse200 A)} {text : String} {date : LocalDate}
  (hcaller : server.Caller header principal)
  (howns : ∃ c ∈ store.customers, c.id = customerId ∧ c.identityKey = principal)
  (hholds : ∃ a ∈ store.accounts, a.id = accountId ∧ a.customer = some customerId)
include hcaller howns hholds

theorem api_of_granted {page size : ℤ} {answer : Except JavaException (TransactionPageDto A)}
    (hanswer : ((DateFormatter.parse text).bind fun date => (AccountController.resultPage
      (server.onRepository (repositories (.getAccountTransactions customerId accountId text page size))
        store).sources
      accountId date page size).map TransactionMapper.toTransactionPageDto) = answer) :
    server.api store repositories header (.getAccountTransactions customerId accountId text page size) =
      respond (answer.map fun dto => .resource (.transactions dto)) := by
  obtain ⟨c, hc⟩ := howns
  obtain ⟨a, ha⟩ := hholds
  have hcustomer : matchingCustomer store principal customerId = some c := matchingCustomer_eq_some_iff.mpr hc
  have haccount : matchingAccount store accountId customerId = some a := matchingAccount_eq_some_iff.mpr ha
  have hfound : AccountController.getAccountTransactions
      (server.onRepository (repositories (.getAccountTransactions customerId accountId text page size))
        store).sources
      store (some (UsernamePasswordAuthenticationToken principal)) customerId accountId text page size =
      answer := by
    rw [getAccountTransactions_eq, UsernamePasswordAuthenticationToken, hcustomer, haccount, ← hanswer]
    cases DateFormatter.parse text <;> rfl
  rw [Server.api, serve_onRepository _ _ _ hcaller]
  exact congrArg
    (fun answer => respond (answer.map fun dto => ResponseBody.resource (Resource.transactions dto))) hfound

variable (hdate : DateFormatter.parse text = .ok date) (hclient : server.sources.client.Answers rates)
  (hrates : ∀ currency, ∀ r ∈ rates currency, r.value ≠ none)
include hdate hclient hrates

theorem api_page {page size : ℕ} {hs : 0 < size} {ordered : List (Transaction A)}
    (hexecute : repositories (.getAccountTransactions customerId accountId text page size) date.firstDay
        date.lastDay accountId ⟨page, size, .ascending "date", hs⟩ =
      TransactionRepository.execute ordered ⟨page, size, .ascending "date", hs⟩)
    (hamount : ∀ t ∈ ordered, t.currency ≠ some getTargetCurrency → t.amount ≠ none) :
    server.api store repositories header (.getAccountTransactions customerId accountId text page size) =
      .ok ⟨200, some (.resource (.transactions (statementPage
        (ordered.map fun t => TransactionMapper.toDto (exchangeWith rates t)) page size)))⟩ := by
  have hfind := find_slice hclient hrates hexecute hamount server.sources.state
  have hanswer : ((DateFormatter.parse text).bind fun date => (AccountController.resultPage
      (server.onRepository (repositories (.getAccountTransactions customerId accountId text page size))
        store).sources
      accountId date page size).map TransactionMapper.toTransactionPageDto) =
      .ok (statementPage (ordered.map fun t => TransactionMapper.toDto (exchangeWith rates t)) page size) := by
    rw [hdate]
    simp only [Except.bind, AccountController.resultPage, Server.onRepository, Bool.false_eq_true, if_false,
      hfind]
    exact congrArg Except.ok
      (toTransactionPageDto_slice ordered (exchangeWith rates) ⟨page, size, .ascending "date", hs⟩)
  exact api_of_granted hcaller howns hholds hanswer

end

end EBank
