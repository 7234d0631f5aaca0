import EBank.AsyncTransactionService
import EBank.DateFormatter
import EBank.Mappers
import EBank.Security
import EBank.TransactionServiceImpl

namespace EBank

variable {σ A : Type}

namespace CustomerService

def getAll (order : RowOrder Customer) (store : Store A) : List Customer := order.arrange store.customers

def findOneByIdentityKey (store : Store A) (id : Long) (identityKey : Option String) :
    Except JavaException (Option Customer) :=
  CustomerRepository.findByIdAndIdentityKey store id identityKey

end CustomerService

namespace AccountService

def getAllForCustomer (order : RowOrder Account) (store : Store A) (customerId : Long) : List Account :=
  order.arrange (AccountRepository.findByCustomerId store customerId)

def getOneForCustomer (store : Store A) (id customerId : Long) : Except JavaException Account := do
  match ← AccountRepository.findByIdAndCustomerId store id customerId with
  | some account => return account
  | none => throw .entityNotFound

end AccountService

namespace BasicController

def accessDenied : JavaException := .accessDenied "Access to requested customer denied"

def getCustomerOrAccessDenied (store : Store A) (context : SecurityContext) (customerId : Long) :
    Except JavaException Customer := do
  let identityKey ← SecurityContextUtils.getIdentityKey context
  match ← CustomerService.findOneByIdentityKey store customerId identityKey with
  | some customer => return customer
  | none => throw accessDenied

def validateAccessToRequestedCustomer (store : Store A) (context : SecurityContext) (customerId : Long) :
    Except JavaException Unit := do
  let _ ← getCustomerOrAccessDenied store context customerId

def getValidatedCustomer (store : Store A) (context : SecurityContext) (customerId : Long) :
    Except JavaException Customer :=
  getCustomerOrAccessDenied store context customerId

end BasicController

open BasicController

namespace AppStatusController

def appVersion : String := "1.0.0"

def getStatus : AppStatusDto := ⟨appVersion⟩

end AppStatusController

namespace CustomerController

def getCustomers (order : RowOrder Customer) (store : Store A) : List CustomerListItemDto :=
  CustomerMapper.toListDto (CustomerService.getAll order store)

-- the accounts of a loaded customer are those whose foreign key names it
def getCustomerById (order : RowOrder Account) (store : Store A) (context : SecurityContext) (id : Long) :
    Except JavaException CustomerDto := do
  let customer ← getValidatedCustomer store context id
  return CustomerMapper.toDto customer (order.arrange (AccountRepository.findByCustomerId store customer.id))

end CustomerController

namespace AccountController

def getCustomerAccounts (order : RowOrder Account) (store : Store A) (context : SecurityContext)
    (customerId : Long) : Except JavaException (List AccountDto) := do
  validateAccessToRequestedCustomer store context customerId
  return AccountMapper.toListDto (AccountService.getAllForCustomer order store customerId)

def getCustomerAccount (store : Store A) (context : SecurityContext) (customerId accountId : Long) :
    Except JavaException AccountDto := do
  validateAccessToRequestedCustomer store context customerId
  let account ← AccountService.getOneForCustomer store accountId customerId
  return AccountMapper.toDto account

/-- What the request for a page of transactions may turn to: the repository and the exchange-rate
client in its present state, or the records one poll of the output topic returns. -/
structure Sources (σ A : Type) where
  readMockedTransactions : Bool
  repository : TransactionRepository A
  client : ExternalAPIClient σ A
  state : σ
  polled : Except JavaException (List (AsyncTransactionService.ConsumedRecord A))

-- an exception of the future is logged and leaves the empty page
def getOrEmpty : Except JavaException (Page (Transaction A)) → Page (Transaction A)
  | .ok resultPage => resultPage
  | .error _ => Page.empty

def resultPage [Mul A] (sources : Sources σ A) (accountId : Long) (date : LocalDate) (page size : ℤ) :
    Except JavaException (Page (Transaction A)) :=
  if sources.readMockedTransactions then
    .ok (getOrEmpty (AsyncTransactionService.findInMonthPaginated sources.polled date page size))
  else
    TransactionServiceImpl.findForAccountInMonthPaginated sources.repository sources.client sources.state
      accountId date page size

def getAccountTransactions [Mul A] (sources : Sources σ A) (store : Store A) (context : SecurityContext)
    (customerId accountId : Long) (dateString : String) (page size : ℤ) :
    Except JavaException (TransactionPageDto A) := do
  validateAccessToRequestedCustomer store context customerId
  let account ← AccountService.getOneForCustomer store accountId customerId
  let date ← DateFormatter.parse dateString
  let resultPage ← resultPage sources account.id date page size
  return TransactionMapper.toTransactionPageDto resultPage

end AccountController

structure ResponseEntity (α : Type) where
  status : ℕ
  body : Option α
  deriving DecidableEq, Repr

namespace RestResponseEntityExceptionHandler

def respond {α : Type} : Except JavaException α → Except JavaException (ResponseEntity α)
  | .ok body => .ok ⟨200, some body⟩
  | .error .entityNotFound => .ok ⟨404, none⟩
  | .error (.accessDenied _) => .ok ⟨403, none⟩
  | .error e => .error e

end RestResponseEntityExceptionHandler

section Lookups
variable (store : Store A)

def matchingCustomer (identityKey : Option String) (customerId : Long) : Option Customer :=
  store.customers.find? (fun c => c.id = customerId ∧ c.identityKey = identityKey)

def matchingAccount (accountId customerId : Long) : Option Account :=
  store.accounts.find? (fun a => a.id = accountId ∧ a.customer = some customerId)

theorem getCustomerOrAccessDenied_eq (authentication : Authentication) (customerId : Long) :
    getCustomerOrAccessDenied store (some authentication) customerId =
      match matchingCustomer store authentication.principal customerId with
      | some customer => .ok customer
      | none => .error accessDenied := by
  rw [getCustomerOrAccessDenied, SecurityContextUtils.getIdentityKey, ok_bind,
    CustomerService.findOneByIdentityKey, CustomerRepository.findByIdAndIdentityKey_eq, ok_bind,
    matchingCustomer]
  split <;> rfl

theorem getOneForCustomer_eq (accountId customerId : Long) :
    AccountService.getOneForCustomer store accountId customerId =
      match matchingAccount store accountId customerId with
      | some account => .ok account
      | none => .error .entityNotFound := by
  rw [AccountService.getOneForCustomer, AccountRepository.findByIdAndCustomerId_eq, ok_bind, matchingAccount]
  split <;> rfl

theorem validateAccess_bind {β : Type} (authentication : Authentication) (customerId : Long)
    (f : Unit → Except JavaException β) :
    (validateAccessToRequestedCustomer store (some authentication) customerId >>= f) =
      match matchingCustomer store authentication.principal customerId with
      | some _ => f ()
      | none => .error accessDenied := by
  rw [validateAccessToRequestedCustomer, getCustomerOrAccessDenied_eq]
  cases matchingCustomer store authentication.principal customerId <;> rfl

theorem matchingCustomer_eq_some_iff {store : Store A} {identityKey : Option String} {customerId : Long}
    {c : Customer} :
    matchingCustomer store identityKey customerId = some c ↔
      c ∈ store.customers ∧ c.id = customerId ∧ c.identityKey = identityKey := by
  rw [matchingCustomer, find?_eq_some_iff_of_key Customer.id store.customer_pkey (i := customerId)]
  · simp
  · intro c hc
    simp only [decide_eq_true_eq] at hc
    exact hc.1

theorem matchingAccount_eq_some_iff {store : Store A} {accountId customerId : Long} {a : Account} :
    matchingAccount store accountId customerId = some a ↔
      a ∈ store.accounts ∧ a.id = accountId ∧ a.customer = some customerId := by
  rw [matchingAccount, find?_eq_some_iff_of_key Account.id store.account_pkey (i := accountId)]
  · simp
  · intro a ha
    simp only [decide_eq_true_eq] at ha
    exact ha.1

theorem getAccountTransactions_eq [Mul A] (sources : AccountController.Sources σ A)
    (authentication : Authentication) (customerId accountId : Long) (dateString : String) (page size : ℤ) :
    AccountController.getAccountTransactions sources store (some authentication) customerId accountId dateString
        page size =
      match matchingCustomer store authentication.principal customerId with
      | none => .error accessDenied
      | some _ =>
        match matchingAccount store accountId customerId with
        | none => .error .entityNotFound
        | some _ =>
          match DateFormatter.parse dateString with
          | .error e => .error e
          | .ok date =>
            (AccountController.resultPage sources accountId date page size).map
              TransactionMapper.toTransactionPageDto := by
  rw [AccountController.getAccountTransactions, validateAccess_bind, getOneForCustomer_eq]
  cases matchingCustomer store authentication.principal customerId with
  | none => rfl
  | some customer =>
    cases haccount : matchingAccount store accountId customerId with
    | none => rfl
    | some account =>
      have hid := (matchingAccount_eq_some_iff.mp haccount).2.1
      cases DateFormatter.parse dateString with
      | error e => rfl
      | ok date =>
        simp only [ok_bind, bind_return, hid]

end Lookups

end EBank
