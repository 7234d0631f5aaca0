import EBank.Controllers

namespace EBank.AccountController

open ExternalAPIClient RestResponseEntityExceptionHandler

variable {σ A : Type}

def documentedStatus (store : Store A) (identityKey : String) (customerId accountId : Long)
    (dateString : String) : ℕ :=
  if (matchingCustomer store (some identityKey) customerId).isNone then 403
  else if (matchingAccount store accountId customerId).isNone then 404
  else match DateFormatter.parse dateString with
    | .error _ => 400
    | .ok _ => 200

section
variable [Mul A] (sources : Sources σ A) (store : Store A) (identityKey : String)
  (customerId accountId : Long) (dateString : String) (page size : ℤ)

def response : Except JavaException (ResponseEntity (TransactionPageDto A)) :=
  respond (getAccountTransactions sources store (contextOf identityKey)
    customerId accountId dateString page size)

def Documented : Prop :=
  ∃ answer, response sources store identityKey customerId accountId dateString page size = .ok answer ∧
    answer.status = documentedStatus store identityKey customerId accountId dateString ∧
    (answer.status = 200 → ∃ date found, DateFormatter.parse dateString = .ok date ∧
      resultPage sources accountId date page size = .ok found ∧
      answer.body = some (TransactionMapper.toTransactionPageDto found))

theorem response_eq : response sources store identityKey customerId accountId dateString page size =
    match matchingCustomer store (some identityKey) customerId with
    | none => .ok ⟨403, none⟩
    | some _ =>
      match matchingAccount store accountId customerId with
      | none => .ok ⟨404, none⟩
      | some _ =>
        match DateFormatter.parse dateString with
        | .error e => .error e
        | .ok date =>
          respond
            ((resultPage sources accountId date page size).map TransactionMapper.toTransactionPageDto) := by
  rw [response, getAccountTransactions_eq, UsernamePasswordAuthenticationToken]
  cases matchingCustomer store (some identityKey) customerId with
  | none => rfl
  | some customer =>
    cases matchingAccount store accountId customerId with
    | none => rfl
    | some account =>
      cases hdate : DateFormatter.parse dateString with
      | error e =>
        rw [DateFormatter.parse_error hdate]
        rfl
      | ok date => rfl

end

theorem resultPage_ok [Mul A] {sources : Sources σ A} {store : Store A}
    (hmode : sources.readMockedTransactions = false)
    (hrepository : TransactionRepository.SqlGuarantee store sources.repository)
    (hclient : sources.client.NullOrRate)
    (hamount : ∀ t ∈ store.transactions, t.amount ≠ none) (accountId : Long)
    (date : LocalDate) {page size : ℤ} (hp : 0 ≤ page) (hs : 1 ≤ size) :
    ∃ found, resultPage sources accountId date page size = .ok found := by
  obtain ⟨ordered, hperm, -, hexec⟩ := hrepository date.firstDay date.lastDay accountId
    ⟨page.toNat, size.toNat, .ascending "date", PageRequest.toNat_pos hs⟩
  rw [resultPage, hmode, if_neg Bool.false_ne_true, TransactionServiceImpl.find_eq _ _ _ _ _ hp hs, hexec]
  refine ⟨_, TransactionServiceImpl.convert_of_not_raised ?_⟩
  apply TransactionServiceImpl.mapPage_not_raised hclient _ _ _ (by simp)
  intro t ht _
  rw [TransactionRepository.execute, Page.pageImpl_content] at ht
  have hrow := hperm.mem_iff.mp ((Paging.slice_sublist _ _ _).mem ht)
  exact hamount t (List.mem_of_mem_filter hrow)

/-- Every request ends as documented except one that passes both lookups with a date string the
formatter rejects: that exception has no handler. -/
theorem getAccountTransactions_documented_iff [Mul A] {sources : Sources σ A} {store : Store A}
    (hmode : sources.readMockedTransactions = false)
    (hrepository : TransactionRepository.SqlGuarantee store sources.repository)
    (hclient : sources.client.NullOrRate)
    (hamount : ∀ t ∈ store.transactions, t.amount ≠ none) (identityKey : String) (customerId accountId : Long)
    (dateString : String) {page size : ℤ} (hp : 0 ≤ page) (hs : 1 ≤ size) :
    Documented sources store identityKey customerId accountId dateString page size ↔
      matchingCustomer store (some identityKey) customerId = none ∨
        matchingAccount store accountId customerId = none ∨
        ∃ date, DateFormatter.parse dateString = .ok date := by
  unfold Documented documentedStatus
  rw [response_eq]
  cases matchingCustomer store (some identityKey) customerId with
  | none => simp
  | some customer =>
    cases matchingAccount store accountId customerId with
    | none => simp
    | some account =>
      cases DateFormatter.parse dateString with
      | error e => simp
      | ok date =>
        obtain ⟨found, hfound⟩ := resultPage_ok hmode hrepository hclient hamount accountId date hp hs
        simp only [hfound]
        constructor
        · intro _
          exact .inr (.inr ⟨date, rfl⟩)
        · intro _
          exact ⟨_, rfl, rfl, fun _ => ⟨date, found, rfl, hfound, rfl⟩⟩

def emptyMonth : Store ℤ := .empty (some "key")

def databaseMode : Sources Unit ℤ where
  readMockedTransactions := false
  repository := TransactionRepository.inTableOrder emptyMonth
  client := ofRates fun _ => none
  state := ()
  polled := .ok []

theorem emptyMonth_documented : Documented databaseMode emptyMonth "key" 1 1 "2019-01" 0 20 := by
  apply (getAccountTransactions_documented_iff rfl (TransactionRepository.inTableOrder_guarantee _)
    (ofRates_nullOrRate _ (by simp)) (by decide) "key" 1 1 "2019-01" (by decide) (by decide)).mpr
  exact .inr (.inr ⟨LocalDate.january, by decide⟩)

theorem invalidDate_not_documented :
    documentedStatus emptyMonth "key" 1 1 "2019-21" = 400 ∧
      response databaseMode emptyMonth "key" 1 1 "2019-21" 0 20 = .error .dateTimeParse ∧
      ¬ Documented databaseMode emptyMonth "key" 1 1 "2019-21" 0 20 := by
  have hescapes : response databaseMode emptyMonth "key" 1 1 "2019-21" 0 20 = .error .dateTimeParse := by
    have hdate : DateFormatter.parse "2019-21" = .error .dateTimeParse := by decide
    have hcustomer :
        matchingCustomer emptyMonth (some "key") 1 = some ⟨1, none, none, some "key"⟩ := by decide
    have haccount : matchingAccount emptyMonth 1 1 = some ⟨1, some 1, none, none, none⟩ := by decide
    rw [response_eq, hcustomer, haccount, hdate]
  refine ⟨by decide, hescapes, ?_⟩
  rintro ⟨answer, hanswer, -⟩
  rw [hescapes] at hanswer
  cases hanswer

end EBank.AccountController
