import EBank.Page
import Mathlib.Data.Multiset.Filter
import Mathlib.Data.Multiset.Basic

/-!
The three tables of the schema and the derived queries of the repositories over them.
A derived query compares columns as SQL does, with `IS NULL` for an absent argument.
-/

namespace EBank

variable {A : Type}

structure Store (A : Type) where
  customers : List Customer
  accounts : List Account
  transactions : List (Transaction A)
  customer_pkey : (customers.map Customer.id).Nodup
  account_pkey : (accounts.map Account.id).Nodup
  account_transaction_pkey : (transactions.map Transaction.id).Nodup
  cust_fk : ∀ a ∈ accounts, ∀ c ∈ a.customer, c ∈ customers.map Customer.id
  account_fk : ∀ t ∈ transactions, ∀ a ∈ t.account, a ∈ accounts.map Account.id

def Store.ofTransactions (identityKey : Option String) (transactions : List (Transaction A))
    (hids : (transactions.map Transaction.id).Nodup)
    (haccount : ∀ t ∈ transactions, t.account = some 1) : Store A where
  customers := [⟨1, none, none, identityKey⟩]
  accounts := [⟨1, some 1, none, none, none⟩]
  transactions := transactions
  customer_pkey := by simp
  account_pkey := by simp
  account_transaction_pkey := hids
  cust_fk := by simp
  account_fk := by
    intro t ht a ha
    rw [haccount t ht] at ha
    simpa using (Option.some_inj.mp ha).symm

def Store.empty (identityKey : Option String) : Store A :=
  .ofTransactions identityKey [] List.nodup_nil (List.forall_mem_nil _)

def uniqueResult {α : Type} : List α → Except JavaException (Option α)
  | [] => .ok none
  | [x] => .ok (some x)
  | _ => .error .incorrectResultSize

theorem uniqueResult_filter {α : Type} (key : α → Long) {l : List α} (hn : (l.map key).Nodup) (i : Long)
    (p : α → Bool) (hp : ∀ x, p x = true → key x = i) : uniqueResult (l.filter p) = .ok (l.find? p) := by
  have hlen : (l.filter p).length ≤ 1 := by
    by_contra hgt
    obtain ⟨x, y, rest, he⟩ : ∃ x y rest, l.filter p = x :: y :: rest := by
      rcases hf : l.filter p with _ | ⟨x, _ | ⟨y, rest⟩⟩
      · simp [hf] at hgt
      · simp [hf] at hgt
      · exact ⟨x, y, rest, rfl⟩
    have hnodup : ((l.filter p).map key).Nodup := hn.sublist (List.filter_sublist.map key)
    have hx : p x = true := (List.mem_filter.mp (he ▸ List.mem_cons_self : x ∈ l.filter p)).2
    have hy : p y = true := (List.mem_filter.mp (he ▸ by simp : y ∈ l.filter p)).2
    rw [he] at hnodup
    simp [hp x hx, hp y hy] at hnodup
  rw [← List.head?_filter]
  rcases hf : l.filter p with _ | ⟨x, _ | ⟨y, rest⟩⟩
  · rfl
  · rfl
  · simp [hf] at hlen

theorem find?_eq_some_iff_of_key {α : Type} (key : α → Long) {l : List α} (hn : (l.map key).Nodup) {i : Long}
    {p : α → Bool} (hp : ∀ x, p x = true → key x = i) {x : α} : l.find? p = some x ↔ x ∈ l ∧ p x = true := by
  constructor
  · intro h
    exact ⟨List.mem_of_find?_eq_some h, List.find?_some h⟩
  · rintro ⟨hx, hpx⟩
    obtain ⟨y, hy⟩ := Option.isSome_iff_exists.mp (List.find?_isSome.mpr ⟨x, hx, hpx⟩)
    have hkey : key y = key x := (hp y (List.find?_some hy)).trans (hp x hpx).symm
    rw [hy, List.inj_on_of_nodup_map hn (List.mem_of_find?_eq_some hy) hx hkey]

namespace CustomerRepository

def findByIdAndIdentityKey (store : Store A) (id : Long) (identityKey : Option String) :
    Except JavaException (Option Customer) :=
  uniqueResult (store.customers.filter (fun c => c.id = id ∧ c.identityKey = identityKey))

theorem findByIdAndIdentityKey_eq (store : Store A) (id : Long) (identityKey : Option String) :
    findByIdAndIdentityKey store id identityKey =
      .ok (store.customers.find? (fun c => c.id = id ∧ c.identityKey = identityKey)) := by
  apply uniqueResult_filter Customer.id store.customer_pkey id
  intro c hc
  simp only [decide_eq_true_eq] at hc
  exact hc.1

end CustomerRepository

namespace AccountRepository

def findByCustomerId (store : Store A) (customerId : Long) : List Account :=
  store.accounts.filter (fun a => a.customer = some customerId)

def findByIdAndCustomerId (store : Store A) (id customerId : Long) : Except JavaException (Option Account) :=
  uniqueResult (store.accounts.filter (fun a => a.id = id ∧ a.customer = some customerId))

theorem findByIdAndCustomerId_eq (store : Store A) (id customerId : Long) :
    findByIdAndCustomerId store id customerId =
      .ok (store.accounts.find? (fun a => a.id = id ∧ a.customer = some customerId)) := by
  apply uniqueResult_filter Account.id store.account_pkey id
  intro a ha
  simp only [decide_eq_true_eq] at ha
  exact ha.1

end AccountRepository

/-- `findByDateBetweenAndAccountId`, an interface method without a body in the source. -/
abbrev TransactionRepository (A : Type) := LocalDate → LocalDate → Long → PageRequest → Page (Transaction A)

namespace TransactionRepository

def Matches (startDate endDate : LocalDate) (accountId : Long) (t : Transaction A) : Prop :=
  (∃ d ∈ t.date, startDate ≤ d ∧ d ≤ endDate) ∧ t.account = some accountId

instance (startDate endDate : LocalDate) (accountId : Long) :
    DecidablePred (Matches (A := A) startDate endDate accountId) :=
  fun t => inferInstanceAs (Decidable ((∃ d ∈ t.date, startDate ≤ d ∧ d ≤ endDate) ∧
    t.account = some accountId))

def rows (store : Store A) (startDate endDate : LocalDate) (accountId : Long) : List (Transaction A) :=
  store.transactions.filter (fun t => Matches startDate endDate accountId t)

abbrev monthRows (store : Store A) (accountId : Long) (date : LocalDate) : List (Transaction A) :=
  rows store date.firstDay date.lastDay accountId

theorem rows_ids_nodup (store : Store A) (startDate endDate : LocalDate) (accountId : Long) :
    ((rows store startDate endDate accountId).map Transaction.id).Nodup :=
  store.account_transaction_pkey.sublist (List.filter_sublist.map _)

theorem mem_monthRows_iff {store : Store A} {accountId : Long} {date : LocalDate} {t : Transaction A} :
    t ∈ monthRows store accountId date ↔
      t ∈ store.transactions ∧ t.account = some accountId ∧ t.InMonth date := by
  simp only [monthRows, rows, List.mem_filter, decide_eq_true_eq, Matches,
    LocalDate.between_iff_sameMonth]
  apply and_congr_right
  intro _
  exact and_comm

def execute (ordered : List (Transaction A)) (pageable : PageRequest) : Page (Transaction A) :=
  Page.pageImpl (Paging.slice ordered pageable.page pageable.size) pageable ordered.length

/-- What one execution of the query promises: `ORDER BY` the requested property with `LIMIT`/`OFFSET`
over some arrangement of the matching rows, and an exact total. -/
def SqlGuarantee (store : Store A) (findByDateBetweenAndAccountId : TransactionRepository A) : Prop :=
  ∀ startDate endDate accountId pageable, ∃ ordered : List (Transaction A),
    ordered.Perm (rows store startDate endDate accountId) ∧
    (pageable.sort = .ascending "date" → Paging.Ordered Transaction.day ordered) ∧
    findByDateBetweenAndAccountId startDate endDate accountId pageable = execute ordered pageable

-- the execution that keeps rows of equal date in the order of the table
def inTableOrder (store : Store A) : TransactionRepository A := fun startDate endDate accountId pageable =>
  execute ((rows store startDate endDate accountId).insertionSort (fun t u => t.day ≤ u.day)) pageable

theorem inTableOrder_guarantee (store : Store A) : SqlGuarantee store (inTableOrder store) :=
  fun _ _ _ _ => ⟨_, List.perm_insertionSort _ _, fun _ => Paging.ordered_insertionSort _, rfl⟩

end TransactionRepository

/-- The order in which a query hands out its rows, as a function of these rows. -/
structure RowOrder (α : Type) where
  arrange : Multiset α → List α
  arrange_eq : ∀ rows, (arrange rows : Multiset α) = rows

noncomputable def RowOrder.arbitrary {α : Type} : RowOrder α := ⟨Multiset.toList, Multiset.coe_toList⟩

structure DateOrder (A : Type) where
  arrange : Sorting → Multiset (Transaction A) → List (Transaction A)
  arrange_eq : ∀ sort rows, (arrange sort rows : Multiset (Transaction A)) = rows
  arrange_ordered : ∀ rows, Paging.Ordered Transaction.day (arrange (.ascending "date") rows)

namespace DateOrder

def repository (order : DateOrder A) (store : Store A) : TransactionRepository A :=
  fun startDate endDate accountId pageable =>
    TransactionRepository.execute
      (order.arrange pageable.sort (TransactionRepository.rows store startDate endDate accountId)) pageable

theorem repository_guarantee (order : DateOrder A) (store : Store A) :
    TransactionRepository.SqlGuarantee store (order.repository store) := by
  intro startDate endDate accountId pageable
  refine ⟨_, Multiset.coe_eq_coe.mp (order.arrange_eq _ _), ?_, rfl⟩
  intro hsort
  rw [hsort]
  exact order.arrange_ordered _

noncomputable def arbitrary : DateOrder A where
  arrange _ rows := rows.toList.insertionSort (fun t u => t.day ≤ u.day)
  arrange_eq _ rows :=
    (Multiset.coe_eq_coe.mpr (List.perm_insertionSort _ _)).trans (Multiset.coe_toList rows)
  arrange_ordered _ := Paging.ordered_insertionSort _

end DateOrder

end EBank
