import EBank.Decimal
import EBank.Procedure
import EBank.Store
import Mathlib.Algebra.Order.Floor.Ring
import Mathlib.Algebra.Field.Basic

/-!
The procedure that fills the tables with sample data, in exact arithmetic: integers and serials are
unbounded, and `random()` hands out the values of an arbitrary stream in `[0, 1)`.
-/

namespace EBank

variable {A K : Type}

inductive SqlException where
  | uniqueViolation
  | foreignKeyViolation
  | invalidDatetimeFormat
  | datetimeFieldOverflow
  deriving DecidableEq, Repr

namespace Store

theorem pkey_append {α : Type} {key : α → Long} {l : List α} {x : α} (hl : (l.map key).Nodup)
    (hx : key x ∉ l.map key) : ((l ++ [x]).map key).Nodup := by
  rw [List.map_append, List.map_singleton]
  exact List.nodup_append_comm.mp (List.nodup_cons.mpr ⟨hx, hl⟩)

theorem fk_append {α β : Type} {ref : α → Option Long} {key : β → Long} {l : List α} {m : List β} {x : α}
    (hl : ∀ a ∈ l, ∀ i ∈ ref a, i ∈ m.map key) (hx : ∀ i ∈ ref x, i ∈ m.map key) :
    ∀ a ∈ l ++ [x], ∀ i ∈ ref a, i ∈ m.map key := by
  intro a ha
  rcases List.mem_append.mp ha with ha | ha
  · exact hl a ha
  · rw [List.mem_singleton.mp ha]
    exact hx

theorem fk_grow {α β : Type} {ref : α → Option Long} {key : β → Long} {l : List α} {m : List β}
    (hl : ∀ a ∈ l, ∀ i ∈ ref a, i ∈ m.map key) (y : β) :
    ∀ a ∈ l, ∀ i ∈ ref a, i ∈ (m ++ [y]).map key := by
  intro a ha i hi
  rw [List.map_append]
  exact List.mem_append_left _ (hl a ha i hi)

def insertCustomer (store : Store A) (customer : Customer) : Except SqlException (Store A) :=
  if h : customer.id ∈ store.customers.map Customer.id then .error .uniqueViolation
  else .ok { store with
    customers := store.customers ++ [customer]
    customer_pkey := pkey_append store.customer_pkey h
    cust_fk := fk_grow store.cust_fk customer }

def insertAccount (store : Store A) (account : Account) : Except SqlException (Store A) :=
  if h : account.id ∈ store.accounts.map Account.id then .error .uniqueViolation
  else if hfk : ∀ c ∈ account.customer, c ∈ store.customers.map Customer.id then .ok { store with
    accounts := store.accounts ++ [account]
    account_pkey := pkey_append store.account_pkey h
    cust_fk := fk_append store.cust_fk hfk
    account_fk := fk_grow store.account_fk account }
  else .error .foreignKeyViolation

def insertTransaction (store : Store A) (transaction : Transaction A) : Except SqlException (Store A) :=
  if h : transaction.id ∈ store.transactions.map Transaction.id then .error .uniqueViolation
  else if hfk : ∀ a ∈ transaction.account, a ∈ store.accounts.map Account.id then .ok { store with
    transactions := store.transactions ++ [transaction]
    account_transaction_pkey := pkey_append store.account_transaction_pkey h
    account_fk := fk_append store.account_fk hfk }
  else .error .foreignKeyViolation

section
variable (store : Store A)

theorem insertCustomer_ok {c : Customer} (h : c.id ∉ store.customers.map Customer.id) :
    ∃ store', store.insertCustomer c = .ok store' ∧ store'.customers = store.customers ++ [c] ∧
      store'.accounts = store.accounts ∧ store'.transactions = store.transactions :=
  ⟨_, dif_neg h, rfl, rfl, rfl⟩

theorem insertAccount_ok {a : Account} (h : a.id ∉ store.accounts.map Account.id)
    (hfk : ∀ c ∈ a.customer, c ∈ store.customers.map Customer.id) :
    ∃ store', store.insertAccount a = .ok store' ∧ store'.customers = store.customers ∧
      store'.accounts = store.accounts ++ [a] ∧ store'.transactions = store.transactions :=
  ⟨_, (dif_neg h).trans (dif_pos hfk), rfl, rfl, rfl⟩

theorem insertTransaction_ok {t : Transaction A} (h : t.id ∉ store.transactions.map Transaction.id)
    (hfk : ∀ a ∈ t.account, a ∈ store.accounts.map Account.id) :
    ∃ store', store.insertTransaction t = .ok store' ∧ store'.customers = store.customers ∧
      store'.accounts = store.accounts ∧ store'.transactions = store.transactions ++ [t] :=
  ⟨_, (dif_neg h).trans (dif_pos hfk), rfl, rfl, rfl⟩

end

def emptyTables : Store A := ⟨[], [], [], List.nodup_nil, List.nodup_nil, List.nodup_nil,
  List.forall_mem_nil _, List.forall_mem_nil _⟩

end Store

namespace SampleData

open Procedure

structure Tables (A : Type) where
  store : Store A
  customer_id_seq : ℕ
  account_id_seq : ℕ
  account_transaction_id_seq : ℕ

section
variable [Field K] [LinearOrder K]

structure Session (K : Type) [Field K] [LinearOrder K] extends Tables K where
  stream : ℕ → Set.Ico (0 : K) 1
  draws : ℕ

abbrev Sql (K : Type) [Field K] [LinearOrder K] := EStateM SqlException (Session K)

def Session.fresh (stream : ℕ → Set.Ico (0 : K) 1) : Session K :=
  ⟨⟨.emptyTables, 1, 1, 1⟩, stream, 0⟩

def execute (insert : Store K → Except SqlException (Store K)) : Sql K Unit := do
  let s ← get
  match insert s.store with
  | .ok store => set { s with store := store }
  | .error e => throw e

def insertCustomer (givenName familyName identityKey : String) : Sql K Unit := do
  let id ← modifyGet (fun s => (s.customer_id_seq, { s with customer_id_seq := s.customer_id_seq + 1 }))
  execute (fun store => store.insertCustomer ⟨id, some familyName, some givenName, some identityKey⟩)

def insertAccount (customerId : Long) (iban name : String) (currency : Currency) : Sql K Unit := do
  let id ← modifyGet (fun s => (s.account_id_seq, { s with account_id_seq := s.account_id_seq + 1 }))
  execute (fun store => store.insertAccount ⟨id, some customerId, some iban, some name, some currency⟩)

def insertTransaction (accountId : Long) (iban : String) (transactionDate : LocalDate) (amount : K)
    (currency : Option Currency) (description : String) : Sql K Unit := do
  let id ← modifyGet (fun s =>
    (s.account_transaction_id_seq, { s with account_transaction_id_seq := s.account_transaction_id_seq + 1 }))
  execute (fun store => store.insertTransaction
    ⟨id, some accountId, some iban, some transactionDate, some amount, currency, some description⟩)

def random : Sql K K := modifyGet (fun s => (s.stream s.draws, { s with draws := s.draws + 1 }))

def date (text : String) : Except SqlException LocalDate :=
  match (text.toList.splitOn '-').map Decimal.read with
  | [some year, some month, some day] =>
    if h : (1 ≤ month ∧ month ≤ 12) ∧ 1 ≤ day ∧ day ≤ lengthOfMonth year month then
      .ok ⟨year, month, day, h.1, h.2⟩
    else .error .datetimeFieldOverflow
  | _ => .error .invalidDatetimeFormat

def generate_series (low high : ℤ) : List ℤ :=
  (List.range (high - low + 1).toNat).map (fun i : ℕ => low + i)

variable [FloorRing K]

def random_between (low high : ℤ) : Sql K ℤ := do
  let r ← random
  return ⌊r * (high - low + 1) + low⌋

def random_currency : Sql K Currency := do
  let id_currency ← random_between 1 3
  return if id_currency = 1 then .GBP else if id_currency = 2 then .CHF else .EUR

def random_iban : Sql K String := do
  let group₁ ← random_between 1000 9999
  let group₂ ← random_between 1000 9999
  let group₃ ← random_between 1000 9999
  let group₄ ← random_between 1000 9999
  let last ← random_between 1 9
  return "CH93-" ++ toString group₁ ++ "-" ++ toString group₂ ++ "-" ++ toString group₃ ++ "-" ++
    toString group₄ ++ "-" ++ toString last

def identityKey (i : ℤ) : String := "P-0" ++ toString i

def accountName (id nb_account : ℤ) : String :=
  "JDoe_0" ++ toString id ++ "_account_0" ++ toString nb_account

def populateCustomers (nbClient : ℤ) : Sql K Unit :=
  (generate_series 1 nbClient).forM fun i =>
    insertCustomer ("John_0" ++ toString i) ("cust_Doe_0" ++ toString i) (identityKey i)

def populateAccount (customerId nb_account : ℤ) : Sql K Unit := do
  let iban ← random_iban
  let currency ← random_currency
  insertAccount customerId iban (accountName customerId nb_account) currency

def populateAccounts (customerOrder : RowOrder Customer) : Sql K Unit := do
  let s ← get
  (customerOrder.arrange s.store.customers).forM fun f => do
    let nbAccounts ← random_between 1 2
    (generate_series 1 nbAccounts).forM fun nb_account => populateAccount f.id nb_account

def populateTransaction (f : Account) (y nb_month : ℤ) : Sql K Unit := do
  let day ← random_between 1 28
  match date (toString y ++ "-" ++ toString nb_month ++ "-" ++ toString day) with
  | .error e => throw e
  | .ok dateTransaction => do
    let iban ← random_iban
    let r ← random
    insertTransaction f.id iban dateTransaction (r * 1000 + 1) f.currency
      ("payment " ++ (f.currency.map Currency.code).getD "")

def populateMonth (maxMonthlyTransactions : ℤ) (f : Account) (y nb_month : ℤ) : Sql K Unit := do
  let factor ← random_between 8 10
  let nbTransaction := factor * maxMonthlyTransactions.tdiv 10
  (generate_series 1 nbTransaction).forM fun _ => populateTransaction f y nb_month

def populateTransactions (accountOrder : RowOrder Account) (maxMonthlyTransactions : ℤ) : Sql K Unit := do
  let s ← get
  (accountOrder.arrange s.store.accounts).forM fun f =>
    (generate_series 2018 2019).forM fun y =>
      (generate_series 1 12).forM fun nb_month => populateMonth maxMonthlyTransactions f y nb_month

def generateSampleData (customerOrder : RowOrder Customer) (accountOrder : RowOrder Account)
    (nbClient maxMonthlyTransactions : ℤ) : Sql K Unit := do
  populateCustomers nbClient
  populateAccounts customerOrder
  populateTransactions accountOrder maxMonthlyTransactions

end

theorem execute_of_ok [Field K] [LinearOrder K] {insert : Store K → Except SqlException (Store K)}
    {s : Session K} {store : Store K} (h : insert s.store = .ok store) :
    execute insert s = .ok () { s with store := store } := by
  have hget : (get : Sql K (Session K)) s = .ok s s := rfl
  rw [execute, bind_of_ok hget, h]
  rfl

section
variable [Field K] [LinearOrder K] {s : Session K} {store : Store K}

theorem insertCustomer_of_ok {givenName familyName identityKey : String}
    (h : s.store.insertCustomer ⟨s.customer_id_seq, some familyName, some givenName, some identityKey⟩ =
      .ok store) :
    insertCustomer givenName familyName identityKey s =
      .ok () { s with store := store, customer_id_seq := s.customer_id_seq + 1 } := by
  change execute (fun store => store.insertCustomer _) { s with customer_id_seq := s.customer_id_seq + 1 } = _
  exact execute_of_ok h

theorem insertAccount_of_ok {customerId : Long} {iban name : String} {currency : Currency}
    (h : s.store.insertAccount ⟨s.account_id_seq, some customerId, some iban, some name, some currency⟩ =
      .ok store) :
    insertAccount customerId iban name currency s =
      .ok () { s with store := store, account_id_seq := s.account_id_seq + 1 } := by
  change execute (fun store => store.insertAccount _) { s with account_id_seq := s.account_id_seq + 1 } = _
  exact execute_of_ok h

theorem insertTransaction_of_ok {accountId : Long} {iban description : String} {transactionDate : LocalDate}
    {amount : K} {currency : Option Currency}
    (h : s.store.insertTransaction ⟨s.account_transaction_id_seq, some accountId, some iban,
      some transactionDate, some amount, currency, some description⟩ = .ok store) :
    insertTransaction accountId iban transactionDate amount currency description s =
      .ok () { s with
        store := store, account_transaction_id_seq := s.account_transaction_id_seq + 1 } := by
  change execute (fun store => store.insertTransaction _)
    { s with account_transaction_id_seq := s.account_transaction_id_seq + 1 } = _
  exact execute_of_ok h

end

theorem mem_generate_series {low high i : ℤ} : i ∈ generate_series low high ↔ low ≤ i ∧ i ≤ high := by
  simp only [generate_series, List.mem_map, List.mem_range]
  constructor
  · rintro ⟨k, hk, rfl⟩
    omega
  · rintro ⟨hlow, hhigh⟩
    exact ⟨(i - low).toNat, by omega, by omega⟩

theorem nodup_generate_series (low high : ℤ) : (generate_series low high).Nodup := by
  apply List.Nodup.map _ List.nodup_range
  intro i j h
  simpa using h

theorem length_generate_series (low high : ℤ) : (generate_series low high).length = (high - low + 1).toNat := by
  simp [generate_series]

theorem toList_text {y m d : ℕ} :
    (toString (y : ℤ) ++ "-" ++ toString (m : ℤ) ++ "-" ++ toString (d : ℤ)).toList =
      ['-'].intercalate [Nat.toDigits 10 y, Nat.toDigits 10 m, Nat.toDigits 10 d] := by
  simp only [String.toList_append, Decimal.toList_toString]
  simp [List.intercalate]

theorem date_text {y m d : ℕ} (h : (1 ≤ m ∧ m ≤ 12) ∧ 1 ≤ d ∧ d ≤ lengthOfMonth y m) :
    date (toString (y : ℤ) ++ "-" ++ toString (m : ℤ) ++ "-" ++ toString (d : ℤ)) =
      .ok ⟨y, m, d, h.1, h.2⟩ := by
  have hfields : ∀ l ∈ [Nat.toDigits 10 y, Nat.toDigits 10 m, Nat.toDigits 10 d], '-' ∉ l := by
    simp only [List.forall_mem_cons]
    exact ⟨Decimal.separator_notMem (by decide) y, Decimal.separator_notMem (by decide) m,
      Decimal.separator_notMem (by decide) d, List.forall_mem_nil _⟩
  rw [date, toList_text, List.splitOn_intercalate '-' hfields (List.cons_ne_nil _ _)]
  simp only [List.map_cons, List.map_nil, Decimal.read_toDigits]
  exact dif_pos h

theorem identityKey_inj {i j : ℤ} (hi : 0 ≤ i) (hj : 0 ≤ j) (h : identityKey i = identityKey j) : i = j := by
  obtain ⟨m, rfl⟩ := Int.eq_ofNat_of_zero_le hi
  obtain ⟨n, rfl⟩ := Int.eq_ofNat_of_zero_le hj
  have hlist := congrArg String.toList h
  simp only [identityKey, String.toList_append, Decimal.toList_toString] at hlist
  rw [Decimal.append_toDigits_inj hlist]

theorem accountName_inj {i j n m : ℤ} (hi : 0 ≤ i) (hj : 0 ≤ j) (hn : 0 ≤ n) (hm : 0 ≤ m)
    (h : accountName i n = accountName j m) : i = j ∧ n = m := by
  obtain ⟨i, rfl⟩ := Int.eq_ofNat_of_zero_le hi
  obtain ⟨j, rfl⟩ := Int.eq_ofNat_of_zero_le hj
  obtain ⟨n, rfl⟩ := Int.eq_ofNat_of_zero_le hn
  obtain ⟨m, rfl⟩ := Int.eq_ofNat_of_zero_le hm
  have hlist := congrArg String.toList h
  simp only [accountName, String.toList_append, Decimal.toList_toString, List.append_assoc] at hlist
  have hseparator : "_account_0".toList = '_' :: "account_0".toList := by decide
  rw [hseparator] at hlist
  obtain ⟨rfl, hrest⟩ := Decimal.toDigits_append_inj (by decide) (List.append_cancel_left hlist)
  rw [Decimal.append_toDigits_inj hrest]
  exact ⟨rfl, rfl⟩

end SampleData

end EBank
