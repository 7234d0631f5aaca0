import EBank.SampleLoops
import Mathlib.Data.Rat.Floor

namespace EBank.SampleData

open Procedure

variable {K : Type}

def monthTransactions (store : Store K) (a : Account) (month : LocalDate) : List (Transaction K) :=
  store.transactions.filter (fun t => t.account = some a.id ∧ t.InMonth month)

structure ConsistentBank (store : Store K) (nbClient maxMonthlyTransactions : ℤ) : Prop where
  nbClient : (store.customers.length : ℤ) = nbClient
  identityKeys : (store.customers.map Customer.identityKey).Nodup ∧
    ∀ c ∈ store.customers, c.identityKey ≠ none
  accountOwners : ∀ a ∈ store.accounts, ∃ c ∈ store.customers, a.customer = some c.id
  oneOrTwoAccounts : ∀ c ∈ store.customers,
    (AccountRepository.findByCustomerId store c.id).length = 1 ∨
      (AccountRepository.findByCustomerId store c.id).length = 2
  accountNames : (store.accounts.map Account.name).Nodup ∧ ∀ a ∈ store.accounts, a.name ≠ none
  transactionAccounts : ∀ t ∈ store.transactions, ∃ a ∈ store.accounts,
    t.account = some a.id ∧ t.currency = a.currency ∧ a.currency ≠ none
  transactionDates : ∀ t ∈ store.transactions, ∃ d ∈ t.date,
    (d.year = 2018 ∨ d.year = 2019) ∧ 1 ≤ d.day ∧ d.day ≤ 28
  monthlyTransactions : ∀ a ∈ store.accounts, ∀ month : LocalDate, month.year = 2018 ∨ month.year = 2019 →
    (∃ factor, (factor = 8 ∨ factor = 9 ∨ factor = 10) ∧
      ((monthTransactions store a month).length : ℤ) = factor * (maxMonthlyTransactions / 10)) ∧
    ((monthTransactions store a month).length : ℤ) ≤ maxMonthlyTransactions

section Customers
variable {is : List ℤ} {rows : List Customer} (h : Blocks CustomerRow is rows)
include h

theorem customers_length : rows.length = is.length := by
  rw [h.length (n := 1), Nat.mul_one]
  rintro i block ⟨id, familyName, givenName, rfl⟩
  rfl

theorem customers_key {c : Customer} (hc : c ∈ rows) : 0 ≤ c.id ∧ c.identityKey ≠ none := by
  obtain ⟨i, -, block, ⟨id, familyName, givenName, rfl⟩, hc⟩ := h.mem hc
  rw [List.mem_singleton.mp hc]
  exact ⟨Int.natCast_nonneg id, Option.some_ne_none _⟩

theorem customers_identityKeys (his : is.Nodup) (hpos : ∀ i ∈ is, 0 ≤ i) :
    (rows.map Customer.identityKey).Nodup := by
  apply h.nodup_map his
  · rintro i - block ⟨id, familyName, givenName, rfl⟩
    exact List.nodup_singleton _
  · rintro i hi j hj hij block block' ⟨id, familyName, givenName, rfl⟩ ⟨id', familyName', givenName', rfl⟩
    apply List.disjoint_singleton.mpr
    intro hkey
    apply hij
    exact identityKey_inj (hpos i hi) (hpos j hj) (Option.some_inj.mp (List.mem_singleton.mp hkey).symm)

end Customers

section Accounts

theorem customerBlock_length {c : Customer} {block : List Account} (h : CustomerBlock c block) :
    block.length = 1 ∨ block.length = 2 := by
  obtain ⟨nbAccounts, hnb, hrows⟩ := h
  rw [hrows.length (n := 1), length_generate_series]
  · omega
  · rintro nb_account block ⟨id, iban, currency, rfl⟩
    rfl

theorem customerBlock_mem {c : Customer} {block : List Account} (h : CustomerBlock c block) {a : Account}
    (ha : a ∈ block) : a.customer = some c.id ∧ a.currency ≠ none ∧
      ∃ nb_account, 0 ≤ nb_account ∧ a.name = some (accountName c.id nb_account) := by
  obtain ⟨nbAccounts, hnb, hrows⟩ := h
  obtain ⟨nb_account, hmem, block, ⟨id, iban, currency, rfl⟩, ha⟩ := hrows.mem ha
  rw [List.mem_singleton.mp ha]
  have hlow := (mem_generate_series.mp hmem).1
  exact ⟨rfl, Option.some_ne_none _, nb_account, by omega, rfl⟩

theorem customerBlock_names {c : Customer} (hc : 0 ≤ c.id) {block : List Account} (h : CustomerBlock c block) :
    (block.map Account.name).Nodup := by
  obtain ⟨nbAccounts, hnb, hrows⟩ := h
  apply hrows.nodup_map (nodup_generate_series _ _)
  · rintro nb_account - block ⟨id, iban, currency, rfl⟩
    exact List.nodup_singleton _
  · rintro n hn m hm hne block block' ⟨id, iban, currency, rfl⟩ ⟨id', iban', currency', rfl⟩
    apply List.disjoint_singleton.mpr
    intro hname
    apply hne
    have hlow := (mem_generate_series.mp hn).1
    have hlow' := (mem_generate_series.mp hm).1
    exact (accountName_inj hc hc (by omega) (by omega)
      (Option.some_inj.mp (List.mem_singleton.mp hname).symm)).2

variable {cs : List Customer} {rows : List Account} (h : Blocks CustomerBlock cs rows)
include h

theorem accounts_owner {a : Account} (ha : a ∈ rows) :
    (∃ c ∈ cs, a.customer = some c.id) ∧ a.currency ≠ none ∧ a.name ≠ none := by
  obtain ⟨c, hc, block, hblock, ha⟩ := h.mem ha
  obtain ⟨howner, hcurrency, nb_account, -, hname⟩ := customerBlock_mem hblock ha
  exact ⟨⟨c, hc, howner⟩, hcurrency, by rw [hname]; exact Option.some_ne_none _⟩

theorem accounts_of_customer (hids : (cs.map Customer.id).Nodup) {c : Customer} (hc : c ∈ cs) :
    (rows.filter (fun a => a.customer = some c.id)).length = 1 ∨
      (rows.filter (fun a => a.customer = some c.id)).length = 2 := by
  have hblock := h.filter hids Account.customer ?_ hc
  · exact customerBlock_length hblock
  · intro c block hblock a ha
    exact (customerBlock_mem hblock ha).1

theorem accounts_names (hids : (cs.map Customer.id).Nodup) (hpos : ∀ c ∈ cs, 0 ≤ c.id) :
    (rows.map Account.name).Nodup := by
  apply h.nodup_map (hids.of_map _)
  · intro c hc block hblock
    exact customerBlock_names (hpos c hc) hblock
  · intro c hc c' hc' hne block block' hblock hblock' name hname hname'
    obtain ⟨a, ha, rfl⟩ := List.mem_map.mp hname
    obtain ⟨a', ha', he⟩ := List.mem_map.mp hname'
    obtain ⟨-, -, n, hn, hnamea⟩ := customerBlock_mem hblock ha
    obtain ⟨-, -, m, hm, hnamea'⟩ := customerBlock_mem hblock' ha'
    rw [hnamea, hnamea', Option.some_inj] at he
    have hid := (accountName_inj (hpos c' hc') (hpos c hc) hm hn he).1
    exact hne (List.inj_on_of_nodup_map hids hc hc' hid.symm)

end Accounts

section Transactions
variable {maxMonthlyTransactions : ℤ} {f : Account} {y nb_month : ℤ} {block : List (Transaction K)}

theorem transactionRow_mem (h : TransactionRow f y nb_month block) {t : Transaction K} (ht : t ∈ block) :
    t.account = some f.id ∧ t.currency = f.currency ∧
      ∃ d ∈ t.date, d.year = y ∧ d.month = nb_month ∧ d.day ≤ 28 := by
  obtain ⟨id, iban, description, date, amount, rfl, hdate⟩ := h
  rw [List.mem_singleton.mp ht]
  exact ⟨rfl, rfl, date, rfl, hdate⟩

theorem monthBlock_length (hmax : 0 ≤ maxMonthlyTransactions)
    (h : MonthBlock maxMonthlyTransactions f y nb_month block) :
    ∃ factor, (factor = 8 ∨ factor = 9 ∨ factor = 10) ∧
      (block.length : ℤ) = factor * (maxMonthlyTransactions / 10) := by
  obtain ⟨factor, hfactor, hrows⟩ := h
  refine ⟨factor, by omega, ?_⟩
  rw [hrows.length (n := 1), length_generate_series, Int.tdiv_eq_ediv_of_nonneg hmax]
  · have hnonneg : 0 ≤ factor * (maxMonthlyTransactions / 10) := Int.mul_nonneg (by omega) (by omega)
    omega
  · rintro i block ⟨id, iban, description, date, amount, rfl, -⟩
    rfl

theorem monthBlock_mem (h : MonthBlock maxMonthlyTransactions f y nb_month block) {t : Transaction K}
    (ht : t ∈ block) : t.account = some f.id ∧ t.currency = f.currency ∧
      ∃ d ∈ t.date, d.year = y ∧ d.month = nb_month ∧ d.day ≤ 28 := by
  obtain ⟨factor, -, hrows⟩ := h
  obtain ⟨-, -, block, hrow, ht⟩ := hrows.mem ht
  exact transactionRow_mem hrow ht

theorem yearBlock_mem (h : YearBlock maxMonthlyTransactions f y block) {t : Transaction K} (ht : t ∈ block) :
    t.account = some f.id ∧ t.currency = f.currency ∧ ∃ d ∈ t.date, d.year = y ∧ d.day ≤ 28 := by
  obtain ⟨nb_month, -, block, hmonth, ht⟩ := h.mem ht
  obtain ⟨haccount, hcurrency, d, hd, hyear, -, hday⟩ := monthBlock_mem hmonth ht
  exact ⟨haccount, hcurrency, d, hd, hyear, hday⟩

theorem accountBlock_mem (h : AccountBlock maxMonthlyTransactions f block) {t : Transaction K} (ht : t ∈ block) :
    t.account = some f.id ∧ t.currency = f.currency ∧
      ∃ d ∈ t.date, (d.year = 2018 ∨ d.year = 2019) ∧ d.day ≤ 28 := by
  obtain ⟨y, hy, block, hyear, ht⟩ := h.mem ht
  obtain ⟨haccount, hcurrency, d, hd, rfl, hday⟩ := yearBlock_mem hyear ht
  have hrange := mem_generate_series.mp hy
  exact ⟨haccount, hcurrency, d, hd, by omega, hday⟩

theorem nodup_map_id_generate_series (low high : ℤ) : ((generate_series low high).map id).Nodup := by
  rw [List.map_id]
  exact nodup_generate_series low high

theorem yearBlock_month (h : YearBlock maxMonthlyTransactions f y block) {m : ℤ} (hm : 1 ≤ m ∧ m ≤ 12) :
    MonthBlock maxMonthlyTransactions f y m
      (block.filter (fun t => t.date.map (fun d => (d.month : ℤ)) = some m)) := by
  apply h.filter (nodup_map_id_generate_series _ _)
  · intro n block hblock t ht
    obtain ⟨-, -, d, hd, -, hmonth, -⟩ := monthBlock_mem hblock ht
    rw [Option.mem_def.mp hd, Option.map_some, hmonth, id]
  · exact mem_generate_series.mpr hm

theorem accountBlock_year (h : AccountBlock maxMonthlyTransactions f block) {z : ℤ} (hz : z = 2018 ∨ z = 2019) :
    YearBlock maxMonthlyTransactions f z (block.filter (fun t => t.date.map LocalDate.year = some z)) := by
  apply h.filter (nodup_map_id_generate_series _ _)
  · intro n block hblock t ht
    obtain ⟨-, -, d, hd, hyear, -⟩ := yearBlock_mem hblock ht
    rw [Option.mem_def.mp hd, Option.map_some, hyear, id]
  · exact mem_generate_series.mpr (by omega)

theorem transactions_of_account {fs : List Account} {rows : List (Transaction K)}
    (h : Blocks (AccountBlock maxMonthlyTransactions) fs rows) (hids : (fs.map Account.id).Nodup)
    (hf : f ∈ fs) :
    AccountBlock maxMonthlyTransactions f (rows.filter (fun t => t.account = some f.id)) := by
  apply h.filter hids Transaction.account _ hf
  intro f block hblock t ht
  exact (accountBlock_mem hblock ht).1

theorem filter_month (ts : List (Transaction K)) (f : Account) (month : LocalDate) :
    ts.filter (fun t => t.account = some f.id ∧ t.InMonth month) =
      ((ts.filter (fun t => t.account = some f.id)).filter
        (fun t => t.date.map LocalDate.year = some month.year)).filter
          (fun t => t.date.map (fun d => (d.month : ℤ)) = some (month.month : ℤ)) := by
  rw [List.filter_filter, List.filter_filter]
  apply List.filter_congr
  intro t _
  cases hdate : t.date with
  | none => simp [Transaction.InMonth, hdate]
  | some d => simp [Transaction.InMonth, LocalDate.SameMonth, hdate, Bool.and_comm, Bool.and_assoc]

theorem transactions_of_month {fs : List Account} {rows : List (Transaction K)}
    (h : Blocks (AccountBlock maxMonthlyTransactions) fs rows) (hids : (fs.map Account.id).Nodup)
    (hf : f ∈ fs) {month : LocalDate} (hyear : month.year = 2018 ∨ month.year = 2019) :
    MonthBlock maxMonthlyTransactions f month.year month.month
      (rows.filter (fun t => t.account = some f.id ∧ t.InMonth month)) := by
  have hvalid := month.month_valid
  rw [filter_month]
  apply yearBlock_month _ (by omega)
  apply accountBlock_year _ hyear
  exact transactions_of_account h hids hf

end Transactions

structure Generated (store : Store K) (nbClient maxMonthlyTransactions : ℤ) : Prop where
  customers : Blocks CustomerRow (generate_series 1 nbClient) store.customers
  accounts : ∃ cs, cs.Perm store.customers ∧ Blocks CustomerBlock cs store.accounts
  transactions : ∃ fs, fs.Perm store.accounts ∧
    Blocks (AccountBlock maxMonthlyTransactions) fs store.transactions

namespace Generated

variable {store : Store K} {nbClient maxMonthlyTransactions : ℤ}
  (h : Generated store nbClient maxMonthlyTransactions)
include h

theorem nbClient_eq (hn : 0 ≤ nbClient) : (store.customers.length : ℤ) = nbClient := by
  rw [customers_length h.customers, length_generate_series]
  omega

theorem customer_key {c : Customer} (hc : c ∈ store.customers) : 0 ≤ c.id ∧ c.identityKey ≠ none :=
  customers_key h.customers hc

theorem identityKeys_nodup : (store.customers.map Customer.identityKey).Nodup := by
  apply customers_identityKeys h.customers (nodup_generate_series _ _)
  intro i hi
  have hlow := (mem_generate_series.mp hi).1
  omega

theorem account_owner {a : Account} (ha : a ∈ store.accounts) :
    (∃ c ∈ store.customers, a.customer = some c.id) ∧ a.currency ≠ none ∧ a.name ≠ none := by
  obtain ⟨cs, hperm, hrows⟩ := h.accounts
  obtain ⟨⟨c, hc, howner⟩, hfields⟩ := accounts_owner hrows ha
  exact ⟨⟨c, hperm.mem_iff.mp hc, howner⟩, hfields⟩

theorem oneOrTwoAccounts {c : Customer} (hc : c ∈ store.customers) :
    (AccountRepository.findByCustomerId store c.id).length = 1 ∨
      (AccountRepository.findByCustomerId store c.id).length = 2 := by
  obtain ⟨cs, hperm, hrows⟩ := h.accounts
  have hids : (cs.map Customer.id).Nodup := (hperm.map _).nodup_iff.mpr store.customer_pkey
  exact accounts_of_customer hrows hids (hperm.mem_iff.mpr hc)

theorem accountNames_nodup : (store.accounts.map Account.name).Nodup := by
  obtain ⟨cs, hperm, hrows⟩ := h.accounts
  have hids : (cs.map Customer.id).Nodup := (hperm.map _).nodup_iff.mpr store.customer_pkey
  apply accounts_names hrows hids
  intro c hc
  exact (h.customer_key (hperm.mem_iff.mp hc)).1

theorem transaction_owner {t : Transaction K} (ht : t ∈ store.transactions) :
    (∃ a ∈ store.accounts, t.account = some a.id ∧ t.currency = a.currency) ∧
      ∃ d ∈ t.date, (d.year = 2018 ∨ d.year = 2019) ∧ d.day ≤ 28 := by
  obtain ⟨fs, hperm, hrows⟩ := h.transactions
  obtain ⟨a, ha, block, hblock, ht⟩ := hrows.mem ht
  obtain ⟨howner, hcurrency, hdate⟩ := accountBlock_mem hblock ht
  exact ⟨⟨a, hperm.mem_iff.mp ha, howner, hcurrency⟩, hdate⟩

theorem monthly_length (hmax : 0 ≤ maxMonthlyTransactions) {a : Account} (ha : a ∈ store.accounts)
    {month : LocalDate} (hyear : month.year = 2018 ∨ month.year = 2019) :
    ∃ factor, (factor = 8 ∨ factor = 9 ∨ factor = 10) ∧
      ((monthTransactions store a month).length : ℤ) = factor * (maxMonthlyTransactions / 10) := by
  obtain ⟨fs, hperm, hrows⟩ := h.transactions
  have hids : (fs.map Account.id).Nodup := (hperm.map _).nodup_iff.mpr store.account_pkey
  exact monthBlock_length hmax (transactions_of_month hrows hids (hperm.mem_iff.mpr ha) hyear)

theorem consistent (hn : 0 ≤ nbClient) (hmax : 0 ≤ maxMonthlyTransactions) :
    ConsistentBank store nbClient maxMonthlyTransactions where
  nbClient := h.nbClient_eq hn
  identityKeys := ⟨h.identityKeys_nodup, fun _ hc => (h.customer_key hc).2⟩
  accountOwners _ ha := (h.account_owner ha).1
  oneOrTwoAccounts _ hc := h.oneOrTwoAccounts hc
  accountNames := ⟨h.accountNames_nodup, fun _ ha => (h.account_owner ha).2.2⟩
  transactionAccounts t ht := by
    obtain ⟨a, ha, haccount, hcurrency⟩ := (h.transaction_owner ht).1
    exact ⟨a, ha, haccount, hcurrency, (h.account_owner ha).2.1⟩
  transactionDates t ht := by
    obtain ⟨d, hd, hyear, hday⟩ := (h.transaction_owner ht).2
    exact ⟨d, hd, hyear, d.day_valid.1, hday⟩
  monthlyTransactions a ha month hyear := by
    obtain ⟨factor, hfactor, hlength⟩ := h.monthly_length hmax ha hyear
    refine ⟨⟨factor, hfactor, hlength⟩, ?_⟩
    rw [hlength]
    rcases hfactor with rfl | rfl | rfl <;> omega

end Generated

section
variable [Field K] [LinearOrder K] [IsStrictOrderedRing K] [FloorRing K]

theorem generateSampleData_generated (customerOrder : RowOrder Customer) (accountOrder : RowOrder Account)
    (stream : ℕ → Set.Ico (0 : K) 1) (nbClient maxMonthlyTransactions : ℤ) :
    ∃ s, generateSampleData customerOrder accountOrder nbClient maxMonthlyTransactions (Session.fresh stream) =
        .ok () s ∧
      Generated s.store nbClient maxMonthlyTransactions := by
  obtain ⟨s, hrun, -, hadds⟩ :=
    Call.run_adds ⟨customerOrder, accountOrder, nbClient, maxMonthlyTransactions⟩ (serials_fresh stream)
  refine ⟨s, hrun, ?_, ?_, ?_⟩
  · obtain ⟨block, hblock, hcustomers⟩ := hadds.customers
    rw [hcustomers]
    exact hblock
  · obtain ⟨cs, block, hperm, hblock, haccounts⟩ := hadds.accounts
    refine ⟨cs, hperm, ?_⟩
    rw [haccounts]
    exact hblock
  · obtain ⟨fs, block, hperm, hblock, htransactions⟩ := hadds.transactions
    refine ⟨fs, hperm, ?_⟩
    rw [htransactions]
    exact hblock

theorem generateSampleData_consistent (customerOrder : RowOrder Customer) (accountOrder : RowOrder Account)
    (stream : ℕ → Set.Ico (0 : K) 1) {nbClient maxMonthlyTransactions : ℤ} (h : 0 ≤ nbClient)
    (hmax : 0 ≤ maxMonthlyTransactions) :
    ∃ s, generateSampleData customerOrder accountOrder nbClient maxMonthlyTransactions (Session.fresh stream) =
        .ok () s ∧
      ConsistentBank s.store nbClient maxMonthlyTransactions := by
  obtain ⟨s, hrun, hgenerated⟩ :=
    generateSampleData_generated customerOrder accountOrder stream nbClient maxMonthlyTransactions
  exact ⟨s, hrun, hgenerated.consistent h hmax⟩

theorem half_stream_consistent :
    ∃ s, generateSampleData .arbitrary .arbitrary 2 25
        (Session.fresh fun _ => (⟨1 / 2, one_half_pos.le, one_half_lt_one⟩ : Set.Ico (0 : ℚ) 1)) = .ok () s ∧
      ConsistentBank s.store 2 25 :=
  generateSampleData_consistent .arbitrary .arbitrary _ (by omega) (by omega)

end

end EBank.SampleData
