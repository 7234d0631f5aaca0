import EBank.Controllers
import EBank.ScriptedConversion

namespace EBank.AccountController

open ExternalAPIClient JavaInt TransactionRepository TransactionServiceImpl AsyncTransactionService

variable {A : Type}

theorem dated_monthRows (store : Store A) (accountId : Long) (date : LocalDate) :
    Dated (monthRows store accountId date) := by
  intro t ht hnone
  obtain ⟨-, -, e, he, -⟩ := mem_monthRows_iff.mp ht
  rw [hnone] at he
  cases he

theorem byDate_eq {ordered ts : List (Transaction A)} (hp : ordered.Perm ts)
    (ho : Paging.Ordered Transaction.day ordered) (hdates : (ts.map Transaction.day).Nodup) :
    byDate ts = ordered := by
  have hsorted : (byDate ts).Perm ts := List.perm_insertionSort _ ts
  apply Paging.ordered_unique _ (hsorted.trans hp.symm) (Paging.ordered_insertionSort ts) ho
  exact (hsorted.map _).nodup_iff.mpr hdates

variable [Mul A]

theorem toDto_exchangeWith_iff {rates : Option Currency → Option (InlineResponse200 A)}
    (hrates : ∀ c, ∀ r ∈ rates c, r.value ≠ none) {t : Transaction A} (ha : t.amount ≠ none) :
    TransactionMapper.toDto (exchangeWith rates t) = TransactionMapper.toDto t ↔
      t.currency = some getTargetCurrency ∨ rates t.currency = none := by
  by_cases hc : t.currency = some getTargetCurrency
  · simp [exchangeWith, exchange, hc]
  · cases hr : rates t.currency with
    | none => simp [exchangeWith, exchange, hr]
    | some r =>
      obtain ⟨value, hvalue⟩ := Option.ne_none_iff_exists'.mp (hrates t.currency r hr)
      obtain ⟨amount, hamount⟩ := Option.ne_none_iff_exists'.mp ha
      have hexchanged : exchangeWith rates t =
          { t with currency := some getTargetCurrency, amount := some (amount * value) } := by
        rw [exchangeWith, if_pos hc, hr, exchange]
        simp only [hamount, hvalue]
      constructor
      · intro he
        have hcurrency := congrArg (fun dto => dto.value.currency) he
        rw [hexchanged] at hcurrency
        cases hcur : t.currency with
        | none => simp [TransactionMapper.toDto, hcur] at hcurrency
        | some c =>
          simp only [TransactionMapper.toDto, hcur, Option.map_some, Option.some_inj,
            CurrencyDto.mk.injEq] at hcurrency
          rw [Currency.code_injective hcurrency]
          exact .inl rfl
      · rintro (htarget | hnone)
        · exact absurd htarget hc
        · cases hnone

section
variable {store : Store A} {repository : TransactionRepository A}
  {rates : Option Currency → Option (InlineResponse200 A)}
  {accountId : Long} {date : LocalDate} {page size : ℤ}

theorem databasePage (hrepository : SqlGuarantee store repository)
    (hrates : ∀ c, ∀ r ∈ rates c, r.value ≠ none)
    (hamount : ∀ t ∈ monthRows store accountId date, t.amount ≠ none)
    (hdates : ((monthRows store accountId date).map Transaction.day).Nodup)
    (hp : 0 ≤ page) (hs : 1 ≤ size) :
    ∃ found, findForAccountInMonthPaginated repository (ofRates rates) () accountId date page size =
      .ok found ∧
      found.content = (Paging.slice (byDate (monthRows store accountId date)) page.toNat
        size.toNat).map (exchangeWith rates) := by
  obtain ⟨ordered, hperm, hordered, hexec⟩ := hrepository date.firstDay date.lastDay accountId
    ⟨page.toNat, size.toNat, .ascending "date", PageRequest.toNat_pos hs⟩
  rw [byDate_eq hperm (hordered rfl) hdates, find_eq _ _ _ _ _ hp hs, hexec]
  have hcontent :
      (execute ordered ⟨page.toNat, size.toNat, .ascending "date", PageRequest.toNat_pos hs⟩).content =
      Paging.slice ordered page.toNat size.toNat := Page.pageImpl_content _ _ _
  have hraised :
      (mapPage (ofRates rates) (Paging.slice ordered page.toNat size.toNat) (fun _ => none) ()).raised =
      none := by
    apply mapPage_not_raised (ofRates_nullOrRate rates hrates) _ _ _ (by simp)
    intro t ht _
    exact hamount t (hperm.mem_iff.mp ((Paging.slice_sublist _ _ _).mem ht))
  refine ⟨_, convert_of_not_raised (by rw [hcontent, hraised]), ?_⟩
  rw [Page.withContent_content, hcontent, mapPage_ofRates hraised]

end

def withRecords (readMockedTransactions : Bool) (repository : TransactionRepository A)
    (rates : Option Currency → Option (InlineResponse200 A)) (records : List (List (Transaction A))) :
    Sources Unit A :=
  ⟨readMockedTransactions, repository, ofRates rates, (), .ok (records.map some)⟩

def SameContent (on off : Except JavaException (TransactionPageDto A)) : Prop :=
  ∃ dto dto', on = .ok dto ∧ off = .ok dto' ∧ dto.content = dto'.content

omit [Mul A] in
theorem slice_head {l : List (Transaction A)} {page size : ℤ} (hp : 0 ≤ page) (hs : 1 ≤ size) :
    (Paging.slice l page.toNat size.toNat)[0]? = l[(page * size).toNat]? := by
  rw [Paging.slice, List.getElem?_take, if_pos (by omega), List.getElem?_drop, Nat.add_zero,
    Int.toNat_mul hp (by omega)]

section
variable {store : Store A} {repository : TransactionRepository A}
  {rates : Option Currency → Option (InlineResponse200 A)}
  {accountId : Long} {date : LocalDate} {page size : ℤ} {records : List (List (Transaction A))}

omit [Mul A] in
theorem byDate_records (hdates : ((monthRows store accountId date).map Transaction.day).Nodup)
    (hrecords : records.flatten.Perm (monthRows store accountId date)) :
    byDate records.flatten = byDate (monthRows store accountId date) := by
  apply byDate_eq ((List.perm_insertionSort _ _).trans hrecords.symm) (Paging.ordered_insertionSort _)
  exact (hrecords.map _).nodup_iff.mpr hdates

omit [Mul A] in
theorem mem_page_iff (hdates : ((monthRows store accountId date).map Transaction.day).Nodup)
    (hp : 0 ≤ page) (hs : 1 ≤ size) (t : Transaction A) :
    t ∈ Paging.slice (byDate (monthRows store accountId date)) page.toNat size.toNat ↔
      t ∈ monthRows store accountId date ∧
        page * size ≤ Paging.before Transaction.day (monthRows store accountId date) t.day ∧
        Paging.before Transaction.day (monthRows store accountId date) t.day < page * size + size := by
  have hsorted : (byDate (monthRows store accountId date)).Perm
      (monthRows store accountId date) := List.perm_insertionSort _ _
  have hoffset : ((page.toNat * size.toNat : ℕ) : ℤ) = page * size := by
    rw [Nat.cast_mul, Int.toNat_of_nonneg hp, Int.toNat_of_nonneg (by omega)]
  have hsz : (size.toNat : ℤ) = size := Int.toNat_of_nonneg (by omega)
  rw [Paging.mem_slice_iff_before ((hsorted.map _).nodup_iff.mpr hdates) (Paging.ordered_insertionSort _),
    Paging.before_perm hsorted, hsorted.mem_iff]
  apply and_congr_right
  intro _
  generalize page.toNat * size.toNat = offset at *
  generalize page * size = offset' at *
  omega

omit [Mul A] in
theorem fits_of_ids (hdates : ((monthRows store accountId date).map Transaction.day).Nodup)
    (hrecords : records.flatten.Perm (monthRows store accountId date))
    (hp : 0 ≤ page) (hs : 1 ≤ size) (hsize : IsInt size)
    (hlt : page * size < (monthRows store accountId date).length)
    (hids : (getOrEmpty (getPageSortedByDate page size records.flatten)).content.map Transaction.id =
      (Paging.slice (byDate (monthRows store accountId date)) page.toNat size.toNat).map
        Transaction.id) : (page + 1) * size < 2 ^ 31 := by
  have hnonneg : 0 ≤ page * size := Int.mul_nonneg hp (by omega)
  have hlen : (byDate (monthRows store accountId date)).length =
      (monthRows store accountId date).length := List.length_insertionSort _ _
  have hhead := congrArg (fun ids => ids[0]?) hids
  simp only [List.getElem?_map, slice_head hp hs] at hhead
  cases hfound : getPageSortedByDate page size records.flatten with
  | error e =>
    have hin : (page * size).toNat < (byDate (monthRows store accountId date)).length := by omega
    rw [hfound, List.getElem?_eq_getElem hin] at hhead
    simp [getOrEmpty, Page.empty] at hhead
  | ok found =>
    have hdated : Dated records.flatten := fun t ht => dated_monthRows store _ _ t (hrecords.mem_iff.mp ht)
    have hnodup : (records.flatten.map Transaction.id).Nodup := by
      apply (hrecords.map _).nodup_iff.mpr
      exact rows_ids_nodup store _ _ _
    apply fits_of_first hdated hnodup hp hs hsize (by rwa [hrecords.length_eq]) hfound
    rw [byDate_records hdates hrecords, List.getElem?_map, List.getElem?_map, ← hhead, hfound]
    rfl

-- what the two pages of the request hold, once its three checks have passed
theorem sameContent_iff_pages (hrepository : SqlGuarantee store repository)
    (hrates : ∀ c, ∀ r ∈ rates c, r.value ≠ none)
    (hamount : ∀ t ∈ monthRows store accountId date, t.amount ≠ none)
    (hdates : ((monthRows store accountId date).map Transaction.day).Nodup)
    (hp : 0 ≤ page) (hs : 1 ≤ size) {authentication : Authentication} {customerId : Long}
    {dateString : String}
    (hcustomer : (matchingCustomer store authentication.principal customerId).isSome)
    (haccount : (matchingAccount store accountId customerId).isSome)
    (hdate : DateFormatter.parse dateString = .ok date) :
    SameContent
        (getAccountTransactions (withRecords true repository rates records) store (some authentication) customerId
          accountId dateString page size)
        (getAccountTransactions (withRecords false repository rates records) store (some authentication) customerId
          accountId dateString page size) ↔
      (getOrEmpty (getPageSortedByDate page size records.flatten)).content.map TransactionMapper.toDto =
        (Paging.slice (byDate (monthRows store accountId date)) page.toNat size.toNat).map
          (fun t => TransactionMapper.toDto (exchangeWith rates t)) := by
  obtain ⟨customer, hcustomer⟩ := Option.isSome_iff_exists.mp hcustomer
  obtain ⟨account, haccount⟩ := Option.isSome_iff_exists.mp haccount
  obtain ⟨found, hfound, hcontent⟩ := databasePage hrepository hrates hamount hdates hp hs
  have hoff :
    getAccountTransactions (withRecords false repository rates records) store (some authentication) customerId
      accountId dateString page size = .ok (TransactionMapper.toTransactionPageDto found) := by
    rw [getAccountTransactions_eq, hcustomer, haccount, hdate]
    simp only [resultPage, withRecords, Bool.false_eq_true, if_false, hfound]
    rfl
  have hon :
    getAccountTransactions (withRecords true repository rates records) store (some authentication) customerId
      accountId dateString page size = .ok (TransactionMapper.toTransactionPageDto
        (getOrEmpty (getPageSortedByDate page size records.flatten))) := by
    rw [getAccountTransactions_eq, hcustomer, haccount, hdate]
    simp only [resultPage, withRecords, if_true, findInMonthPaginated, received, addAll_values]
    rfl
  rw [hon, hoff]
  have hslice := List.map_map (l := Paging.slice (byDate (monthRows store accountId date)) page.toNat
    size.toNat) (g := TransactionMapper.toDto) (f := exchangeWith rates)
  constructor
  · rintro ⟨dto, dto', hdto, hdto', he⟩
    rw [← Except.ok.inj hdto, ← Except.ok.inj hdto'] at he
    simp only [TransactionMapper.toTransactionPageDto, TransactionMapper.toListDto, hcontent] at he
    rw [he, hslice]
    rfl
  · intro he
    refine ⟨_, _, rfl, rfl, ?_⟩
    simp only [TransactionMapper.toTransactionPageDto, TransactionMapper.toListDto, hcontent]
    rw [he, hslice]
    rfl

/-- The two sources give the same page exactly when its bounds fit an int and no transaction on it
is due for conversion: the records are never converted. -/
theorem getAccountTransactions_sameContent_iff (hrepository : SqlGuarantee store repository)
    (hrates : ∀ c, ∀ r ∈ rates c, r.value ≠ none)
    (hamount : ∀ t ∈ monthRows store accountId date, t.amount ≠ none)
    (hdates : ((monthRows store accountId date).map Transaction.day).Nodup)
    (hrecords : records.flatten.Perm (monthRows store accountId date))
    (hp : 0 ≤ page) (hs : 1 ≤ size) (hsize : IsInt size)
    (hlt : page * size < (monthRows store accountId date).length)
    {authentication : Authentication} {customerId : Long} {dateString : String}
    (hcustomer : (matchingCustomer store authentication.principal customerId).isSome)
    (haccount : (matchingAccount store accountId customerId).isSome)
    (hdate : DateFormatter.parse dateString = .ok date) :
    SameContent
        (getAccountTransactions (withRecords true repository rates records) store (some authentication) customerId
          accountId dateString page size)
        (getAccountTransactions (withRecords false repository rates records) store (some authentication) customerId
          accountId dateString page size) ↔
      (page + 1) * size < 2 ^ 31 ∧
        ∀ t ∈ monthRows store accountId date,
          page * size ≤ Paging.before Transaction.day (monthRows store accountId date) t.day →
          Paging.before Transaction.day (monthRows store accountId date) t.day < page * size + size →
          t.currency = some getTargetCurrency ∨ rates t.currency = none := by
  rw [sameContent_iff_pages hrepository hrates hamount hdates hp hs hcustomer haccount hdate]
  have hdated : Dated records.flatten := fun t ht => dated_monthRows store _ _ t (hrecords.mem_iff.mp ht)
  constructor
  · intro hsame
    have hids := congrArg (List.map TransactionDto.id) hsame
    have hid : TransactionDto.id ∘ TransactionMapper.toDto = (Transaction.id : Transaction A → Long) := rfl
    have hid' : (TransactionDto.id ∘ fun t => TransactionMapper.toDto (exchangeWith rates t)) =
      Transaction.id := by
      funext t
      exact exchange_id t _
    rw [List.map_map, List.map_map, hid, hid'] at hids
    have hfit := fits_of_ids hdates hrecords hp hs hsize hlt hids
    refine ⟨hfit, ?_⟩
    rw [getPageSortedByDate_inRange hp hs hdated (by rw [hrecords.length_eq]; exact hlt.le) hfit,
      byDate_records hdates hrecords] at hsame
    simp only [getOrEmpty, Page.pageImpl_content, List.map_inj_left] at hsame
    intro t ht hlo hhi
    apply (toDto_exchangeWith_iff hrates (hamount t ht)).mp
    apply Eq.symm
    apply hsame
    exact (mem_page_iff hdates hp hs t).mpr ⟨ht, hlo, hhi⟩
  · rintro ⟨hfit, hpage⟩
    rw [getPageSortedByDate_inRange hp hs hdated (by rw [hrecords.length_eq]; exact hlt.le) hfit,
      byDate_records hdates hrecords]
    simp only [getOrEmpty, Page.pageImpl_content, List.map_inj_left]
    intro t ht
    obtain ⟨hrow, hlo, hhi⟩ := (mem_page_iff hdates hp hs t).mp ht
    apply Eq.symm
    apply (toDto_exchangeWith_iff hrates (hamount t hrow)).mpr
    exact hpage t hrow hlo hhi

end

def twoPayments (currency : Currency) : Store ℤ :=
  .ofTransactions (some "key") [.row 1 1 LocalDate.january 10 currency,
    .row 2 1 LocalDate.january.lastDay 20 currency]
    (by simp [Transaction.row]) (by simp [Transaction.row])

def newestFirst (currency : Currency) : List (List (Transaction ℤ)) :=
  (twoPayments currency).transactions.reverse.map (fun t => [t])

def doubled : Option Currency → Option (InlineResponse200 ℤ) := fun _ => some ⟨some 2⟩

theorem pounds_sameContent :
    SameContent
      (getAccountTransactions (withRecords true (inTableOrder (twoPayments .GBP)) doubled (newestFirst .GBP))
        (twoPayments .GBP) (contextOf "key") 1 1 "2019-01" 0 2)
      (getAccountTransactions (withRecords false (inTableOrder (twoPayments .GBP)) doubled (newestFirst .GBP))
        (twoPayments .GBP) (contextOf "key") 1 1 "2019-01" 0 2) := by
  have hdate : DateFormatter.parse "2019-01" = .ok LocalDate.january := by decide
  have hpounds : ∀ t ∈ monthRows (twoPayments .GBP) 1 LocalDate.january,
      t.currency = some getTargetCurrency := by decide
  apply (getAccountTransactions_sameContent_iff (inTableOrder_guarantee _) (by simp [doubled]) (by decide) (by decide)
    (by decide) le_rfl (by decide) (by decide) (by decide) (by decide) (by decide) hdate).mpr
  exact ⟨by decide, fun t ht _ _ => .inl (hpounds t ht)⟩

theorem francs_differ :
    ¬ SameContent
      (getAccountTransactions (withRecords true (inTableOrder (twoPayments .CHF)) doubled (newestFirst .CHF))
        (twoPayments .CHF) (contextOf "key") 1 1 "2019-01" 0 2)
      (getAccountTransactions (withRecords false (inTableOrder (twoPayments .CHF)) doubled (newestFirst .CHF))
        (twoPayments .CHF) (contextOf "key") 1 1 "2019-01" 0 2) := by
  have hdate : DateFormatter.parse "2019-01" = .ok LocalDate.january := by decide
  have hdated : Dated (newestFirst .CHF).flatten := by
    unfold Dated
    decide
  rw [sameContent_iff_pages (inTableOrder_guarantee _) (by simp [doubled]) (by decide) (by decide) le_rfl (by decide)
    (by decide) (by decide) hdate,
      getPageSortedByDate_inRange le_rfl (by decide) hdated (by decide) (by decide)]
  decide

end EBank.AccountController
