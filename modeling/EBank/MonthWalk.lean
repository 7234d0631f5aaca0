import EBank.ScriptedConversion
import Mathlib.Data.List.Perm.Subperm

namespace EBank.TransactionServiceImpl

open ExternalAPIClient TransactionRepository

variable {σ A : Type}

def FetchesOnce (rows : List (Transaction A))
    (fetch : ℕ → Except JavaException (Page (Transaction A))) : Prop :=
  ∃ first, fetch 0 = .ok first ∧ ∃ pages : ℕ → Page (Transaction A),
    (∀ p < first.getTotalPages, fetch p = .ok (pages p)) ∧
      (((List.range first.getTotalPages).flatMap (fun p => (pages p).content)).map Transaction.id).Perm
        (rows.map Transaction.id)

def ReturnedOnce (rows : List (Transaction A))
    (fetch : ℕ → Except JavaException (Page (Transaction A))) : Prop :=
  ∀ first, fetch 0 = .ok first → ∀ pages : ℕ → Page (Transaction A),
    (∀ p < first.getTotalPages, fetch p = .ok (pages p)) →
      (((List.range first.getTotalPages).flatMap (fun p => (pages p).content)).map Transaction.id).Perm
        (rows.map Transaction.id)

theorem FetchesOnce.returnedOnce {rows : List (Transaction A)}
    {fetch : ℕ → Except JavaException (Page (Transaction A))} (h : FetchesOnce rows fetch) :
    ReturnedOnce rows fetch := by
  obtain ⟨first, hfirst, pages, hpages, hids⟩ := h
  intro first' hfirst' pages' hpages'
  have hsame : first = first' := Except.ok.inj (hfirst.symm.trans hfirst')
  subst hsame
  have hcontent : (List.range first.getTotalPages).flatMap (fun p => (pages' p).content) =
      (List.range first.getTotalPages).flatMap (fun p => (pages p).content) := by
    apply List.flatMap_congr
    intro p hp
    have hlt := List.mem_range.mp hp
    rw [Except.ok.inj ((hpages' p hlt).symm.trans (hpages p hlt))]
  rwa [hcontent]

section
variable (store : Store A) (accountId : Long) (date : LocalDate)

def rearranged (l : List (Transaction A)) : TransactionRepository A :=
  fun startDate endDate account pageable =>
    if startDate = date.firstDay ∧ endDate = date.lastDay ∧ account = accountId then execute l pageable
    else inTableOrder store startDate endDate account pageable

theorem rearranged_guarantee {l : List (Transaction A)}
    (hp : l.Perm (monthRows store accountId date)) (ho : Paging.Ordered Transaction.day l) :
    SqlGuarantee store (rearranged store accountId date l) := by
  intro startDate endDate account pageable
  by_cases h : startDate = date.firstDay ∧ endDate = date.lastDay ∧ account = accountId
  · obtain ⟨rfl, rfl, rfl⟩ := h
    exact ⟨l, hp, fun _ => ho, if_pos ⟨rfl, rfl, rfl⟩⟩
  · rw [rearranged, if_neg h]
    exact inTableOrder_guarantee store startDate endDate account pageable

end

theorem ids_flatMap_slices {ordered : ℕ → List (Transaction A)}
    {pages : ℕ → Page (Transaction A)} {size n : ℕ}
    (h : ∀ p < n,
      (pages p).content.map Transaction.id = (Paging.slice (ordered p) p size).map Transaction.id) :
    ((List.range n).flatMap (fun p => (pages p).content)).map Transaction.id =
      ((List.range n).flatMap (fun p => Paging.slice (ordered p) p size)).map Transaction.id := by
  simp only [List.map_flatMap]
  apply List.flatMap_congr
  intro p hp
  exact h p (List.mem_range.mp hp)

theorem perm_of_ids {l rows : List (Transaction A)} (hn : (rows.map Transaction.id).Nodup)
    (hsub : ∀ t ∈ l, t ∈ rows) (h : (l.map Transaction.id).Perm (rows.map Transaction.id)) : l.Perm rows := by
  have hl : l.Nodup := (h.nodup_iff.mpr hn).of_map _
  apply (hl.subperm hsub).perm_of_length_le
  simpa using h.length_eq.ge

def WalkFetchesOnce [Mul A] (store : Store A) (accountId : Long) (date : LocalDate) (size : ℕ) : Prop :=
  ∀ (σ : Type) (repositories : ℕ → TransactionRepository A) (clients : ℕ → ExternalAPIClient σ A)
    (states : ℕ → σ),
    (∀ p, SqlGuarantee store (repositories p)) → (∀ p, (clients p).NullOrRate) →
    FetchesOnce (monthRows store accountId date)
      (fun p => findForAccountInMonthPaginated (repositories p) (clients p) (states p) accountId date p size)

def WalkReturnsOnce [Mul A] (store : Store A) (accountId : Long) (date : LocalDate) (size : ℕ) : Prop :=
  ∀ (σ : Type) (repositories : ℕ → TransactionRepository A) (clients : ℕ → ExternalAPIClient σ A)
    (states : ℕ → σ),
    (∀ p, SqlGuarantee store (repositories p)) →
    ReturnedOnce (monthRows store accountId date)
      (fun p => findForAccountInMonthPaginated (repositories p) (clients p) (states p) accountId date p size)

section
variable [Mul A] {repository : TransactionRepository A} {client : ExternalAPIClient σ A} {accountId : Long}
  {date : LocalDate} {size : ℕ} {hs : 0 < size} {p : ℕ} {ordered : List (Transaction A)}

theorem find_execute (s : σ)
    (h : repository date.firstDay date.lastDay accountId ⟨p, size, .ascending "date", hs⟩ =
      execute ordered ⟨p, size, .ascending "date", hs⟩) :
    findForAccountInMonthPaginated repository client s accountId date p size =
      convert client s (execute ordered ⟨p, size, .ascending "date", hs⟩) := by
  rw [find_eq repository client s accountId date (Int.natCast_nonneg p) (by omega)]
  simp only [Int.toNat_natCast]
  rw [h]

theorem find_ids {s : σ}
    (h : repository date.firstDay date.lastDay accountId ⟨p, size, .ascending "date", hs⟩ =
      execute ordered ⟨p, size, .ascending "date", hs⟩) {result : Page (Transaction A)}
    (hok : findForAccountInMonthPaginated repository client s accountId date p size = .ok result) :
    result.content.map Transaction.id = (Paging.slice ordered p size).map Transaction.id := by
  rw [find_execute s h] at hok
  obtain ⟨-, rfl⟩ := convert_ok hok
  rw [Page.withContent_content, mapPage_ids, execute, Page.pageImpl_content]

theorem find_totalPages {s : σ}
    (h : repository date.firstDay date.lastDay accountId ⟨p, size, .ascending "date", hs⟩ =
      execute ordered ⟨p, size, .ascending "date", hs⟩) {result : Page (Transaction A)}
    (hok : findForAccountInMonthPaginated repository client s accountId date p size = .ok result) :
    result.getTotalPages = Paging.pageCount ordered.length size := by
  rw [find_execute s h] at hok
  obtain ⟨-, rfl⟩ := convert_ok hok
  rw [Page.withContent_total (execute ordered ⟨p, size, .ascending "date", hs⟩) _
    (mapPage_length client _ (fun _ => none) s) ordered ⟨p, size, .ascending "date", hs⟩ rfl]
  rw [Page.getTotalPages, Page.getSize]
  exact if_neg hs.ne'

theorem find_executed {s : σ}
    (h : repository date.firstDay date.lastDay accountId ⟨p, size, .ascending "date", hs⟩ =
      execute ordered ⟨p, size, .ascending "date", hs⟩)
    (hraised : (mapPage client (Paging.slice ordered p size) (fun _ => none) s).raised = none) :
    ∃ result, findForAccountInMonthPaginated repository client s accountId date p size = .ok result := by
  rw [find_execute s h]
  refine ⟨_, convert_of_not_raised ?_⟩
  rw [execute, Page.pageImpl_content]
  exact hraised

end

section
variable [Mul A]

theorem mapPage_null_not_raised (ts : List (Transaction A)) :
    (mapPage (ofRates fun _ => none) ts (fun _ => none) ()).raised = none := by
  induction ts with
  | nil => rfl
  | cons t ts ih =>
    have hmap : mapTransaction (ofRates fun _ => none) t (fun _ => none) () =
        ((t, none), fun _ => none, ()) := by
      unfold mapTransaction
      split_ifs <;> rfl
    rw [mapPage_cons_of_done _ hmap]
    exact ih

section
variable {store : Store A} {accountId : Long} {date : LocalDate} {size : ℕ} (hs : 0 < size)
include hs

theorem returnedOnce_of_unsplit
    (hties : ∀ p, ¬ Paging.SplitsTie Transaction.day (monthRows store accountId date) (p * size))
    {repositories : ℕ → TransactionRepository A} (clients : ℕ → ExternalAPIClient σ A) (states : ℕ → σ)
    (hrepositories : ∀ p, SqlGuarantee store (repositories p)) :
    ReturnedOnce (monthRows store accountId date)
      (fun p => findForAccountInMonthPaginated (repositories p) (clients p) (states p) accountId date p size) := by
  choose ordered hperm hordered hexec using
    fun p : ℕ => hrepositories p date.firstDay date.lastDay accountId ⟨p, size, .ascending "date", hs⟩
  intro first hfirst pages hpages
  have htotal : first.getTotalPages =
      Paging.pageCount (monthRows store accountId date).length size := by
    rw [find_totalPages (hexec 0) hfirst, (hperm 0).length_eq]
  rw [htotal] at hpages ⊢
  rw [ids_flatMap_slices (fun p hp => find_ids (hexec p) (hpages p hp))]
  apply List.Perm.map
  have hnodup := (rows_ids_nodup store date.firstDay date.lastDay accountId).of_map
  apply (Paging.walk_perm_iff hnodup hs).mpr hties ordered hperm
  intro p
  exact hordered p rfl

theorem fetchesOnce_of_unsplit
    (hamount : ∀ t ∈ monthRows store accountId date,
      t.currency ≠ some getTargetCurrency → t.amount ≠ none)
    (hties : ∀ p, ¬ Paging.SplitsTie Transaction.day (monthRows store accountId date) (p * size))
    {repositories : ℕ → TransactionRepository A} {clients : ℕ → ExternalAPIClient σ A} (states : ℕ → σ)
    (hrepositories : ∀ p, SqlGuarantee store (repositories p)) (hclients : ∀ p, (clients p).NullOrRate) :
    FetchesOnce (monthRows store accountId date)
      (fun p => findForAccountInMonthPaginated (repositories p) (clients p) (states p) accountId date p size) := by
  choose ordered hperm _ hexec using
    fun p : ℕ => hrepositories p date.firstDay date.lastDay accountId ⟨p, size, .ascending "date", hs⟩
  have hdone : ∀ p,
      (mapPage (clients p) (Paging.slice (ordered p) p size) (fun _ => none) (states p)).raised = none := by
    intro p
    apply mapPage_not_raised (hclients p) _ _ _ (by simp)
    intro t ht
    exact hamount t ((hperm p).mem_iff.mp ((Paging.slice_sublist (ordered p) p size).mem ht))
  choose pages hpages using fun p => find_executed (hexec p) (hdone p)
  refine ⟨pages 0, hpages 0, pages, fun p _ => hpages p, ?_⟩
  apply returnedOnce_of_unsplit hs hties clients states hrepositories (pages 0) (hpages 0)
  intro p _
  exact hpages p

theorem unsplit_of_returnedOnce
    (hwalk : ∀ arrangement : ℕ → List (Transaction A),
      (∀ p, SqlGuarantee store (rearranged store accountId date (arrangement p))) →
      ReturnedOnce (monthRows store accountId date) (fun p => findForAccountInMonthPaginated
        (rearranged store accountId date (arrangement p)) (ofRates fun _ => none) () accountId date p size))
    (p : ℕ) : ¬ Paging.SplitsTie Transaction.day (monthRows store accountId date) (p * size) := by
  have hids := rows_ids_nodup store date.firstDay date.lastDay accountId
  revert p
  apply (Paging.walk_perm_iff hids.of_map hs).mp
  intro arrangement hperm hordered
  have hexec : ∀ p pageable,
      rearranged store accountId date (arrangement p) date.firstDay date.lastDay accountId pageable =
        execute (arrangement p) pageable := fun p pageable => if_pos ⟨rfl, rfl, rfl⟩
  choose pages hpages using fun p =>
    find_executed (hexec p ⟨p, size, .ascending "date", hs⟩) (mapPage_null_not_raised _)
  have hwalked := hwalk arrangement
    (fun p => rearranged_guarantee store accountId date (hperm p) (hordered p))
    (pages 0) (hpages 0) pages (fun p _ => hpages p)
  rw [find_totalPages (hexec 0 ⟨0, size, .ascending "date", hs⟩) (hpages 0), (hperm 0).length_eq,
    ids_flatMap_slices
      (fun p _ => find_ids (hexec p ⟨p, size, .ascending "date", hs⟩) (hpages p))] at hwalked
  apply perm_of_ids hids _ hwalked
  intro t ht
  obtain ⟨p, -, htp⟩ := List.mem_flatMap.mp ht
  exact (hperm p).mem_iff.mp ((Paging.slice_sublist _ _ _).mem htp)

end

theorem find_raises [Inhabited A] {repository : TransactionRepository A} {accountId : Long} {date : LocalDate}
    {size p : ℕ} (hs : 0 < size) {ordered : List (Transaction A)}
    (h : repository date.firstDay date.lastDay accountId ⟨p, size, .ascending "date", hs⟩ =
      execute ordered ⟨p, size, .ascending "date", hs⟩)
    {t : Transaction A} (ht : t ∈ Paging.slice ordered p size) (hc : t.currency ≠ some getTargetCurrency)
    (ha : t.amount = none) (result : Page (Transaction A)) :
    findForAccountInMonthPaginated repository (ofRates fun _ => some ⟨some default⟩) () accountId date p size ≠
      .ok result := by
  intro hok
  rw [find_eq _ _ _ _ _ (Int.natCast_nonneg p) (by omega)] at hok
  simp only [Int.toNat_natCast] at hok
  rw [h] at hok
  have hraised := (convert_ok hok).1
  rw [execute, Page.pageImpl_content, (mapPage_start (ofRates_plays _) trivial _).2] at hraised
  apply (exchangeAll_raised_iff _).mpr _ hraised
  obtain ⟨i, hi, rfl⟩ := List.mem_iff_getElem.mp ht
  refine ⟨_, List.mem_of_getElem? (getElem?_withRates _ [] _ i hi), ?_⟩
  apply (exchange_raised_iff _ _).mpr
  rw [rateFor, if_pos hc, Memo.firstReply_const]
  exact ⟨_, rfl, .inl ha⟩

theorem walk_amounts [Inhabited A] {store : Store A} {accountId : Long} {date : LocalDate} {size : ℕ}
    (hs : 0 < size) (hwalk : WalkFetchesOnce store accountId date size) {t : Transaction A}
    (ht : t ∈ monthRows store accountId date) (hc : t.currency ≠ some getTargetCurrency) :
    t.amount ≠ none := by
  intro ha
  let sorted := (monthRows store accountId date).insertionSort (fun t u => t.day ≤ u.day)
  have hperm : sorted.Perm (monthRows store accountId date) := List.perm_insertionSort _ _
  have hrate : (ofRates (A := A) fun _ => some ⟨some default⟩).NullOrRate := ofRates_nullOrRate _ (by simp)
  obtain ⟨first, hfirst, pages, hpages, hids⟩ := hwalk Unit (fun _ => rearranged store accountId date sorted)
    (fun _ => ofRates fun _ => some ⟨some default⟩) (fun _ => ())
    (fun _ => rearranged_guarantee store accountId date hperm (Paging.ordered_insertionSort _)) (fun _ => hrate)
  -- the page that holds the transaction is one of those the walk asks for, and it raises
  obtain ⟨u, hu, hid⟩ := List.mem_map.mp (hids.mem_iff.mpr (List.mem_map_of_mem ht))
  obtain ⟨p, hp, hup⟩ := List.mem_flatMap.mp hu
  have hok := hpages p (List.mem_range.mp hp)
  have hexec : rearranged store accountId date sorted date.firstDay date.lastDay accountId
      ⟨p, size, .ascending "date", hs⟩ = execute sorted ⟨p, size, .ascending "date", hs⟩ :=
    if_pos ⟨rfl, rfl, rfl⟩
  have hid' : t.id ∈ (Paging.slice sorted p size).map Transaction.id := by
    rw [← find_ids hexec hok, ← hid]
    exact List.mem_map_of_mem hup
  obtain ⟨t', ht', he⟩ := List.mem_map.mp hid'
  have hmem := hperm.mem_iff.mp ((Paging.slice_sublist sorted p size).mem ht')
  have hsame := List.inj_on_of_nodup_map (rows_ids_nodup store date.firstDay date.lastDay accountId) hmem ht he
  exact find_raises hs hexec (hsame ▸ ht') hc ha (pages p) hok

/-- Walking a month fetches every transaction once, for every permitted run of the queries and every
client, exactly when no day's transactions straddle a page boundary and no transaction due for
conversion lacks its amount. Of the pages that are returned the first of these says it all. -/
theorem monthWalk_fetchesOnce_iff [Inhabited A] (store : Store A) (accountId : Long)
    (date : LocalDate) {size : ℕ} (hs : 0 < size) :
    (WalkFetchesOnce store accountId date size ↔
      (∀ t ∈ monthRows store accountId date,
        t.currency ≠ some getTargetCurrency → t.amount ≠ none) ∧
      ∀ p, ¬ Paging.SplitsTie Transaction.day (monthRows store accountId date) (p * size)) ∧
    (WalkReturnsOnce store accountId date size ↔
      ∀ p, ¬ Paging.SplitsTie Transaction.day (monthRows store accountId date) (p * size)) := by
  constructor
  · constructor
    · intro hwalk
      refine ⟨fun t ht hc => walk_amounts hs hwalk ht hc, ?_⟩
      apply unsplit_of_returnedOnce hs
      intro arrangement hguarantee
      apply FetchesOnce.returnedOnce
      exact hwalk Unit _ _ (fun _ => ()) hguarantee (fun _ => ofRates_nullOrRate _ (by simp))
    · rintro ⟨hamount, hties⟩ σ repositories clients states hrepositories hclients
      exact fetchesOnce_of_unsplit hs hamount hties states hrepositories hclients
  · constructor
    · intro hwalk
      apply unsplit_of_returnedOnce hs
      intro arrangement hguarantee
      exact hwalk Unit _ (fun _ => ofRates fun _ => none) (fun _ => ()) hguarantee
    · intro hties σ repositories clients states hrepositories
      exact returnedOnce_of_unsplit hs hties clients states hrepositories

end

def payments : Store ℤ :=
  .ofTransactions none [.row 1 1 LocalDate.january 10 .GBP, .row 2 1 LocalDate.january 20 .GBP]
    (by decide) (by decide)

theorem payments_onePage : WalkFetchesOnce payments 1 LocalDate.january 2 ∧
    WalkReturnsOnce payments 1 LocalDate.january 2 := by
  obtain ⟨hfetches, hreturns⟩ := monthWalk_fetchesOnce_iff payments 1 LocalDate.january Nat.two_pos
  have hties : ∀ p, ¬ Paging.SplitsTie Transaction.day (monthRows payments 1 LocalDate.january) (p * 2) := by
    rintro p ⟨k, hlo, hhi⟩
    have htwo : (monthRows payments 1 LocalDate.january).length = 2 := by decide
    have hlen := hhi.trans_le List.countP_le_length
    omega
  exact ⟨hfetches.mpr ⟨by decide, hties⟩, hreturns.mpr hties⟩

theorem payments_repeated :
    ∃ repositories : ℕ → TransactionRepository ℤ, (∀ p, SqlGuarantee payments (repositories p)) ∧
      ¬ FetchesOnce (monthRows payments 1 LocalDate.january) (fun p =>
        findForAccountInMonthPaginated (repositories p) (ofRates fun _ => none) () 1 LocalDate.january p 1) := by
  let arrangement (p : ℕ) : List (Transaction ℤ) :=
    if p = 0 then payments.transactions else payments.transactions.reverse
  have hexec (p : ℕ) : rearranged payments 1 LocalDate.january (arrangement p) LocalDate.january.firstDay
      LocalDate.january.lastDay 1 ⟨p, 1, .ascending "date", Nat.one_pos⟩ =
      execute (arrangement p) ⟨p, 1, .ascending "date", Nat.one_pos⟩ := if_pos ⟨rfl, rfl, rfl⟩
  refine ⟨fun p => rearranged payments 1 LocalDate.january (arrangement p), ?_, ?_⟩
  · intro p
    apply rearranged_guarantee
    · by_cases hp : p = 0 <;> simp only [arrangement, hp, if_true, if_false] <;> decide
    · unfold Paging.Ordered
      by_cases hp : p = 0 <;> simp only [arrangement, hp, if_true, if_false] <;> decide
  · rintro ⟨first, hfirst, pages, hpages, hids⟩
    have htwo : first.getTotalPages = 2 := by
      rw [find_totalPages (hexec 0) hfirst]
      decide
    rw [htwo] at hpages hids
    rw [ids_flatMap_slices (fun p hp => find_ids (hexec p) (hpages p hp))] at hids
    exact absurd hids (by decide)

end EBank.TransactionServiceImpl
