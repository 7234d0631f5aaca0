import EBank.AsyncTransactionService
import EBank.Mappers

namespace EBank.AsyncTransactionService

open JavaInt

variable {A α : Type}

structure Truthful (page : Page (Transaction A)) (n : ℕ) (number size : ℤ) : Prop where
  getNumber : page.getNumber = number
  getSize : page.getSize = size
  getTotalElements : page.getTotalElements = n
  getTotalPages : page.getTotalPages = Paging.pageCount n size.toNat
  toDto : (TransactionMapper.toTransactionPageDto page).page =
    ⟨size.toNat, n, Paging.pageCount n size.toNat, number.toNat⟩

theorem pageImpl_truthful_iff (content : List (Transaction A)) (pageable : PageRequest) (total n : ℕ) :
    Truthful (Page.pageImpl content pageable total) n pageable.page pageable.size ↔
      (Page.pageImpl content pageable total).total = n := by
  constructor
  · intro h
    exact h.getTotalElements
  · intro h
    have hpages :
        (Page.pageImpl content pageable total).getTotalPages = Paging.pageCount n pageable.size := by
      rw [Page.pageImpl_getTotalPages, h]
    exact ⟨by simp, by simp, h, by simpa using hpages,
      by simp [TransactionMapper.toTransactionPageDto, PageMapper.toDto, hpages, Page.getTotalElements, h]⟩

-- a client that trusts the reported page number and number of pages
inductive Walk (fetch : ℤ → Except JavaException (Page (Transaction A))) : ℤ → List (Transaction A) → Prop
  | stop {number : ℤ} {page : Page (Transaction A)} (fetched : fetch number = .ok page)
      (last : ¬ (PageMapper.toDto page).number + 1 < (PageMapper.toDto page).totalPages) :
      Walk fetch number page.content
  | next {number : ℤ} {page : Page (Transaction A)} {rest : List (Transaction A)}
      (fetched : fetch number = .ok page)
      (more : (PageMapper.toDto page).number + 1 < (PageMapper.toDto page).totalPages)
      (walk : Walk fetch (number + 1) rest) : Walk fetch number (page.content ++ rest)

theorem walk_of_last (fetch : ℤ → Except JavaException (Page (Transaction A))) {number : ℤ}
    {page : Page (Transaction A)} (h : fetch number = .ok page)
    (hlast : ¬ page.getNumber + 1 < page.getTotalPages) (fetched : List (Transaction A)) :
    Walk fetch number fetched ↔ fetched = page.content := by
  constructor
  · intro hwalk
    cases hwalk with
    | stop h' _ =>
      rw [h] at h'
      rw [Except.ok.inj h']
    | next h' more _ =>
      rw [h] at h'
      rw [← Except.ok.inj h'] at more
      exact absurd more hlast
  · rintro rfl
    exact .stop h hlast

section
variable (sorted : List (Transaction A)) (pageable : PageRequest)

-- with the page size as total, PageImpl corrects every non-empty page but the first
theorem sizeAsTotal_total (hlt : pageable.page * pageable.size < sorted.length) :
    (Page.pageImpl (Paging.slice sorted pageable.page pageable.size) pageable pageable.size).total =
      if pageable.page = 0 then pageable.size
      else min ((pageable.page + 1) * pageable.size) sorted.length := by
  have hne := (Paging.slice_ne_nil_iff sorted _ _ pageable.size_pos).mpr hlt
  have hsucc : (pageable.page + 1) * pageable.size = pageable.page * pageable.size + pageable.size :=
    Nat.succ_mul _ _
  by_cases hpage : pageable.page = 0
  · rw [if_pos hpage, Page.pageImpl, if_neg]
    rw [hpage, Nat.zero_mul]
    omega
  · have hmul : 0 < pageable.page * pageable.size := Nat.mul_pos (Nat.pos_of_ne_zero hpage) pageable.size_pos
    rw [if_neg hpage, Page.pageImpl, if_pos ⟨hne, by omega⟩]
    simp only [Paging.slice_length]
    omega

theorem sizeAsTotal_truthful_iff (hlt : pageable.page * pageable.size < sorted.length) :
    Truthful (Page.pageImpl (Paging.slice sorted pageable.page pageable.size) pageable pageable.size)
        sorted.length pageable.page pageable.size ↔
      pageable.page = 0 ∧ sorted.length = pageable.size ∨
        0 < pageable.page ∧ sorted.length ≤ (pageable.page + 1) * pageable.size := by
  rw [pageImpl_truthful_iff, sizeAsTotal_total sorted pageable hlt]
  split_ifs <;> omega

end

section
variable {ts : List (Transaction A)} (h : Dated ts) (hn : ts.length ≤ 2 ^ 30) {size : ℤ} (hs : 1 ≤ size)
  (hsize : IsInt size)
include h hn hs hsize

theorem getPageSortedByDate_fits {page : ℤ} (hp : 0 ≤ page) (hlt : page = 0 ∨ page * size < ts.length) :
    getPageSortedByDate page size ts =
      .ok (Page.pageImpl (Paging.slice (byDate ts) page.toNat size.toNat)
        ⟨page.toNat, size.toNat, .unsorted, PageRequest.toNat_pos hs⟩ size.toNat) := by
  have hsucc : (page + 1) * size = page * size + size := by ring
  have hbound : size < 2 ^ 31 := hsize.2
  rcases eq_or_lt_of_le hp with rfl | hpos
  · apply getPageSortedByDate_inRange le_rfl hs h <;> omega
  · have hmul : 1 * size ≤ page * size := Int.mul_le_mul_of_nonneg_right hpos (by omega)
    apply getPageSortedByDate_inRange hp hs h <;> omega

theorem walk_fetches_iff :
    (∃ fetched, Walk (fun page => getPageSortedByDate page size ts) 0 fetched ∧ fetched.Perm ts) ↔
      ts.length ≤ size := by
  have hfirst := getPageSortedByDate_fits h hn hs hsize le_rfl (.inl rfl)
  -- page 0 reports the page size as the total, hence a single page
  have hlast : ¬ (Page.pageImpl (Paging.slice (byDate ts) 0 size.toNat)
      ⟨0, size.toNat, .unsorted, PageRequest.toNat_pos hs⟩ size.toNat).getNumber + 1 <
      (Page.pageImpl (Paging.slice (byDate ts) 0 size.toNat)
      ⟨0, size.toNat, .unsorted, PageRequest.toNat_pos hs⟩ size.toNat).getTotalPages := by
    have htotal : (Page.pageImpl (Paging.slice (byDate ts) 0 size.toNat)
        ⟨0, size.toNat, .unsorted, PageRequest.toNat_pos hs⟩ size.toNat).total = size.toNat := by
      simp [Page.pageImpl]
    have hone : Paging.pageCount size.toNat size.toNat = 1 :=
      (Paging.pageCount_eq_iff (by omega) Nat.one_pos).mpr ⟨by omega, by omega⟩
    rw [Page.pageImpl_getTotalPages, htotal, hone]
    simp
  have hwalk := walk_of_last (fun page => getPageSortedByDate page size ts) hfirst hlast
  constructor
  · rintro ⟨fetched, hw, hperm⟩
    rw [(hwalk fetched).mp hw] at hperm
    have hlen := hperm.length_eq
    simp only [Page.pageImpl_content, Paging.slice_length, List.length_insertionSort] at hlen
    omega
  · intro hle
    refine ⟨_, (hwalk _).mpr rfl, ?_⟩
    have hall : Paging.slice (byDate ts) 0 size.toNat = byDate ts := by
      rw [Paging.slice, Nat.zero_mul, List.drop_zero, List.take_of_length_le]
      simp only [List.length_insertionSort]
      omega
    rw [Page.pageImpl_content, Int.toNat_zero, hall]
    exact List.perm_insertionSort _ ts

/-- The reported totals are the true ones on page 0 exactly for `size` transactions, on a later page
exactly when it is the last one; a client that trusts them gets everything exactly when it fits on
page 0. -/
theorem getPageSortedByDate_metadata_iff :
    (∀ page : ℤ, 0 ≤ page → page * size < ts.length →
      ((∃ result, getPageSortedByDate page size ts = .ok result ∧ Truthful result ts.length page size) ↔
        page = 0 ∧ ts.length = size ∨ 0 < page ∧ ts.length ≤ (page + 1) * size)) ∧
    ((∃ fetched, Walk (fun page => getPageSortedByDate page size ts) 0 fetched ∧ fetched.Perm ts) ↔
      ts.length ≤ size) := by
  refine ⟨?_, walk_fetches_iff h hn hs hsize⟩
  intro page hp hlt
  have heq := getPageSortedByDate_fits h hn hs hsize hp (.inr hlt)
  have hpage : (page.toNat : ℤ) = page := Int.toNat_of_nonneg hp
  have hsz : (size.toNat : ℤ) = size := Int.toNat_of_nonneg (by omega)
  have hlt' : page.toNat * size.toNat < ts.length := by
    have hcast : ((page.toNat * size.toNat : ℕ) : ℤ) < ts.length := by
      rw [Nat.cast_mul, hpage, hsz]; exact hlt
    exact_mod_cast hcast
  have htruth := sizeAsTotal_truthful_iff (byDate ts)
    ⟨page.toNat, size.toNat, .unsorted, PageRequest.toNat_pos hs⟩ (by simpa using hlt')
  simp only [List.length_insertionSort, hpage, hsz] at htruth
  have hcond : (page.toNat = 0 ∧ ts.length = size.toNat ∨
        0 < page.toNat ∧ ts.length ≤ (page.toNat + 1) * size.toNat) ↔
      page = 0 ∧ ts.length = size ∨ 0 < page ∧ ts.length ≤ (page + 1) * size := by
    have hprod : ((page.toNat + 1) * size.toNat : ℕ) = (page + 1) * size := by push_cast; rw [hpage, hsz]
    omega
  rw [heq, ← hcond, ← htruth]
  constructor
  · rintro ⟨result, hres, ht⟩
    rw [Except.ok.inj hres]
    exact ht
  · intro ht
    exact ⟨_, rfl, ht⟩

end

theorem wholeMonth_metadata :
    (∀ page : ℤ, 0 ≤ page → page * 2 < 2 →
      ((∃ result, getPageSortedByDate page 2 [payment 1, payment 2] = .ok result ∧ Truthful result 2 page 2) ↔
        page = 0 ∧ (2 : ℤ) = 2 ∨ 0 < page ∧ (2 : ℤ) ≤ (page + 1) * 2)) ∧
    ((∃ fetched, Walk (fun page => getPageSortedByDate page 2 [payment 1, payment 2]) 0 fetched ∧
      fetched.Perm [payment 1, payment 2]) ↔ (2 : ℤ) ≤ 2) :=
  getPageSortedByDate_metadata_iff (dated_payments [1, 2]) (by decide) (by decide) (by decide)

theorem firstPage_not_truthful :
    ∃ result, getPageSortedByDate 0 1 [payment 1, payment 2] = .ok result ∧
      result.getTotalElements = 1 ∧ result.getTotalPages = 1 ∧ ¬ Truthful result 2 0 1 := by
  refine ⟨_, getPageSortedByDate_fits (dated_payments [1, 2]) (by decide) (by decide) (by decide) (by decide)
    (.inl rfl), by decide, by decide, ?_⟩
  intro h
  exact absurd h.getTotalElements (by decide)

end EBank.AsyncTransactionService
