import EBank.PageMetadata

namespace EBank.AsyncTransactionService

open JavaInt

variable {A : Type}

def NoWrap (pageable : PageRequest) : Prop :=
  start pageable = pageable.getOffset ∧
    narrow (start pageable + pageable.size) = pageable.getOffset + pageable.size

section
variable {ts : List (Transaction A)} (h : Dated ts) (hn : ts.length ≤ 2 ^ 30) {size : ℤ} (hs : 1 ≤ size)
  (hsize : size ≤ 2 ^ 31 - 1)
include hs

theorem toNat_mul_lt (page : ℕ) : page < Paging.pageCount ts.length size.toNat ↔ page * size < ts.length := by
  rw [Paging.lt_pageCount_iff (PageRequest.toNat_pos hs)]
  obtain ⟨n, rfl⟩ := Int.eq_ofNat_of_zero_le (show 0 ≤ size by omega)
  rw [Int.toNat_natCast]
  exact_mod_cast Iff.rfl

include hn hsize

omit hs in
theorem noWrap_of_lt {pageable : PageRequest} (hpageable : (pageable.size : ℤ) = size)
    (hlt : pageable.page * size < ts.length) : NoWrap pageable := by
  have hpos := pageable.size_pos
  have hoffset : pageable.getOffset = pageable.page * size := by rw [PageRequest.getOffset, hpageable]
  have hnonneg : 0 ≤ (pageable.page : ℤ) * size := Int.mul_nonneg (Int.natCast_nonneg _) (by omega)
  have hend : (pageable.page : ℤ) * size + size < 2 ^ 31 := by
    rcases Nat.eq_zero_or_pos pageable.page with hzero | hpage
    · rw [hzero]
      omega
    · have hmul : 1 * size ≤ (pageable.page : ℤ) * size :=
        Int.mul_le_mul_of_nonneg_right (by omega) (by omega)
      omega
  have hstart : start pageable = pageable.page * size := by
    rw [start, hoffset]
    exact narrow_of_isInt ⟨by omega, by omega⟩
  refine ⟨hstart.trans hoffset.symm, ?_⟩
  rw [hstart, hoffset, hpageable]
  exact narrow_of_isInt ⟨by omega, by omega⟩

include h

theorem pages_tile :
    ∃ pages : ℕ → Page (Transaction A),
      (∀ p : ℕ, p * size < ts.length → getPageSortedByDate p size ts = .ok (pages p) ∧
        ∃ pageable, PageRequest.of p size .unsorted = .ok pageable ∧ NoWrap pageable) ∧
      ∃ m, (∀ p : ℕ, p < m ↔ p * size < ts.length) ∧
        (let tiled := (List.range m).flatMap (fun p => (pages p).content)
        tiled.Perm ts ∧ Paging.Ordered Transaction.day tiled ∧
          ∀ day, tiled.filter (fun t => t.day = day) = ts.filter (fun t => t.day = day)) ∧
        ∀ p < m, (p + 1 < m → ((pages p).content.length : ℤ) = size) ∧
          1 ≤ (pages p).content.length ∧ ((pages p).content.length : ℤ) ≤ size := by
  have hlength : (byDate ts).length = ts.length := List.length_insertionSort _ _
  have hpos := PageRequest.toNat_pos hs
  have htoNat : (size.toNat : ℤ) = size := Int.toNat_of_nonneg (by omega)
  refine ⟨fun p => Page.pageImpl (Paging.slice (byDate ts) p size.toNat)
    ⟨p, size.toNat, .unsorted, hpos⟩ size.toNat, ?_, Paging.pageCount ts.length size.toNat,
    toNat_mul_lt hs, ?_, ?_⟩
  · intro p hlt
    constructor
    · exact getPageSortedByDate_fits h hn hs ⟨by omega, by omega⟩ (Int.natCast_nonneg p) (.inr hlt)
    · refine ⟨_, PageRequest.of_ok _ (Int.natCast_nonneg p) hs, ?_⟩
      exact noWrap_of_lt hn hsize htoNat (by simpa using hlt)
  · simp only [Page.pageImpl_content]
    rw [← hlength, Paging.flatMap_slice_pageCount _ hpos]
    refine ⟨List.perm_insertionSort _ ts, Paging.ordered_insertionSort ts, ?_⟩
    intro day
    exact Paging.filter_insertionSort ts day
  · intro p hp
    rw [← hlength] at hp ⊢
    obtain ⟨hfull, hne, hle⟩ := Paging.slice_length_of_lt (byDate ts) hpos hp
    rw [Page.pageImpl_content]
    refine ⟨?_, hne, by omega⟩
    intro hnext
    rw [hfull hnext, htoNat]

end

theorem payments_tile : ∃ pages : ℕ → Page (Transaction ℤ),
    ∀ p : ℕ, (p : ℤ) * 2 < 3 → getPageSortedByDate p 2 ([1, 2, 3].map payment) = .ok (pages p) := by
  obtain ⟨pages, hpages, -⟩ := pages_tile (dated_payments [1, 2, 3]) (by decide) (show (1 : ℤ) ≤ 2 by decide)
    (by decide)
  exact ⟨pages, fun p hp => (hpages p hp).1⟩

end EBank.AsyncTransactionService
