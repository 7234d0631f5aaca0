import EBank.AsyncTransactionService

namespace EBank.AsyncTransactionService

open JavaInt

variable {A α : Type}

def EmptyPage (result : Except JavaException (Page (Transaction A))) : Prop :=
  ∃ page, result = .ok page ∧ page.content = []

theorem emptyPage_map_iff {r : Except JavaException (List (Transaction A))}
    {pageable : PageRequest} {total : ℕ} :
    EmptyPage (r.map (fun content => Page.pageImpl content pageable total)) ↔ r = .ok [] := by
  cases r with
  | error e => simp [EmptyPage, Except.map]
  | ok content => simp [EmptyPage, Except.map]

theorem subList_empty_iff (l : List α) (fromIndex toIndex : ℤ) :
    subList l fromIndex toIndex = .ok [] ↔ 0 ≤ fromIndex ∧ fromIndex = toIndex ∧ toIndex ≤ l.length := by
  rw [subList_ok_iff]
  constructor
  · rintro ⟨⟨hlo, hle, hhi⟩, hempty⟩
    have hlen := congrArg List.length hempty
    simp only [List.length_nil, List.length_take, List.length_drop] at hlen
    omega
  · rintro ⟨hlo, rfl, hhi⟩
    simp [hlo, hhi]

theorem window_empty_iff {offset size n : ℤ} (hs : 1 ≤ size) (hsize : size < 2 ^ 31) (hn : 0 ≤ n)
    (hn' : n < 2 ^ 31) :
    (0 ≤ narrow offset ∧ narrow offset = min (narrow (narrow offset + size)) n ∧
        min (narrow (narrow offset + size)) n ≤ n) ↔
      offset % 2 ^ 32 = n ∧ n + size < 2 ^ 31 := by
  rw [← narrow_eq_iff hn hn']
  have hstart := narrow_isInt offset
  simp only [IsInt] at hstart
  generalize narrow offset = start at *
  simp only [narrow]
  omega

/-- A page at or past the end comes back empty only where the wrapped offset is the number of
transactions itself and the end of the page still fits in an int. -/
theorem getPageSortedByDate_empty_iff {ts : List (Transaction A)} (h : Dated ts)
    (hn : (ts.length : ℤ) < 2 ^ 31) {page size : ℤ} (hp : 0 ≤ page) (hs : 1 ≤ size) (hsize : IsInt size) :
    EmptyPage (getPageSortedByDate page size ts) ↔
      page * size % 2 ^ 32 = ts.length ∧ ts.length + size < 2 ^ 31 := by
  rw [getPageSortedByDate_eq hp hs h, emptyPage_map_iff, subList_empty_iff, List.length_insertionSort]
  exact window_empty_iff hs hsize.2 (Int.natCast_nonneg _) hn

theorem nextPage_empty : EmptyPage (getPageSortedByDate 1 1 [payment 1]) := by
  apply (getPageSortedByDate_empty_iff (dated_payments [1]) (by simp) (by decide) (by decide) (by decide)).mpr
  simp

theorem pastEnd_not_empty :
    (1 ≤ 2 * 1 ∧ ¬ EmptyPage (getPageSortedByDate 2 1 [payment 1])) ∧
      1 ≤ 65536 * 65536 ∧ ¬ EmptyPage (getPageSortedByDate 65536 65536 [payment 1]) := by
  have hdated : Dated [payment 1] := dated_payments [1]
  refine ⟨⟨by decide, ?_⟩, by decide, ?_⟩
  · rw [getPageSortedByDate_eq (by decide) (by decide) hdated, emptyPage_map_iff, subList_empty_iff]
    simp [narrow]
  · rw [getPageSortedByDate_eq (by decide) (by decide) hdated, emptyPage_map_iff, subList_empty_iff]
    simp [narrow]

end EBank.AsyncTransactionService
