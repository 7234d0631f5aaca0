import EBank.JavaInt
import EBank.Page

namespace EBank.AsyncTransactionService

open JavaInt

variable {A α : Type}

/-- The value of a consumed record; absent for a record without one. -/
abbrev ConsumedRecord (A : Type) := Option (List (Transaction A))

-- the range check of ArrayList.subList, in its order
def subList (l : List α) (fromIndex toIndex : ℤ) : Except JavaException (List α) :=
  if fromIndex < 0 then .error .indexOutOfBounds
  else if toIndex > l.length then .error .indexOutOfBounds
  else if fromIndex > toIndex then .error .illegalArgument
  else .ok ((l.drop fromIndex.toNat).take (toIndex - fromIndex).toNat)

def start (pageable : PageRequest) : ℤ := narrow pageable.getOffset

def stop (pageable : PageRequest) (allTransactions : List (Transaction A)) : ℤ :=
  min (narrow (start pageable + pageable.size)) allTransactions.length

def getPage (page size : ℤ) (allTransactions : List (Transaction A)) :
    Except JavaException (Page (Transaction A)) := do
  let pageable ← PageRequest.of page size .unsorted
  let transactions ← subList allTransactions (start pageable) (stop pageable allTransactions)
  return Page.pageImpl transactions pageable size.toNat

abbrev byDate (allTransactions : List (Transaction A)) : List (Transaction A) :=
  allTransactions.insertionSort (fun t u => t.day ≤ u.day)

-- the comparator dereferences both dates as soon as there are two elements to compare
def sortByDate (allTransactions : List (Transaction A)) : Except JavaException (List (Transaction A)) :=
  if 2 ≤ allTransactions.length ∧ ∃ t ∈ allTransactions, t.date = none then .error .nullPointer
  else .ok (byDate allTransactions)

def getPageSortedByDate (page size : ℤ) (allTransactions : List (Transaction A)) :
    Except JavaException (Page (Transaction A)) := do
  let sorted ← sortByDate allTransactions
  getPage page size sorted

-- a record without a value ends the loop with what was added before it
def addAll : List (ConsumedRecord A) → List (Transaction A)
  | [] => []
  | none :: _ => []
  | some value :: records => value ++ addAll records

def received : Except JavaException (List (ConsumedRecord A)) → List (Transaction A)
  | .ok records => addAll records
  | .error _ => []

def findInMonthPaginated (polled : Except JavaException (List (ConsumedRecord A))) (_date : LocalDate)
    (page size : ℤ) : Except JavaException (Page (Transaction A)) :=
  getPageSortedByDate page size (received polled)

def Dated (ts : List (Transaction A)) : Prop := ∀ t ∈ ts, t.date ≠ none

theorem sortByDate_dated {ts : List (Transaction A)} (h : Dated ts) :
    sortByDate ts = .ok (byDate ts) := by
  apply if_neg
  rintro ⟨-, t, ht, hnone⟩
  exact h t ht hnone

theorem subList_ok_iff (l : List α) (fromIndex toIndex : ℤ) (r : List α) :
    subList l fromIndex toIndex = .ok r ↔
      (0 ≤ fromIndex ∧ fromIndex ≤ toIndex ∧ toIndex ≤ l.length) ∧
        r = (l.drop fromIndex.toNat).take (toIndex - fromIndex).toNat := by
  unfold subList
  split_ifs with h₁ h₂ h₃
  · simp; omega
  · simp; omega
  · simp; omega
  · simp only [Except.ok.injEq, eq_comm (a := r)]
    constructor
    · intro h
      exact ⟨by omega, h⟩
    · rintro ⟨-, h⟩
      exact h

theorem subList_sublist {l r : List α} {fromIndex toIndex : ℤ} (h : subList l fromIndex toIndex = .ok r) :
    r.Sublist l := by
  obtain ⟨-, rfl⟩ := (subList_ok_iff l fromIndex toIndex r).mp h
  exact (List.take_sublist _ _).trans (List.drop_sublist _ _)

section
variable {page size : ℤ} (hp : 0 ≤ page) (hs : 1 ≤ size)
include hp hs

theorem getPage_eq (l : List (Transaction A)) :
    getPage page size l = (subList l (narrow (page * size))
        (min (narrow (narrow (page * size) + size)) l.length)).map
      (fun content =>
        Page.pageImpl content ⟨page.toNat, size.toNat, .unsorted, PageRequest.toNat_pos hs⟩ size.toNat) := by
  have hpage : (page.toNat : ℤ) = page := Int.toNat_of_nonneg hp
  have hsize : (size.toNat : ℤ) = size := Int.toNat_of_nonneg (by omega)
  rw [getPage, PageRequest.of_ok _ hp hs, ok_bind, bind_return, stop, start,
    PageRequest.getOffset, hpage, hsize]

theorem getPageSortedByDate_eq {ts : List (Transaction A)} (h : Dated ts) :
    getPageSortedByDate page size ts =
      (subList (byDate ts) (narrow (page * size))
        (min (narrow (narrow (page * size) + size)) ts.length)).map
      (fun content =>
        Page.pageImpl content ⟨page.toNat, size.toNat, .unsorted, PageRequest.toNat_pos hs⟩ size.toNat) := by
  rw [getPageSortedByDate, sortByDate_dated h, ok_bind, getPage_eq hp hs, List.length_insertionSort]

theorem getPageSortedByDate_inRange {ts : List (Transaction A)} (h : Dated ts)
    (hle : page * size ≤ ts.length) (hfit : (page + 1) * size < 2 ^ 31) :
    getPageSortedByDate page size ts =
      .ok (Page.pageImpl (Paging.slice (byDate ts) page.toNat size.toNat)
        ⟨page.toNat, size.toNat, .unsorted, PageRequest.toNat_pos hs⟩ size.toNat) := by
  have hnonneg : 0 ≤ page * size := Int.mul_nonneg hp (by omega)
  have hsum : (page + 1) * size = page * size + size := by ring
  have hstart : narrow (page * size) = page * size := narrow_of_isInt ⟨by omega, by omega⟩
  have hstop : narrow (page * size + size) = page * size + size := narrow_of_isInt ⟨by omega, by omega⟩
  have hoffset : page.toNat * size.toNat = (page * size).toNat := by
    rw [Int.toNat_mul hp (by omega)]
  rw [getPageSortedByDate_eq hp hs h, hstart, hstop]
  have hsub := (subList_ok_iff (byDate ts) (page * size)
    (min (page * size + size) ts.length) _).mpr ⟨⟨hnonneg, by omega, by simp⟩, rfl⟩
  rw [hsub]
  have hslice : ((byDate ts).drop (page * size).toNat).take
      (min (page * size + size) ts.length - page * size).toNat =
      Paging.slice (byDate ts) page.toNat size.toNat := by
    rw [Paging.slice, hoffset, List.take_eq_take_iff]
    simp only [List.length_drop, List.length_insertionSort]
    omega
  rw [hslice]
  rfl

end

theorem getPage_content {page size : ℤ} {l : List (Transaction A)} {pg : Page (Transaction A)}
    (h : getPage page size l = .ok pg) : pg.content.Sublist l := by
  obtain ⟨pageable, -, h⟩ := bind_eq_ok h
  obtain ⟨content, hsub, h⟩ := bind_eq_ok h
  rw [← Except.ok.inj h, Page.pageImpl_content]
  exact subList_sublist hsub

theorem getPageSortedByDate_content {page size : ℤ} {ts : List (Transaction A)} {pg : Page (Transaction A)}
    (h : getPageSortedByDate page size ts = .ok pg) :
    pg.content.Sublist (byDate ts) := by
  obtain ⟨sorted, hsorted, h⟩ := bind_eq_ok h
  unfold sortByDate at hsorted
  split_ifs at hsorted
  rw [Except.ok.inj hsorted]
  exact getPage_content h

theorem addAll_values (records : List (List (Transaction A))) :
    addAll (records.map some) = records.flatten := by
  induction records with
  | nil => rfl
  | cons value records ih => simp [addAll, ih]

theorem subList_first {l r : List α} {fromIndex toIndex : ℤ}
    (h : subList l fromIndex toIndex = .ok r) (hne : r ≠ []) :
    0 ≤ fromIndex ∧ fromIndex < toIndex ∧ toIndex ≤ l.length ∧ r[0]? = l[fromIndex.toNat]? := by
  obtain ⟨⟨hlo, hle, hhi⟩, rfl⟩ := (subList_ok_iff l fromIndex toIndex r).mp h
  have hpos := List.length_pos_iff.mpr hne
  simp only [List.length_take, List.length_drop] at hpos
  refine ⟨hlo, by omega, hhi, ?_⟩
  rw [List.getElem?_take, if_pos (by omega), List.getElem?_drop, Nat.add_zero]

theorem fits_of_first {ts : List (Transaction A)} (h : Dated ts)
    (hn : (ts.map Transaction.id).Nodup) {page size : ℤ} (hp : 0 ≤ page) (hs : 1 ≤ size) (hsize : IsInt size)
    (hlt : page * size < ts.length) {found : Page (Transaction A)}
    (hok : getPageSortedByDate page size ts = .ok found)
    (hfirst : (found.content.map Transaction.id)[0]? =
      ((byDate ts).map Transaction.id)[(page * size).toNat]?) :
    (page + 1) * size < 2 ^ 31 := by
  have hnonneg : 0 ≤ page * size := Int.mul_nonneg hp (by omega)
  have hsum : (page + 1) * size = page * size + size := by ring
  have hlen : (byDate ts).length = ts.length := List.length_insertionSort _ _
  rw [getPageSortedByDate_eq hp hs h] at hok
  rcases hsub : subList (byDate ts) (narrow (page * size))
      (min (narrow (narrow (page * size) + size)) ts.length) with e | content
  · rw [hsub] at hok
    cases hok
  · rw [hsub] at hok
    have hcontent : found.content = content := by rw [← Except.ok.inj hok, Page.pageImpl_content]
    have hin : (page * size).toNat < ((byDate ts).map Transaction.id).length := by
      rw [List.length_map, hlen]
      omega
    have hne : content ≠ [] := by
      rintro rfl
      rw [hcontent, List.getElem?_eq_getElem hin] at hfirst
      cases hfirst
    obtain ⟨hlo, hlt', -, hhead⟩ := subList_first hsub hne
    have hnodup : ((byDate ts).map Transaction.id).Nodup :=
      ((List.perm_insertionSort _ ts).map _).nodup_iff.mpr hn
    have hsame : (page * size).toNat = (narrow (page * size)).toNat := by
      apply (List.getElem?_inj hin hnodup).mp
      rw [← hfirst, hcontent, List.getElem?_map, List.getElem?_map, hhead]
    -- the offset did not wrap, and a wrapped end would lie below it
    have hoffset : narrow (page * size) = page * size := by omega
    have hint := narrow_isInt (page * size)
    rw [hoffset] at hlt' hint
    by_contra hover
    have hbelow : page * size + size < 2 ^ 32 := by
      have hlt₁ := hint.2
      have hlt₂ := hsize.2
      omega
    have hneg := narrow_neg_of_overflow (by omega) hbelow
    omega

def payment (id : Long) : Transaction ℤ := .row id 1 LocalDate.january 10 .GBP

theorem dated_payments (ids : List Long) : Dated (ids.map payment) := by
  intro t ht
  obtain ⟨id, -, rfl⟩ := List.mem_map.mp ht
  exact Option.some_ne_none _

end EBank.AsyncTransactionService
