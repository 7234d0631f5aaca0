import EBank.Models
import EBank.Paging

namespace EBank

inductive Sorting where
  | unsorted
  | ascending (property : String)
  deriving DecidableEq, Repr

structure PageRequest where
  page : ℕ
  size : ℕ
  sort : Sorting
  size_pos : 0 < size
  deriving DecidableEq

namespace PageRequest

def of (page size : ℤ) (sort : Sorting) : Except JavaException PageRequest :=
  if page < 0 then .error .illegalArgument
  else if h : size < 1 then .error .illegalArgument
  else .ok ⟨page.toNat, size.toNat, sort, by omega⟩

-- a product of two ints in 64 bits, which cannot wrap
def getOffset (r : PageRequest) : ℤ := r.page * r.size

theorem toNat_pos {size : ℤ} (hs : 1 ≤ size) : 0 < size.toNat := by omega

theorem of_ok {page size : ℤ} (sort : Sorting) (hp : 0 ≤ page) (hs : 1 ≤ size) :
    of page size sort = .ok ⟨page.toNat, size.toNat, sort, toNat_pos hs⟩ := by
  rw [of, if_neg (by omega), dif_neg (by omega)]

end PageRequest

/-- `pageable` is absent on the unpaged `Page.empty()`. -/
structure Page (α : Type) where
  content : List α
  pageable : Option PageRequest
  total : ℕ
  deriving DecidableEq

namespace Page

variable {α β : Type}

def empty : Page α := ⟨[], none, 0⟩

-- the constructor of PageImpl: a non-empty page that reaches past the total corrects it
def pageImpl (content : List α) (pageable : PageRequest) (total : ℕ) : Page α :=
  if content ≠ [] ∧ pageable.page * pageable.size + pageable.size > total then
    ⟨content, some pageable, pageable.page * pageable.size + content.length⟩
  else ⟨content, some pageable, total⟩

def getSize (p : Page α) : ℕ := p.pageable.elim p.content.length PageRequest.size

def getNumber (p : Page α) : ℕ := p.pageable.elim 0 PageRequest.page

def getTotalElements (p : Page α) : ℕ := p.total

def getTotalPages (p : Page α) : ℕ :=
  if p.getSize = 0 then 1 else Paging.pageCount p.total p.getSize

-- Page.map builds its result with the PageImpl constructor again
def withContent (p : Page α) (content : List β) : Page β :=
  match p.pageable with
  | some pageable => pageImpl content pageable p.total
  | none => ⟨content, none, p.total⟩

section
variable (content : List α) (pageable : PageRequest) (total : ℕ)

@[simp] theorem pageImpl_content : (pageImpl content pageable total).content = content := by
  unfold pageImpl; split_ifs <;> rfl

@[simp] theorem pageImpl_pageable : (pageImpl content pageable total).pageable = some pageable := by
  unfold pageImpl; split_ifs <;> rfl

@[simp] theorem pageImpl_getSize : (pageImpl content pageable total).getSize = pageable.size := by
  simp [getSize]

@[simp] theorem pageImpl_getNumber : (pageImpl content pageable total).getNumber = pageable.page := by
  simp [getNumber]

theorem pageImpl_getTotalPages : (pageImpl content pageable total).getTotalPages =
    Paging.pageCount (pageImpl content pageable total).total pageable.size := by
  rw [getTotalPages, pageImpl_getSize, if_neg pageable.size_pos.ne']

end

@[simp] theorem withContent_content (p : Page α) (content : List β) :
    (p.withContent content).content = content := by
  unfold withContent; split <;> simp

theorem pageImpl_pageImpl_total (content : List α) (pageable : PageRequest) (total : ℕ) :
    pageImpl content pageable (pageImpl content pageable total).total = pageImpl content pageable total := by
  by_cases h : content ≠ [] ∧ pageable.page * pageable.size + pageable.size > total
  · rw [pageImpl.eq_def content pageable total, if_pos h, pageImpl]
    split_ifs <;> rfl
  · rw [pageImpl.eq_def content pageable total, if_neg h, pageImpl, if_neg h]

theorem withContent_withContent (p : Page α) (content : List β) :
    (p.withContent content).withContent content = p.withContent content := by
  cases hp : p.pageable with
  | none => simp only [withContent, hp]
  | some pageable => simp only [withContent, hp, pageImpl_pageable, pageImpl_pageImpl_total]

theorem pageImpl_slice_total (rows : List α) (pageable : PageRequest) :
    (pageImpl (Paging.slice rows pageable.page pageable.size) pageable rows.length).total = rows.length := by
  unfold pageImpl
  split_ifs with h
  · obtain ⟨hne, hgt⟩ := h
    have hlt := (Paging.slice_ne_nil_iff rows _ _ pageable.size_pos).mp hne
    simp only [Paging.slice_length]
    omega
  · rfl

theorem withContent_total (p : Page α) (content : List β) (h : content.length = p.content.length)
    (rows : List α) (pageable : PageRequest)
    (hp : p = pageImpl (Paging.slice rows pageable.page pageable.size) pageable rows.length) :
    p.withContent content = ⟨content, some pageable, rows.length⟩ := by
  have htotal := pageImpl_slice_total rows pageable
  rw [← hp] at htotal
  have hpageable : p.pageable = some pageable := by rw [hp, pageImpl_pageable]
  have hlen : content.length = (Paging.slice rows pageable.page pageable.size).length := by
    rw [h, hp, pageImpl_content]
  simp only [withContent, hpageable, htotal, pageImpl]
  split_ifs with hc
  · obtain ⟨hne, hgt⟩ := hc
    have hpos := List.length_pos_iff.mpr hne
    simp only [hlen, Paging.slice_length] at *
    congr 1
    omega
  · rfl

end Page

structure PageDto where
  size : ℕ
  totalElements : ℕ
  totalPages : ℕ
  number : ℕ
  deriving DecidableEq, Repr

namespace PageMapper

def toDto {α : Type} (page : Page α) : PageDto where
  size := page.getSize
  totalElements := page.getTotalElements
  totalPages := page.getTotalPages
  number := page.getNumber

end PageMapper

end EBank
