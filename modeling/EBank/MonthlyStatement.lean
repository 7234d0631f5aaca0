import EBank.TransactionServiceImpl

namespace EBank.TransactionServiceImpl

open TransactionRepository

variable {A : Type}

section
variable {store : Store A} {accountId : Long}

theorem monthRows_congr {d e : LocalDate} (h : d.SameMonth e) :
    monthRows store accountId d = monthRows store accountId e := by
  rw [monthRows, LocalDate.firstDay_congr h, LocalDate.lastDay_congr h]

theorem sameMonth_of_mem {d e : LocalDate} {t : Transaction A} (hd : t ∈ monthRows store accountId d)
    (he : t ∈ monthRows store accountId e) : d.SameMonth e := by
  obtain ⟨-, -, date, hdate, hmonth⟩ := mem_monthRows_iff.mp hd
  obtain ⟨-, -, date', hdate', hmonth'⟩ := mem_monthRows_iff.mp he
  obtain rfl := Option.mem_unique hdate hdate'
  exact hmonth.symm.trans hmonth'

theorem existsUnique_month {t : Transaction A} (ht : t ∈ store.transactions)
    (haccount : t.account = some accountId) (hdate : t.date ≠ none) :
    ∃! first : LocalDate, first.day = 1 ∧ t ∈ monthRows store accountId first := by
  obtain ⟨date, hd⟩ := Option.ne_none_iff_exists'.mp hdate
  refine ⟨date.firstDay, ⟨rfl, ?_⟩, ?_⟩
  · exact mem_monthRows_iff.mpr ⟨ht, haccount, date, hd, date.firstDay_sameMonth.symm⟩
  · rintro first ⟨hday, hmem⟩
    obtain ⟨-, -, date', hd', hmonth⟩ := mem_monthRows_iff.mp hmem
    obtain rfl := Option.mem_unique hd hd'
    exact LocalDate.ext hmonth.1.symm hmonth.2.symm hday

theorem find_monthRows [Mul A] {repository : TransactionRepository A} (hsql : SqlGuarantee store repository)
    {σ : Type} (client : ExternalAPIClient σ A) (s : σ) (d : LocalDate) {page size : ℤ}
    {pageable : PageRequest} (h : PageRequest.of page size (.ascending "date") = .ok pageable) :
    ∃ ordered, ordered.Perm (monthRows store accountId d) ∧
      findForAccountInMonthPaginated repository client s accountId d page size =
        convert client s (execute ordered pageable) ∧
      ∀ found, findForAccountInMonthPaginated repository client s accountId d page size = .ok found →
        found.content.map Transaction.unconverted =
          (Paging.slice ordered pageable.page pageable.size).map Transaction.unconverted := by
  obtain ⟨ordered, hperm, -, hexecute⟩ := hsql d.firstDay d.lastDay accountId pageable
  have hfind : findForAccountInMonthPaginated repository client s accountId d page size =
      convert client s (execute ordered pageable) := by rw [find_of_pageable _ _ _ _ _ h, hexecute]
  refine ⟨ordered, hperm, hfind, ?_⟩
  intro found hfound
  rw [hfind] at hfound
  rw [convert_unconverted hfound, execute, Page.pageImpl_content]

end

theorem months_partition [Mul A] (store : Store A) (accountId : Long) :
    (∀ (repository : TransactionRepository A), SqlGuarantee store repository →
      ∀ (σ : Type) (client : ExternalAPIClient σ A) (s : σ) (d : LocalDate) (page size : ℤ) pageable,
        PageRequest.of page size (.ascending "date") = .ok pageable →
          ∃ ordered, ordered.Perm (rows store d.firstDay d.lastDay accountId) ∧
            findForAccountInMonthPaginated repository client s accountId d page size =
              convert client s (execute ordered pageable) ∧
            ∀ found, findForAccountInMonthPaginated repository client s accountId d page size = .ok found →
              found.content.map Transaction.unconverted =
                (Paging.slice ordered pageable.page pageable.size).map Transaction.unconverted) ∧
    (∀ (d : LocalDate) t, t ∈ rows store d.firstDay d.lastDay accountId ↔
      t ∈ store.transactions ∧ t.account = some accountId ∧
        ∃ date ∈ t.date, date.year = d.year ∧ date.month = d.month) ∧
    (∀ d e : LocalDate, d.SameMonth e → rows store d.firstDay d.lastDay accountId =
      rows store e.firstDay e.lastDay accountId) ∧
    (∀ d e : LocalDate, ¬ d.SameMonth e → (rows store d.firstDay d.lastDay accountId).Disjoint
      (rows store e.firstDay e.lastDay accountId)) ∧
    (∀ d : LocalDate, d.lastDay ⋖ d.nextMonth.firstDay) ∧
    ∀ t ∈ store.transactions, t.account = some accountId → t.date ≠ none →
      ∃! first : LocalDate, first.day = 1 ∧ t ∈ rows store first.firstDay first.lastDay accountId := by
  refine ⟨?_, ?_, ?_, ?_, LocalDate.lastDay_covBy_nextMonth, ?_⟩
  · intro repository hsql σ client s d page size pageable h
    exact find_monthRows hsql client s d h
  · intro d t
    exact mem_monthRows_iff
  · intro d e h
    exact monthRows_congr h
  · intro d e h t hd he
    exact h (sameMonth_of_mem hd he)
  · intro t ht haccount hdate
    exact existsUnique_month ht haccount hdate

end EBank.TransactionServiceImpl
