import Mathlib.Data.List.Sort
import Mathlib.Tactic.Linarith
import Mathlib.Tactic.Ring

/-!
Pages of a list: `LIMIT size OFFSET page * size`, how the pages tile the list, and which
page boundaries are determined when each page is cut from a different sorted arrangement.
-/

namespace EBank.Paging

variable {α κ : Type*}

def slice (l : List α) (page size : ℕ) : List α := (l.drop (page * size)).take size

def pageCount (n size : ℕ) : ℕ := (n + size - 1) / size

@[simp] theorem slice_length (l : List α) (page size : ℕ) :
    (slice l page size).length = min size (l.length - page * size) := by
  simp [slice]

theorem slice_sublist (l : List α) (page size : ℕ) : (slice l page size).Sublist l :=
  (List.take_sublist _ _).trans (List.drop_sublist _ _)

theorem slice_ne_nil_iff (l : List α) (page size : ℕ) (hs : 0 < size) :
    slice l page size ≠ [] ↔ page * size < l.length := by
  rw [← List.length_pos_iff, slice_length]
  omega

theorem take_succ_page (l : List α) (page size : ℕ) :
    l.take ((page + 1) * size) = l.take (page * size) ++ slice l page size := by
  rw [slice, Nat.succ_mul, List.take_add]

theorem flatMap_slice (l : List α) (size m : ℕ) :
    (List.range m).flatMap (fun page => slice l page size) = l.take (m * size) := by
  induction m with
  | zero => simp
  | succ m ih => rw [List.range_succ, List.flatMap_append, ih, List.flatMap_singleton, take_succ_page]

theorem mem_slice_iff (l : List α) (page size : ℕ) (x : α) :
    x ∈ slice l page size ↔ ∃ i, page * size ≤ i ∧ i < page * size + size ∧ l[i]? = some x := by
  simp only [slice, List.mem_iff_getElem?, List.getElem?_take, List.getElem?_drop]
  constructor
  · rintro ⟨i, hi⟩
    split_ifs at hi with h
    exact ⟨page * size + i, by omega, by omega, hi⟩
  · rintro ⟨i, hlo, hhi, hx⟩
    refine ⟨i - page * size, ?_⟩
    rw [if_pos (by omega), show page * size + (i - page * size) = i by omega, hx]

theorem lt_pageCount_iff {n size : ℕ} (hs : 0 < size) (page : ℕ) :
    page < pageCount n size ↔ page * size < n := by
  rw [pageCount, Nat.lt_div_iff_mul_lt hs]
  omega

theorem le_pageCount_mul {n size : ℕ} (hs : 0 < size) : n ≤ pageCount n size * size := by
  by_contra h
  apply lt_irrefl (pageCount n size)
  exact (lt_pageCount_iff hs _).mpr (not_le.mp h)

theorem flatMap_slice_pageCount (l : List α) {size : ℕ} (hs : 0 < size) :
    (List.range (pageCount l.length size)).flatMap (fun page => slice l page size) = l := by
  rw [flatMap_slice, List.take_of_length_le (le_pageCount_mul hs)]

theorem slice_length_of_lt (l : List α) {page size : ℕ} (hs : 0 < size)
    (hp : page < pageCount l.length size) :
    (page + 1 < pageCount l.length size → (slice l page size).length = size) ∧
      1 ≤ (slice l page size).length ∧ (slice l page size).length ≤ size := by
  have hlt := (lt_pageCount_iff hs page).mp hp
  have hsucc : (page + 1) * size = page * size + size := Nat.succ_mul page size
  rw [slice_length]
  refine ⟨?_, by omega, by omega⟩
  intro hnext
  have hfull := (lt_pageCount_iff hs (page + 1)).mp hnext
  omega

theorem pageCount_eq_iff {n size m : ℕ} (hs : 0 < size) (hm : 0 < m) :
    pageCount n size = m ↔ (m - 1) * size < n ∧ n ≤ m * size := by
  have hlow := lt_pageCount_iff (n := n) hs (m - 1)
  have hhigh := lt_pageCount_iff (n := n) hs m
  omega

section Ties

variable [LinearOrder κ] (key : α → κ)

def Ordered (l : List α) : Prop := l.Pairwise (fun x y => key x ≤ key y)

def before (l : List α) (k : κ) : ℕ := l.countP (fun x => key x < k)

def upTo (l : List α) (k : κ) : ℕ := l.countP (fun x => key x ≤ k)

/-- Some key has elements on both sides of position `b` of every ordered arrangement. -/
def SplitsTie (l : List α) (b : ℕ) : Prop := ∃ k, before key l k < b ∧ b < upTo key l k

variable {key}

theorem ordered_insertionSort (l : List α) : Ordered key (l.insertionSort (fun x y => key x ≤ key y)) := by
  have : Std.Total (fun x y : α => key x ≤ key y) := ⟨fun x y => le_total (key x) (key y)⟩
  have : IsTrans α (fun x y => key x ≤ key y) := ⟨fun _ _ _ => le_trans⟩
  exact List.pairwise_insertionSort _ l

theorem filter_insertionSort (l : List α) (k : κ) [DecidablePred (fun x => key x = k)] :
    (l.insertionSort (fun x y => key x ≤ key y)).filter (fun x => key x = k) =
      l.filter (fun x => key x = k) := by
  have hsame : (l.filter (fun x => key x = k)).Pairwise (fun x y => key x ≤ key y) := by
    apply List.pairwise_of_forall_mem_list
    intro x hx y hy
    simp only [List.mem_filter, decide_eq_true_eq] at hx hy
    exact (hx.2.trans hy.2.symm).le
  have hsub := (List.sublist_insertionSort hsame List.filter_sublist).filter (fun x => key x = k)
  simp only [List.filter_filter, Bool.and_self] at hsub
  symm
  apply hsub.eq_of_length
  exact ((List.perm_insertionSort _ l).filter _).length_eq.symm

theorem Ordered.of_map_eq {l l' : List α} (h : Ordered key l) (he : l'.map key = l.map key) :
    Ordered key l' := by
  unfold Ordered at *
  rw [← List.pairwise_map (f := key) (R := (· ≤ ·))] at *
  rwa [he]

theorem before_perm {l l' : List α} (h : l.Perm l') (k : κ) : before key l k = before key l' k :=
  h.countP_eq _

theorem upTo_perm {l l' : List α} (h : l.Perm l') (k : κ) : upTo key l k = upTo key l' k :=
  h.countP_eq _

theorem before_le_index {l : List α} (h : Ordered key l) (i : ℕ) (hi : i < l.length) :
    before key l (key l[i]) ≤ i := by
  have hdrop : (l.drop i).countP (fun x => decide (key x < key l[i])) = 0 := by
    rw [List.countP_eq_zero]
    intro x hx
    obtain ⟨j, hj, rfl⟩ := List.mem_iff_getElem.mp hx
    rw [List.getElem_drop]
    rcases Nat.eq_zero_or_pos j with rfl | hpos
    · simp
    · have := List.pairwise_iff_getElem.mp h i (i + j) hi (by simp at hj; omega) (by omega)
      simpa using this
  have hsplit : before key l (key l[i]) =
      (l.take i).countP (fun x => decide (key x < key l[i])) + 0 := by
    rw [← hdrop, ← List.countP_append, List.take_append_drop]
    rfl
  rw [hsplit]
  exact List.countP_le_length.trans (by simp)

theorem index_lt_upTo {l : List α} (h : Ordered key l) (i : ℕ) (hi : i < l.length) :
    i < upTo key l (key l[i]) := by
  have htake : (l.take (i + 1)).countP (fun x => decide (key x ≤ key l[i])) = i + 1 := by
    have hall : ∀ x ∈ l.take (i + 1), decide (key x ≤ key l[i]) = true := by
      intro x hx
      obtain ⟨j, hj, rfl⟩ := List.mem_iff_getElem.mp hx
      rw [List.getElem_take]
      simp only [List.length_take] at hj
      rcases Nat.lt_or_eq_of_le (show j ≤ i by omega) with hlt | rfl
      · simpa using List.pairwise_iff_getElem.mp h j i (by omega) hi hlt
      · simp
    rw [List.countP_eq_length.mpr hall, List.length_take]
    omega
  have hsplit : upTo key l (key l[i]) = (l.take (i + 1)).countP (fun x => decide (key x ≤ key l[i])) +
      (l.drop (i + 1)).countP (fun x => decide (key x ≤ key l[i])) := by
    rw [← List.countP_append, List.take_append_drop]
    rfl
  omega

theorem upTo_le_before {k k' : κ} (h : k < k') (l : List α) : upTo key l k ≤ before key l k' :=
  List.countP_mono_left fun x _ hx => by simp only [decide_eq_true_eq] at *; exact hx.trans_lt h

theorem key_eq_of_block {l : List α} (h : Ordered key l) (i : ℕ) (hi : i < l.length) {k : κ}
    (hlo : before key l k ≤ i) (hhi : i < upTo key l k) : key l[i] = k := by
  have hb := before_le_index h i hi
  have hu := index_lt_upTo h i hi
  rcases lt_trichotomy (key l[i]) k with hlt | he | hgt
  · have hblock : upTo key l (key l[i]) ≤ before key l k := upTo_le_before hlt l
    omega
  · exact he
  · have hblock : upTo key l k ≤ before key l (key l[i]) := upTo_le_before hgt l
    omega

theorem ordered_unique {l l' : List α} (hn : (l.map key).Nodup) (hp : l.Perm l') (h : Ordered key l)
    (h' : Ordered key l') : l = l' := by
  apply List.Perm.eq_of_pairwise _ h h' hp
  intro x y hx hy hxy hyx
  exact List.inj_on_of_nodup_map hn hx (hp.mem_iff.mpr hy) (le_antisymm hxy hyx)

theorem before_getElem {l : List α} (hn : (l.map key).Nodup) (h : Ordered key l) (i : ℕ) (hi : i < l.length) :
    before key l (key l[i]) = i := by
  apply le_antisymm (before_le_index h i hi)
  have htake : (l.take i).countP (fun x => decide (key x < key l[i])) = (l.take i).length := by
    rw [List.countP_eq_length]
    intro x hx
    obtain ⟨j, hj, rfl⟩ := List.mem_iff_getElem.mp hx
    simp only [List.length_take] at hj
    rw [List.getElem_take, decide_eq_true_eq]
    apply lt_of_le_of_ne (List.pairwise_iff_getElem.mp h j i (by omega) hi (by omega))
    have hne := List.pairwise_iff_getElem.mp hn j i (by simp; omega) (by simpa using hi) (by omega)
    simpa using hne
  have hcount := (List.take_sublist i l).countP_le (p := fun x => decide (key x < key l[i]))
  rw [htake, List.length_take] at hcount
  rw [before]
  omega

theorem mem_slice_iff_before {l : List α} (hn : (l.map key).Nodup) (h : Ordered key l)
    (page size : ℕ) (x : α) :
    x ∈ slice l page size ↔
      x ∈ l ∧ page * size ≤ before key l (key x) ∧ before key l (key x) < page * size + size := by
  rw [mem_slice_iff]
  constructor
  · rintro ⟨i, hlo, hhi, hx⟩
    obtain ⟨hi, rfl⟩ := List.getElem?_eq_some_iff.mp hx
    rw [before_getElem hn h i hi]
    exact ⟨List.getElem_mem hi, hlo, hhi⟩
  · rintro ⟨hx, hlo, hhi⟩
    obtain ⟨i, hi, rfl⟩ := List.mem_iff_getElem.mp hx
    rw [before_getElem hn h i hi] at hlo hhi
    exact ⟨i, hlo, hhi, List.getElem?_eq_getElem hi⟩

theorem take_eq_filter {l : List α} (h : Ordered key l) (b : ℕ) (hb : ¬ SplitsTie key l b) :
    l.take b = l.filter (fun x => upTo key l (key x) ≤ b) := by
  conv_rhs => rw [← List.take_append_drop b l]
  rw [List.filter_append, List.take_append_drop]
  have htake : (l.take b).filter (fun x => decide (upTo key l (key x) ≤ b)) = l.take b := by
    rw [List.filter_eq_self]
    intro x hx
    obtain ⟨i, hi, rfl⟩ := List.mem_iff_getElem.mp hx
    simp only [List.length_take] at hi
    rw [List.getElem_take, decide_eq_true_eq]
    by_contra hgt
    exact hb ⟨_, (before_le_index h i (by omega)).trans_lt (by omega), not_le.mp hgt⟩
  have hdrop : (l.drop b).filter (fun x => decide (upTo key l (key x) ≤ b)) = [] := by
    rw [List.filter_eq_nil_iff]
    intro x hx
    obtain ⟨i, hi, rfl⟩ := List.mem_iff_getElem.mp hx
    simp only [List.length_drop] at hi
    rw [List.getElem_drop, decide_eq_true_eq]
    have := index_lt_upTo h (b + i) (by omega)
    omega
  rw [htake, hdrop, List.append_nil]

theorem splitsTie_perm {l l' : List α} (h : l.Perm l') (b : ℕ) : SplitsTie key l b ↔ SplitsTie key l' b := by
  simp only [SplitsTie, before_perm h, upTo_perm h]

theorem take_perm_of_ordered {l rows : List α} (hp : l.Perm rows) (h : Ordered key l) (b : ℕ)
    (hb : ¬ SplitsTie key rows b) : (l.take b).Perm (rows.filter (fun x => upTo key rows (key x) ≤ b)) := by
  rw [take_eq_filter h b (by rwa [splitsTie_perm hp])]
  simp only [upTo_perm hp]
  exact hp.filter _

theorem flatMap_slice_perm {rows : List α} {size : ℕ} (arrangement : ℕ → List α)
    (hp : ∀ p, (arrangement p).Perm rows) (ho : ∀ p, Ordered key (arrangement p))
    (hb : ∀ p, ¬ SplitsTie key rows (p * size)) (m : ℕ) :
    ((List.range m).flatMap (fun p => slice (arrangement p) p size)).Perm
      (rows.filter (fun x => upTo key rows (key x) ≤ m * size)) := by
  induction m with
  | zero =>
    have h := take_perm_of_ordered (hp 0) (ho 0) 0 (by simpa using hb 0)
    simpa using h
  | succ m ih =>
    rw [List.range_succ, List.flatMap_append]
    have hlow := take_perm_of_ordered (hp m) (ho m) (m * size) (hb m)
    have hhigh := take_perm_of_ordered (hp m) (ho m) ((m + 1) * size) (hb (m + 1))
    rw [take_succ_page] at hhigh
    have hjoin := (ih.trans hlow.symm).append_right (slice (arrangement m) m size)
    simpa using hjoin.trans hhigh

theorem exists_straddling {rows : List α} {b : ℕ} (hb : SplitsTie key rows b) :
    ∃ l l' x, l.Perm rows ∧ l'.Perm rows ∧ Ordered key l ∧ Ordered key l' ∧
      l[b - 1]? = some x ∧ l'[b]? = some x := by
  obtain ⟨k, hlo, hhi⟩ := hb
  let l := rows.insertionSort (fun x y => key x ≤ key y)
  have hp : l.Perm rows := List.perm_insertionSort _ rows
  have ho : Ordered key l := ordered_insertionSort rows
  rw [← before_perm hp] at hlo
  rw [← upTo_perm hp] at hhi
  have hlen : b < l.length := hhi.trans_le List.countP_le_length
  have hx : key l[b - 1] = k := key_eq_of_block ho (b - 1) (by omega) (by omega) (by omega)
  have hy : key l[b] = k := key_eq_of_block ho b hlen (by omega) hhi
  have hl : l = l.take (b - 1) ++ l[b - 1] :: l[b] :: l.drop (b + 1) := by
    conv_lhs => rw [← List.take_append_drop (b - 1) l]
    rw [List.drop_eq_getElem_cons (show b - 1 < l.length by omega)]
    rw [show b - 1 + 1 = b by omega, List.drop_eq_getElem_cons hlen]
  let l' := l.take (b - 1) ++ l[b] :: l[b - 1] :: l.drop (b + 1)
  have hswap : l'.Perm l := by
    conv_rhs => rw [hl]
    exact (List.Perm.swap _ _ _).append_left _
  have hkeys : l'.map key = l.map key := by
    conv_rhs => rw [hl]
    simp only [l', List.map_append, List.map_cons, hx, hy]
  refine ⟨l, l', l[b - 1], hp, hswap.trans hp, ho, ho.of_map_eq hkeys, List.getElem?_eq_getElem _, ?_⟩
  have hle : (l.take (b - 1)).length ≤ b := by simp
  rw [List.getElem?_append_right hle, List.length_take, show b - min (b - 1) l.length = 1 by omega]
  rfl

theorem walk_perm_iff {rows : List α} (hn : rows.Nodup) {size : ℕ} (hs : 0 < size) :
    (∀ arrangement : ℕ → List α, (∀ p, (arrangement p).Perm rows) → (∀ p, Ordered key (arrangement p)) →
      ((List.range (pageCount rows.length size)).flatMap (fun p => slice (arrangement p) p size)).Perm rows) ↔
    ∀ p, ¬ SplitsTie key rows (p * size) := by
  constructor
  · intro hwalk p hb
    obtain ⟨l, l', x, hp, hp', ho, ho', hx, hx'⟩ := exists_straddling hb
    have hpos : 0 < p := by
      rcases Nat.eq_zero_or_pos p with rfl | h
      · obtain ⟨k, hk, -⟩ := hb; omega
      · exact h
    have hlast : p < pageCount rows.length size := by
      rw [lt_pageCount_iff hs, ← hp'.length_eq]
      exact (List.getElem?_eq_some_iff.mp hx').1
    have hperm := hwalk (fun q => if q = p then l' else l) (fun q => by split_ifs <;> assumption)
      (fun q => by split_ifs <;> assumption)
    have hdisjoint := (List.nodup_flatMap.mp (hperm.nodup_iff.mpr hn)).2
    rw [List.pairwise_iff_getElem] at hdisjoint
    have hd := hdisjoint (p - 1) p (by simp; omega) (by simpa using hlast) (by omega)
    simp only [Function.onFun, List.getElem_range, if_true, show p - 1 ≠ p by omega, if_false] at hd
    have hsize : (p - 1) * size + size = p * size := by
      rw [← Nat.succ_mul, Nat.succ_eq_add_one, show p - 1 + 1 = p by omega]
    apply hd (a := x)
    · exact (mem_slice_iff _ _ _ _).mpr ⟨p * size - 1, by omega, by omega, hx⟩
    · exact (mem_slice_iff _ _ _ _).mpr ⟨p * size, le_rfl, by omega, hx'⟩
  · intro hb arrangement hp ho
    apply (flatMap_slice_perm arrangement hp ho hb _).trans
    rw [List.filter_eq_self.mpr]
    intro x _
    rw [decide_eq_true_eq]
    exact List.countP_le_length.trans (le_pageCount_mul hs)

end Ties

end EBank.Paging
