import Mathlib.Data.List.Basic
import Mathlib.Logic.Function.Basic
import Mathlib.Tactic.Linarith

/-!
A lookup table filled by `computeIfAbsent` from a source that may answer nothing:
an empty answer is handed out but not stored, so the key is asked again.
-/

namespace EBank.Memo

variable {κ ν ε σ : Type} [DecidableEq κ]

def computeIfAbsent (table : κ → Option ν) (k : κ) (source : κ → σ → Except ε (Option ν) × σ) (s : σ) :
    Except ε (Option ν) × (κ → Option ν) × σ :=
  match table k with
  | some v => (.ok (some v), table, s)
  | none =>
    match source k s with
    | (.ok (some v), s') => (.ok (some v), Function.update table k (some v), s')
    | (.ok none, s') => (.ok none, table, s')
    | (.error e, s') => (.error e, table, s')

theorem computeIfAbsent_congr {source source' : κ → σ → Except ε (Option ν) × σ} {k : κ} {s : σ}
    (h : source k s = source' k s) (table : κ → Option ν) :
    computeIfAbsent table k source s = computeIfAbsent table k source' s := by
  rw [computeIfAbsent, computeIfAbsent, h]

theorem computeIfAbsent_other (table : κ → Option ν) {k k' : κ} (hk : k' ≠ k)
    (source : κ → σ → Except ε (Option ν) × σ) (s : σ) :
    (computeIfAbsent table k source s).2.1 k' = table k' := by
  unfold computeIfAbsent
  split
  · rfl
  · split
    · exact Function.update_of_ne hk _ _
    · rfl
    · rfl

theorem computeIfAbsent_ok {source : κ → σ → Except ε (Option ν) × σ} {k : κ} {s : σ}
    (h : ∃ v, (source k s).1 = .ok v) (table : κ → Option ν) :
    ∃ v, (computeIfAbsent table k source s).1 = .ok v := by
  obtain ⟨v, hv⟩ := h
  have hsplit : source k s = (.ok v, (source k s).2) := by rw [← hv]
  rw [computeIfAbsent, hsplit]
  cases table k with
  | some w => exact ⟨_, rfl⟩
  | none => cases v <;> exact ⟨_, rfl⟩

abbrev occurrences (ks : List κ) (k : κ) : ℕ := ks.count k

theorem occurrences_filter {p : κ → Bool} {k : κ} (h : p k = true) (ks : List κ) :
    occurrences (ks.filter p) k = occurrences ks k := List.count_filter h

def firstReply (replies : ℕ → Option ν) : ℕ → Option ν
  | 0 => none
  | n + 1 => (firstReply replies n).or (replies n)

theorem firstReply_eq_none_iff (replies : ℕ → Option ν) (n : ℕ) :
    firstReply replies n = none ↔ ∀ j < n, replies j = none := by
  induction n with
  | zero => simp [firstReply]
  | succ n ih =>
    rw [firstReply, Option.or_eq_none_iff, ih]
    constructor
    · rintro ⟨h, hn⟩ j hj
      rcases Nat.lt_succ_iff_lt_or_eq.mp hj with hj | rfl
      · exact h j hj
      · exact hn
    · intro h
      exact ⟨fun j hj => h j (by omega), h n (by omega)⟩

theorem firstReply_eq_some_iff (replies : ℕ → Option ν) (n : ℕ) (v : ν) :
    firstReply replies n = some v ↔ ∃ j < n, replies j = some v ∧ ∀ k < j, replies k = none := by
  induction n with
  | zero => simp [firstReply]
  | succ n ih =>
    rw [firstReply, Option.or_eq_some_iff, ih, firstReply_eq_none_iff]
    constructor
    · rintro (⟨j, hj, h⟩ | ⟨hnone, hv⟩)
      · exact ⟨j, by omega, h⟩
      · exact ⟨n, by omega, hv, hnone⟩
    · rintro ⟨j, hj, hv, hnone⟩
      rcases Nat.lt_succ_iff_lt_or_eq.mp hj with hj | rfl
      · exact .inl ⟨j, hj, hv, hnone⟩
      · exact .inr ⟨hnone, hv⟩

theorem firstReply_of_zero {replies : ℕ → Option ν} {v : ν} (h : replies 0 = some v) (n : ℕ) :
    firstReply replies (n + 1) = some v := by
  induction n with
  | zero => simp [firstReply, h]
  | succ n ih => rw [firstReply, ih, Option.some_or]

theorem firstReply_const (r : Option ν) (n : ℕ) : firstReply (fun _ => r) (n + 1) = r := by
  cases r with
  | none => simp [firstReply_eq_none_iff]
  | some v =>
    have h : (fun _ : ℕ => some v) 0 = some v := rfl
    exact firstReply_of_zero h n

/-- The source answers the `j`-th request for `k` with `replies k j`, whatever else was asked in between;
`R` relates its state to the number of requests made for each key. -/
def Plays (source : κ → σ → Except ε (Option ν) × σ) (replies : κ → ℕ → Option ν)
    (R : (κ → ℕ) → σ → Prop) : Prop :=
  ∀ asked s k, R asked s →
    ∃ s', source k s = (.ok (replies k (asked k)), s') ∧ R (Function.update asked k (asked k + 1)) s'

def scripted (replies : κ → ℕ → Option ν) (k : κ) (asked : κ → ℕ) : Except ε (Option ν) × (κ → ℕ) :=
  (.ok (replies k (asked k)), Function.update asked k (asked k + 1))

theorem scripted_plays (replies : κ → ℕ → Option ν) :
    Plays (scripted replies : κ → (κ → ℕ) → Except ε (Option ν) × (κ → ℕ)) replies Eq := by
  rintro asked s k rfl
  exact ⟨_, rfl, rfl⟩

theorem computeIfAbsent_scripted_le (replies : κ → ℕ → Option ν) (table : κ → Option ν) (k : κ)
    (asked : κ → ℕ) :
    asked ≤ (computeIfAbsent table k
      (scripted replies : κ → (κ → ℕ) → Except ε (Option ν) × (κ → ℕ)) asked).2.2 := by
  have hupdate : asked ≤ Function.update asked k (asked k + 1) :=
    le_update_iff.mpr ⟨Nat.le_succ _, fun _ _ => le_rfl⟩
  unfold computeIfAbsent scripted
  cases table k with
  | some v => exact le_rfl
  | none => cases replies k (asked k) <;> exact hupdate

theorem computeIfAbsent_scripted_congr {replies replies' : κ → ℕ → Option ν} {asked : κ → ℕ}
    (h : ∀ k j, asked k ≤ j → replies k j = replies' k j) (table : κ → Option ν) (k : κ) :
    (computeIfAbsent table k (scripted replies) asked : Except ε (Option ν) × (κ → Option ν) × (κ → ℕ)) =
      computeIfAbsent table k (scripted replies') asked := by
  unfold computeIfAbsent scripted
  rw [h k _ le_rfl]

theorem computeIfAbsent_replay {source : κ → σ → Except ε (Option ν) × σ}
    (hsource : ∀ k s, ∃ v, (source k s).1 = .ok v) (table : κ → Option ν) (k : κ) (s : σ) (asked : κ → ℕ) :
    ∃ v table' s' asked', computeIfAbsent table k source s = (.ok v, table', s') ∧
      ∀ later : κ → ℕ → Option ν, ∃ replies,
        (computeIfAbsent table k (scripted replies) asked : Except ε (Option ν) × (κ → Option ν) × (κ → ℕ)) =
          (.ok v, table', asked') ∧ ∀ k j, asked' k ≤ j → replies k j = later k j := by
  cases hk : table k with
  | some v =>
    refine ⟨some v, table, s, asked, by simp [computeIfAbsent, hk], ?_⟩
    intro later
    exact ⟨later, by simp [computeIfAbsent, hk], fun _ _ _ => rfl⟩
  | none =>
    obtain ⟨v, hv⟩ := hsource k s
    have hsplit : source k s = (.ok v, (source k s).2) := by rw [← hv]
    have hlater : ∀ later : κ → ℕ → Option ν, ∀ k' j, Function.update asked k (asked k + 1) k' ≤ j →
        Function.update later k (Function.update (later k) (asked k) v) k' j = later k' j := by
      intro later k' j hj
      by_cases hk' : k' = k
      · subst hk'
        rw [Function.update_self] at hj ⊢
        rw [Function.update_of_ne (by omega)]
      · rw [Function.update_of_ne hk']
    cases v with
    | none =>
      refine ⟨none, table, (source k s).2, Function.update asked k (asked k + 1), ?_, ?_⟩
      · simp only [computeIfAbsent, hk]
        rw [hsplit]
      · intro later
        exact ⟨_, by simp [computeIfAbsent, hk, scripted], hlater later⟩
    | some v =>
      refine ⟨some v, Function.update table k (some v), (source k s).2,
        Function.update asked k (asked k + 1), ?_, ?_⟩
      · simp only [computeIfAbsent, hk]
        rw [hsplit]
      · intro later
        exact ⟨_, by simp [computeIfAbsent, hk, scripted], hlater later⟩

theorem const_plays (answer : κ → Option ν) :
    Plays (fun k (s : σ) => ((.ok (answer k) : Except ε (Option ν)), s)) (fun k _ => answer k)
      (fun _ _ => True) :=
  fun _ s _ _ => ⟨s, rfl, trivial⟩

def Tracks (replies : κ → ℕ → Option ν) (R : (κ → ℕ) → σ → Prop) (ks : List κ) (table : κ → Option ν)
    (s : σ) : Prop :=
  ∃ asked, R asked s ∧
    ∀ k, table k = firstReply (replies k) (occurrences ks k) ∧ (table k = none → asked k = occurrences ks k)

theorem tracks_nil (replies : κ → ℕ → Option ν) {R : (κ → ℕ) → σ → Prop} {s : σ} (h : R (fun _ => 0) s) :
    Tracks replies R [] (fun _ => none) s :=
  ⟨_, h, fun _ => ⟨rfl, fun _ => rfl⟩⟩

theorem tracks_append {replies : κ → ℕ → Option ν} {R : (κ → ℕ) → σ → Prop} {ks : List κ}
    {table table' : κ → Option ν} {asked asked' : κ → ℕ} {k : κ} {s' : σ}
    (h : ∀ j, table j = firstReply (replies j) (occurrences ks j) ∧
      (table j = none → asked j = occurrences ks j))
    (hother : ∀ j, j ≠ k → table' j = table j ∧ asked' j = asked j)
    (htable : table' k = firstReply (replies k) (occurrences ks k + 1))
    (hasked : table' k = none → asked' k = occurrences ks k + 1) (hR : R asked' s') :
    Tracks replies R (ks ++ [k]) table' s' := by
  refine ⟨asked', hR, ?_⟩
  intro j
  by_cases hj : j = k
  · subst hj
    have hself : occurrences (ks ++ [j]) j = occurrences ks j + 1 := by simp [List.count_append]
    rw [hself]
    exact ⟨htable, hasked⟩
  · have hsame : occurrences (ks ++ [k]) j = occurrences ks j := by
      simp [List.count_append, Ne.symm hj]
    rw [hsame, (hother j hj).1, (hother j hj).2]
    exact h j

theorem computeIfAbsent_plays {source : κ → σ → Except ε (Option ν) × σ} {replies : κ → ℕ → Option ν}
    {R : (κ → ℕ) → σ → Prop} (hplays : Plays source replies R) {ks : List κ} {table : κ → Option ν} {s : σ}
    (h : Tracks replies R ks table s) (k : κ) :
    ∃ table' s', computeIfAbsent table k source s =
        (.ok (firstReply (replies k) (occurrences ks k + 1)), table', s') ∧
      Tracks replies R (ks ++ [k]) table' s' := by
  obtain ⟨asked, hR, htracks⟩ := h
  obtain ⟨htable, hasked⟩ := htracks k
  cases hk : table k with
  | some v =>
    have hfirst : firstReply (replies k) (occurrences ks k) = some v := by rw [← htable, hk]
    have hnext : firstReply (replies k) (occurrences ks k + 1) = some v := by
      rw [firstReply, hfirst, Option.some_or]
    refine ⟨table, s, by simp [computeIfAbsent, hk, hnext], ?_⟩
    apply tracks_append htracks (fun _ _ => ⟨rfl, rfl⟩) (by rw [hnext, hk]) _ hR
    intro hnone
    simp [hk] at hnone
  | none =>
    have hfirst : firstReply (replies k) (occurrences ks k) = none := by rw [← htable, hk]
    have hnext : firstReply (replies k) (occurrences ks k + 1) = replies k (asked k) := by
      rw [firstReply, hfirst, Option.none_or, hasked hk]
    obtain ⟨s', hsource, hR'⟩ := hplays asked s k hR
    cases hr : replies k (asked k) with
    | some v =>
      refine ⟨Function.update table k (some v), s',
        by simp [computeIfAbsent, hk, hsource, hr, hnext], ?_⟩
      apply tracks_append htracks _ _ _ hR'
      · intro j hj
        exact ⟨Function.update_of_ne hj _ _, Function.update_of_ne hj _ _⟩
      · rw [hnext, hr, Function.update_self]
      · simp
    | none =>
      refine ⟨table, s', by simp [computeIfAbsent, hk, hsource, hr, hnext], ?_⟩
      apply tracks_append htracks _ _ _ hR'
      · intro j hj
        exact ⟨rfl, Function.update_of_ne hj _ _⟩
      · rw [hnext, hr, hk]
      · intro _
        rw [Function.update_self, hasked hk]

theorem exists_occurrence (l : List κ) (k : κ) (j : ℕ) (hj : j < occurrences l k) :
    ∃ i, ∃ h : i < l.length, l[i] = k ∧ occurrences (l.take i) k = j := by
  induction l generalizing j with
  | nil => simp at hj
  | cons x xs ih =>
    by_cases hx : x = k
    · subst hx
      cases j with
      | zero => exact ⟨0, by simp, rfl, by simp⟩
      | succ j =>
        obtain ⟨i, hi, he, hc⟩ := ih j (by simpa using hj)
        exact ⟨i + 1, by simpa using hi, by simpa using he, by simp [hc]⟩
    · obtain ⟨i, hi, he, hc⟩ := ih j (by simpa [List.count_cons, hx] using hj)
      exact ⟨i + 1, by simpa using hi, by simpa using he, by simp [hx, hc]⟩

theorem occurrences_take_lt (l : List κ) (i : ℕ) (hi : i < l.length) :
    occurrences (l.take i) l[i] < occurrences l l[i] := by
  have hsplit : occurrences l l[i] = occurrences (l.take i) l[i] + occurrences (l.drop i) l[i] := by
    rw [← List.count_append, List.take_append_drop]
  have hhead : 0 < occurrences (l.drop i) l[i] := by
    apply List.count_pos_iff.mpr
    exact List.drop_eq_getElem_cons hi ▸ List.mem_cons_self
  omega

section Recorded
variable {source : κ → σ → Except ε (Option ν) × σ}

def recorded (source : κ → σ → Except ε (Option ν) × σ) (k : κ) (s : σ × List (κ × Except ε (Option ν))) :
    Except ε (Option ν) × σ × List (κ × Except ε (Option ν)) :=
  ((source k s.1).1, (source k s.1).2, s.2 ++ [(k, (source k s.1).1)])

def answersTo (log : List (κ × Except ε (Option ν))) (k : κ) : List (Except ε (Option ν)) :=
  (log.filter (fun request => request.1 = k)).map Prod.snd

theorem answersTo_append_self (log : List (κ × Except ε (Option ν))) (k : κ) (answer : Except ε (Option ν)) :
    answersTo (log ++ [(k, answer)]) k = answersTo log k ++ [answer] := by
  simp [answersTo]

theorem answersTo_append_other (log : List (κ × Except ε (Option ν))) {j k : κ} (h : j ≠ k)
    (answer : Except ε (Option ν)) : answersTo (log ++ [(k, answer)]) j = answersTo log j := by
  simp [answersTo, Ne.symm h]

theorem computeIfAbsent_recorded_hit {table : κ → Option ν} {k : κ} {v : ν} (h : table k = some v)
    (s : σ × List (κ × Except ε (Option ν))) :
    computeIfAbsent table k (recorded source) s = (.ok (some v), table, s) := by
  rw [computeIfAbsent, h]

structure Asked (ks : List κ) (table : κ → Option ν) (log : List (κ × Except ε (Option ν))) : Prop where
  order : (log.map Prod.fst).Sublist ks
  unanswered : ∀ k, table k = none → answersTo log k = List.replicate (occurrences ks k) (.ok none)
  answered : ∀ k v, table k = some v →
    ∃ n < occurrences ks k, answersTo log k = List.replicate n (.ok none) ++ [.ok (some v)]

theorem asked_nil : Asked [] (fun _ => none) ([] : List (κ × Except ε (Option ν))) :=
  ⟨List.Sublist.slnil, fun _ _ => rfl, fun _ _ h => by cases h⟩

theorem occurrences_append_self (ks : List κ) (k : κ) : occurrences (ks ++ [k]) k = occurrences ks k + 1 := by
  simp

theorem occurrences_mono {ks ks' : List κ} (h : ks.Sublist ks') (k : κ) : occurrences ks k ≤ occurrences ks' k :=
  h.count_le k

theorem occurrences_append_other (ks : List κ) {j k : κ} (h : j ≠ k) :
    occurrences (ks ++ [k]) j = occurrences ks j := by
  simp [Ne.symm h]

namespace Asked

variable {ks : List κ} {table : κ → Option ν} {log : List (κ × Except ε (Option ν))}
  (h : Asked ks table log) {k : κ}
include h

theorem hit {v : ν} (hk : table k = some v) : Asked (ks ++ [k]) table log where
  order := h.order.trans (List.sublist_append_left ks [k])
  unanswered j hj := by
    have hne : j ≠ k := by
      rintro rfl
      rw [hk] at hj
      cases hj
    rw [occurrences_append_other ks hne]
    exact h.unanswered j hj
  answered j w hj := by
    obtain ⟨n, hn, hanswers⟩ := h.answered j w hj
    refine ⟨n, hn.trans_le ?_, hanswers⟩
    exact occurrences_mono (List.sublist_append_left ks [k]) j

theorem miss {answer : Option ν} (hk : table k = none) :
    Asked (ks ++ [k]) (Function.update table k answer) (log ++ [(k, .ok answer)]) where
  order := by
    rw [List.map_append]
    exact h.order.append (List.Sublist.refl [k])
  unanswered j hj := by
    by_cases hjk : j = k
    · subst hjk
      rw [Function.update_self] at hj
      rw [answersTo_append_self, h.unanswered j hk, hj, occurrences_append_self, List.replicate_succ']
    · rw [Function.update_of_ne hjk] at hj
      rw [answersTo_append_other log hjk, occurrences_append_other ks hjk]
      exact h.unanswered j hj
  answered j w hj := by
    by_cases hjk : j = k
    · subst hjk
      rw [Function.update_self] at hj
      refine ⟨occurrences ks j, ?_, ?_⟩
      · rw [occurrences_append_self]
        exact Nat.lt_succ_self _
      · rw [answersTo_append_self, h.unanswered j hk, hj]
    · rw [Function.update_of_ne hjk] at hj
      rw [answersTo_append_other log hjk, occurrences_append_other ks hjk]
      exact h.answered j w hj

theorem lookup (source : κ → σ → Except ε (Option ν) × σ) (k : κ) (s : σ) :
    (∃ answer table' s' log', computeIfAbsent table k (recorded source) (s, log) =
        (.ok answer, table', s', log') ∧
      computeIfAbsent table k source s = (.ok answer, table', s') ∧ Asked (ks ++ [k]) table' log') ∨
    ∃ e s', computeIfAbsent table k (recorded source) (s, log) =
        (.error e, table, s', log ++ [(k, .error e)]) ∧
      computeIfAbsent table k source s = (.error e, table, s') ∧ table k = none := by
  cases hk : table k with
  | some v =>
    refine .inl ⟨some v, table, s, log, computeIfAbsent_recorded_hit hk (s, log), ?_, h.hit hk⟩
    rw [computeIfAbsent, hk]
  | none =>
    have hsource : ∀ r s', source k s = (r, s') → recorded source k (s, log) = (r, s', log ++ [(k, r)]) := by
      intro r s' hrs
      rw [recorded, hrs]
    rcases hs : source k s with ⟨e | _ | v, s'⟩
    · right
      refine ⟨e, s', ?_, ?_, rfl⟩
      · simp only [computeIfAbsent, hk, hsource _ _ hs]
      · simp only [computeIfAbsent, hk, hs]
    · left
      have hmiss : Asked (ks ++ [k]) (Function.update table k none) (log ++ [(k, .ok none)]) := h.miss hk
      rw [← hk, Function.update_eq_self, hk] at hmiss
      refine ⟨none, table, s', log ++ [(k, .ok none)], ?_, ?_, hmiss⟩
      · simp only [computeIfAbsent, hk, hsource _ _ hs]
      · simp only [computeIfAbsent, hk, hs]
    · left
      refine ⟨some v, Function.update table k (some v), s', log ++ [(k, .ok (some v))], ?_, ?_, h.miss hk⟩
      · simp only [computeIfAbsent, hk, hsource _ _ hs]
      · simp only [computeIfAbsent, hk, hs]

end Asked

end Recorded

end EBank.Memo
