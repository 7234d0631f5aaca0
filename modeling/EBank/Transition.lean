import Mathlib.Algebra.Ring.Nat
import Mathlib.Data.Nat.Notation
import Mathlib.Logic.Basic
import Mathlib.Tactic.SplitIfs

namespace EBank.Transition

variable {σ α : Type*} {step : σ → α → σ → Prop} {allowed : σ → α → Prop} {start s : σ}

inductive Run (step : σ → α → σ → Prop) (allowed : σ → α → Prop) (start : σ) : σ → Prop
  | start : Run step allowed start start
  | step {s s' : σ} {a : α} (run : Run step allowed start s) (may : allowed s a) (next : step s a s') :
      Run step allowed start s'

theorem Run.invariant {Inv : σ → Prop} (h : Run step allowed start s) (hstart : Inv start)
    (hstep : ∀ s a s', Inv s → allowed s a → step s a s' → Inv s') : Inv s := by
  induction h with
  | start => exact hstart
  | step run may next ih => exact hstep _ _ _ ih may next

theorem Run.weaken {allowed' : σ → α → Prop} (h : Run step allowed start s)
    (hallowed : ∀ s a, allowed s a → allowed' s a) : Run step allowed' start s := by
  induction h with
  | start => exact .start
  | step run may next ih => exact ih.step (hallowed _ _ may) next

theorem Run.simulates {τ β : Type*} {step' : τ → β → τ → Prop} {allowed' : τ → β → Prop} {Inv : σ → Prop}
    (f : σ → τ) (h : Run step allowed start s) (hstart : Inv start)
    (hinv : ∀ s a s', Inv s → step s a s' → Inv s')
    (hstep : ∀ s a s', Inv s → allowed s a → step s a s' →
      f s' = f s ∨ ∃ b, allowed' (f s) b ∧ step' (f s) b (f s')) :
    Run step' allowed' (f start) (f s) := by
  have hboth : Inv s ∧ Run step' allowed' (f start) (f s) := by
    apply h.invariant
    · exact ⟨hstart, .start⟩
    · rintro s a s' ⟨hs, hrun⟩ hmay hnext
      refine ⟨hinv s a s' hs hnext, ?_⟩
      rcases hstep s a s' hs hmay hnext with hsame | ⟨b, hb, hb'⟩
      · rwa [hsame]
      · exact hrun.step hb hb'
  exact hboth.2

inductive Trace (step : σ → α → σ → Prop) : σ → List α → σ → Prop
  | nil (s : σ) : Trace step s [] s
  | cons {s s' s'' : σ} {a : α} {as : List α} (next : step s a s') (rest : Trace step s' as s'') :
      Trace step s (a :: as) s''

theorem Trace.invariant (Inv : σ → Prop) {as : List α} {s' : σ} (h : Trace step s as s') (hs : Inv s)
    (hinv : ∀ s a s', Inv s → step s a s' → Inv s') : Inv s' := by
  induction h with
  | nil s => exact hs
  | cons next rest ih => exact ih (hinv _ _ _ hs next)

theorem Trace.append {as bs : List α} {s s' s'' : σ} (h : Trace step s as s') (h' : Trace step s' bs s'') :
    Trace step s (as ++ bs) s'' := by
  induction h with
  | nil s => exact h'
  | cons next rest ih => exact .cons next (ih h')

theorem Trace.split {as bs : List α} {s s'' : σ} (h : Trace step s (as ++ bs) s'') :
    ∃ s', Trace step s as s' ∧ Trace step s' bs s'' := by
  induction as generalizing s with
  | nil => exact ⟨s, .nil s, h⟩
  | cons a as ih =>
    cases h with
    | cons next rest =>
      obtain ⟨s', has, hbs⟩ := ih rest
      exact ⟨s', .cons next has, hbs⟩

theorem Run.trace (h : Run step allowed start s) : ∃ as, Trace step start as s := by
  induction h with
  | start => exact ⟨[], .nil _⟩
  | step run may next ih =>
    obtain ⟨as, has⟩ := ih
    exact ⟨_, has.append (.cons next (.nil _))⟩

theorem Trace.measure_le {Inv : σ → Prop} {as : List α} {s' : σ} {spends gains : α → Bool} {n : ℕ}
    (measure : σ → ℕ) (h : Trace step s as s') (hs : Inv s)
    (hinv : ∀ s a s', Inv s → step s a s' → Inv s')
    (hmeasure : ∀ s a s', Inv s → step s a s' →
      measure s' + (if spends a then 1 else 0) ≤ measure s + (if gains a then n else 0)) :
    measure s' + as.countP spends ≤ measure s + n * as.countP gains := by
  induction h with
  | nil s => simp
  | @cons s s' s'' a as next rest ih =>
    have hfirst := hmeasure _ _ _ hs next
    have hrest := ih (hinv _ _ _ hs next)
    have hgains : n * (a :: as).countP gains = n * as.countP gains + (if gains a then n else 0) := by
      rw [List.countP_cons, Nat.mul_add]
      split_ifs <;> simp
    have hspends : (a :: as).countP spends = as.countP spends + (if spends a then 1 else 0) :=
      List.countP_cons
    omega

theorem Trace.measure_between {Inv : σ → Prop} {as : List α} {s' : σ} {low high : α → ℕ} (measure : σ → ℕ)
    (h : Trace step s as s') (hs : Inv s) (hinv : ∀ s a s', Inv s → step s a s' → Inv s')
    (hmeasure : ∀ s a s', Inv s → step s a s' →
      measure s + low a ≤ measure s' ∧ measure s' ≤ measure s + high a) :
    measure s + (as.map low).sum ≤ measure s' ∧ measure s' ≤ measure s + (as.map high).sum := by
  induction h with
  | nil s => simp
  | cons next rest ih =>
    have hfirst := hmeasure _ _ _ hs next
    have hrest := ih (hinv _ _ _ hs next)
    rw [List.map_cons, List.sum_cons, List.map_cons, List.sum_cons]
    omega

end EBank.Transition
