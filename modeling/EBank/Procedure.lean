import Mathlib.Data.List.Basic
import Mathlib.Data.List.Nodup

namespace EBank.Procedure

variable {ε σ α β γ ρ κ : Type}

theorem bind_of_ok {x : EStateM ε σ α} {f : α → EStateM ε σ β} {s s' : σ} {a : α} (h : x s = .ok a s') :
    (x >>= f) s = f a s' := by
  change EStateM.bind x f s = _
  rw [EStateM.bind, h]

theorem bind_of_error {x : EStateM ε σ α} {f : α → EStateM ε σ β} {s s' : σ} {e : ε}
    (h : x s = .error e s') : (x >>= f) s = .error e s' := by
  change EStateM.bind x f s = _
  rw [EStateM.bind, h]

def Triple (P : σ → Prop) (x : EStateM ε σ α) (Q : α → σ → Prop) : Prop :=
  ∀ s, P s → ∃ a s', x s = .ok a s' ∧ Q a s'

namespace Triple

variable {P P' : σ → Prop} {Q Q' : α → σ → Prop}

theorem conseq {x : EStateM ε σ α} (h : Triple P x Q) (hP : ∀ s, P' s → P s) (hQ : ∀ a s, Q a s → Q' a s) :
    Triple P' x Q' := by
  intro s hs
  obtain ⟨a, s', hx, hq⟩ := h s (hP s hs)
  exact ⟨a, s', hx, hQ a s' hq⟩

theorem pure {a : α} (h : ∀ s, P s → Q a s) : Triple P (pure a : EStateM ε σ α) Q :=
  fun s hs => ⟨a, s, rfl, h s hs⟩

theorem bind {x : EStateM ε σ α} {f : α → EStateM ε σ β} {R : β → σ → Prop} (hx : Triple P x Q)
    (hf : ∀ a, Triple (Q a) (f a) R) : Triple P (x >>= f) R := by
  intro s hs
  obtain ⟨a, s', ha, hq⟩ := hx s hs
  obtain ⟨b, s'', hb, hr⟩ := hf a s' hq
  exact ⟨b, s'', (bind_of_ok ha).trans hb, hr⟩

theorem forM {xs : List γ} {body : γ → EStateM ε σ PUnit} {I : List γ → σ → Prop}
    (h : ∀ done x rest, xs = done ++ x :: rest → Triple (I done) (body x) (fun _ => I (done ++ [x]))) :
    Triple (I []) (xs.forM body) (fun _ => I xs) := by
  have hrest : ∀ rest done, xs = done ++ rest → Triple (I done) (rest.forM body) (fun _ => I xs) := by
    intro rest
    induction rest with
    | nil =>
      intro done hdone
      rw [List.append_nil] at hdone
      exact pure (fun s hs => hdone ▸ hs)
    | cons x rest ih =>
      intro done hdone
      exact (h done x rest hdone).bind (fun _ => ih (done ++ [x]) (by simpa using hdone))
  exact hrest xs [] rfl

end Triple

/-- The rows are one block after the other, one for each of the elements. -/
inductive Blocks (R : γ → List ρ → Prop) : List γ → List ρ → Prop where
  | nil : Blocks R [] []
  | cons {x : γ} {xs : List γ} {block rows : List ρ} (hR : R x block) (h : Blocks R xs rows) :
      Blocks R (x :: xs) (block ++ rows)

namespace Blocks

variable {R : γ → List ρ → Prop} {xs : List γ} {rows : List ρ}

theorem append {ys : List γ} {rows' : List ρ} (h : Blocks R xs rows) (h' : Blocks R ys rows') :
    Blocks R (xs ++ ys) (rows ++ rows') := by
  induction h with
  | nil => exact h'
  | cons hR h ih =>
    rw [List.cons_append, List.append_assoc]
    exact .cons hR ih

theorem single {x : γ} {block : List ρ} (hR : R x block) : Blocks R [x] block := by
  rw [← List.append_nil block]
  exact .cons hR .nil

theorem mem (h : Blocks R xs rows) {r : ρ} (hr : r ∈ rows) : ∃ x ∈ xs, ∃ block, R x block ∧ r ∈ block := by
  induction h with
  | nil => cases hr
  | cons hR h ih =>
    rcases List.mem_append.mp hr with hr | hr
    · exact ⟨_, List.mem_cons_self, _, hR, hr⟩
    · obtain ⟨x, hx, hblock⟩ := ih hr
      exact ⟨x, List.mem_cons_of_mem _ hx, hblock⟩

theorem length (h : Blocks R xs rows) {n : ℕ} (hR : ∀ x block, R x block → block.length = n) :
    rows.length = xs.length * n := by
  induction h with
  | nil => simp
  | cons hR' h ih => rw [List.length_append, hR _ _ hR', ih, List.length_cons, Nat.succ_mul, Nat.add_comm]

theorem filter [DecidableEq κ] (h : Blocks R xs rows) {key : γ → κ} (hkeys : (xs.map key).Nodup)
    (ref : ρ → Option κ) (href : ∀ x block, R x block → ∀ r ∈ block, ref r = some (key x)) {x : γ}
    (hx : x ∈ xs) : R x (rows.filter (fun r => ref r = some (key x))) := by
  induction h with
  | nil => cases hx
  | @cons y ys block rows hR h ih =>
    rw [List.map_cons, List.nodup_cons] at hkeys
    rw [List.filter_append]
    rcases List.mem_cons.mp hx with rfl | hx
    · have hblock : block.filter (fun r => ref r = some (key x)) = block := by
        rw [List.filter_eq_self]
        intro r hr
        simpa using href x block hR r hr
      have hrest : rows.filter (fun r => ref r = some (key x)) = [] := by
        rw [List.filter_eq_nil_iff]
        intro r hr
        obtain ⟨z, hz, block', hR', hr'⟩ := h.mem hr
        have hne : key z ≠ key x := by
          intro hkey
          exact hkeys.1 (hkey ▸ List.mem_map_of_mem hz)
        simpa [href z block' hR' r hr'] using hne
      rw [hblock, hrest, List.append_nil]
      exact hR
    · have hblock : block.filter (fun r => ref r = some (key x)) = [] := by
        rw [List.filter_eq_nil_iff]
        intro r hr
        have hne : key y ≠ key x := by
          intro hkey
          exact hkeys.1 (hkey ▸ List.mem_map_of_mem hx)
        simpa [href y block hR r hr] using hne
      rw [hblock, List.nil_append]
      exact ih hkeys.2 hx

theorem nodup_map (h : Blocks R xs rows) (hxs : xs.Nodup) (f : ρ → κ)
    (hself : ∀ x ∈ xs, ∀ block, R x block → (block.map f).Nodup)
    (hother : ∀ x ∈ xs, ∀ y ∈ xs, x ≠ y → ∀ block block', R x block → R y block' →
      (block.map f).Disjoint (block'.map f)) :
    (rows.map f).Nodup := by
  induction h with
  | nil => exact List.nodup_nil
  | @cons y ys block rows hR h ih =>
    obtain ⟨hy, hys⟩ := List.nodup_cons.mp hxs
    rw [List.map_append]
    apply List.Nodup.append (hself y List.mem_cons_self block hR)
    · apply ih hys
      · intro z hz
        exact hself z (List.mem_cons_of_mem _ hz)
      · intro z hz w hw
        exact hother z (List.mem_cons_of_mem _ hz) w (List.mem_cons_of_mem _ hw)
    · intro k hk hk'
      obtain ⟨r, hr, rfl⟩ := List.mem_map.mp hk'
      obtain ⟨z, hz, block', hR', hr'⟩ := h.mem hr
      have hne : y ≠ z := by
        rintro rfl
        exact hy hz
      exact hother y List.mem_cons_self z (List.mem_cons_of_mem _ hz) hne block block' hR hR' hk
        (List.mem_map_of_mem hr')

end Blocks

section Appending
variable (P : σ → Prop) (rows : σ → List ρ)

def Returns (Q : α → Prop) (x : EStateM ε σ α) : Prop :=
  ∀ before, Triple (fun s => P s ∧ rows s = before) x (fun a s => Q a ∧ P s ∧ rows s = before)

def Appends (R : List ρ → Prop) (x : EStateM ε σ PUnit) : Prop :=
  ∀ before, Triple (fun s => P s ∧ rows s = before) x
    (fun _ s => P s ∧ ∃ block, R block ∧ rows s = before ++ block)

variable {P rows}

theorem Returns.pure {Q : α → Prop} {a : α} (h : Q a) : Returns P rows Q (pure a : EStateM ε σ α) :=
  fun _ => Triple.pure (fun _ hs => ⟨h, hs⟩)

theorem Returns.bind_triple {Q : α → Prop} {R : β → σ → Prop} {before : List ρ} {x : EStateM ε σ α}
    {f : α → EStateM ε σ β} (hx : Returns P rows Q x)
    (hf : ∀ a, Q a → Triple (fun s => P s ∧ rows s = before) (f a) R) :
    Triple (fun s => P s ∧ rows s = before) (x >>= f) R := by
  apply (hx before).bind
  rintro a s ⟨ha, hs⟩
  exact hf a ha s hs

theorem Returns.bind {Q : α → Prop} {Q' : β → Prop} {x : EStateM ε σ α} {f : α → EStateM ε σ β}
    (hx : Returns P rows Q x) (hf : ∀ a, Q a → Returns P rows Q' (f a)) : Returns P rows Q' (x >>= f) :=
  fun before => hx.bind_triple (fun a ha => hf a ha before)

theorem Returns.bind_appends {Q : α → Prop} {R : List ρ → Prop} {x : EStateM ε σ α}
    {f : α → EStateM ε σ PUnit} (hx : Returns P rows Q x) (hf : ∀ a, Q a → Appends P rows R (f a)) :
    Appends P rows R (x >>= f) :=
  fun before => hx.bind_triple (fun a ha => hf a ha before)

theorem Appends.weaken {R R' : List ρ → Prop} {x : EStateM ε σ PUnit} (h : Appends P rows R x)
    (hR : ∀ block, R block → R' block) : Appends P rows R' x := by
  intro before
  apply (h before).conseq (fun _ hs => hs)
  rintro _ s ⟨hs, block, hblock, hrows⟩
  exact ⟨hs, block, hR block hblock, hrows⟩

theorem Appends.forM {xs : List γ} {body : γ → EStateM ε σ PUnit} {R : γ → List ρ → Prop}
    (h : ∀ x ∈ xs, Appends P rows (R x) (body x)) : Appends P rows (Blocks R xs) (xs.forM body) := by
  intro before
  let I : List γ → σ → Prop := fun done s => P s ∧ ∃ block, Blocks R done block ∧ rows s = before ++ block
  have hloop : Triple (I []) (xs.forM body) (fun _ => I xs) := by
    apply Triple.forM
    rintro done x rest hxs s ⟨hs, block, hblock, hrows⟩
    obtain ⟨u, s', hbody, hs', block', hR, hrows'⟩ := h x (by simp [hxs]) _ s ⟨hs, hrows⟩
    refine ⟨u, s', hbody, hs', _, hblock.append (.single hR), ?_⟩
    rw [hrows', List.append_assoc]
  apply hloop.conseq
  · rintro s ⟨hs, hrows⟩
    exact ⟨hs, [], .nil, by simpa using hrows⟩
  · intro _ s hs
    exact hs

end Appending

end EBank.Procedure
