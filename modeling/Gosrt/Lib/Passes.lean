import Mathlib.Data.List.Basic

/-!
# `Gosrt.Lib.Passes`: passes over a list with a register

Some ciphers run over a list of blocks with a register that goes from block to block: a step
takes the register and a block to a new register and a new block. `forward` is such a pass,
with a step number that counts up. `backward` runs the inverse steps from the last block to
the first. `forwardRounds` and `backwardRounds` repeat the pass.

When each step has an inverse, the backward pass undoes the forward pass, and so do the
rounds. The steps need be invertible only on registers and blocks with the properties `P`
and `Q`, which the steps keep.
-/

set_option autoImplicit false

namespace Gosrt.Lib

section
variable {α β : Type} (f g : Nat → α → β → α × β)

/-- One pass from the first block to the last. `t` is the number of the first step. -/
def forward : Nat → α → List β → α × List β
  | _, a, [] => (a, [])
  | t, a, r :: rs =>
    let (a, r) := f t a r
    let (a, rs) := forward (t + 1) a rs
    (a, r :: rs)

/-- One pass from the last block to the first. -/
def backward : Nat → α → List β → α × List β
  | _, a, [] => (a, [])
  | t, a, r :: rs =>
    let (a, rs) := backward (t + 1) a rs
    let (a, r) := g t a r
    (a, r :: rs)

/-- The passes number `0` to `k - 1`. A pass has `n` steps, and the step numbers start from
`1`. -/
def forwardRounds (n : Nat) : Nat → α × List β → α × List β
  | 0, s => s
  | k + 1, s =>
    let s := forwardRounds n k s
    forward f (k * n + 1) s.1 s.2

/-- The passes number `k - 1` down to `0`, backward. -/
def backwardRounds (n : Nat) : Nat → α × List β → α × List β
  | 0, s => s
  | k + 1, s => backwardRounds n k (backward g (k * n + 1) s.1 s.2)

end

section
variable {α β : Type} {f g : Nat → α → β → α × β} {P : α → Prop} {Q : β → Prop}

/-- The step `g` undoes the step `f` on registers with `P` and blocks with `Q`, and `f`
keeps both. -/
structure Inverse (f g : Nat → α → β → α × β) (P : α → Prop) (Q : β → Prop) : Prop where
  left_inv : ∀ t a r, P a → Q r → g t (f t a r).1 (f t a r).2 = (a, r)
  register : ∀ t a r, P a → Q r → P (f t a r).1
  block : ∀ t a r, P a → Q r → Q (f t a r).2

/-- A pass keeps the properties and the number of blocks. -/
theorem forward_keeps (h : Inverse f g P Q) :
    ∀ (rs : List β) (t : Nat) (a : α), P a → (∀ r ∈ rs, Q r) →
      P (forward f t a rs).1 ∧ (∀ r ∈ (forward f t a rs).2, Q r) ∧
        (forward f t a rs).2.length = rs.length := by
  intro rs
  induction rs with
  | nil =>
    intro t a ha hrs
    exact ⟨ha, hrs, rfl⟩
  | cons r rs ih =>
    intro t a ha hrs
    have hr := hrs r (by simp)
    obtain ⟨h1, h2, h3⟩ := ih (t + 1) (f t a r).1 (h.register t a r ha hr)
      (fun x hx => hrs x (by simp [hx]))
    refine ⟨h1, ?_, ?_⟩
    · intro x hx
      rcases List.mem_cons.mp hx with rfl | hx
      · exact h.block t a r ha hr
      · exact h2 x hx
    · show (forward f (t + 1) (f t a r).1 rs).2.length + 1 = rs.length + 1
      rw [h3]

/-- The backward pass undoes the forward pass. -/
theorem backward_forward (h : Inverse f g P Q) :
    ∀ (rs : List β) (t : Nat) (a : α), P a → (∀ r ∈ rs, Q r) →
      backward g t (forward f t a rs).1 (forward f t a rs).2 = (a, rs) := by
  intro rs
  induction rs with
  | nil =>
    intro t a _ _
    rfl
  | cons r rs ih =>
    intro t a ha hrs
    have hr := hrs r (by simp)
    have ih' := ih (t + 1) (f t a r).1 (h.register t a r ha hr)
      (fun x hx => hrs x (by simp [hx]))
    -- The rest of the list comes back first, with the register that its pass started from.
    show ((g t (backward g (t + 1) (forward f (t + 1) (f t a r).1 rs).1
        (forward f (t + 1) (f t a r).1 rs).2).1 (f t a r).2).1,
      (g t (backward g (t + 1) (forward f (t + 1) (f t a r).1 rs).1
        (forward f (t + 1) (f t a r).1 rs).2).1 (f t a r).2).2 ::
        (backward g (t + 1) (forward f (t + 1) (f t a r).1 rs).1
          (forward f (t + 1) (f t a r).1 rs).2).2) = (a, r :: rs)
    rw [ih', h.left_inv t a r ha hr]

theorem forwardRounds_keeps (h : Inverse f g P Q) (n : Nat) :
    ∀ (k : Nat) (s : α × List β), P s.1 → (∀ r ∈ s.2, Q r) →
      P (forwardRounds f n k s).1 ∧ (∀ r ∈ (forwardRounds f n k s).2, Q r) ∧
        (forwardRounds f n k s).2.length = s.2.length := by
  intro k
  induction k with
  | zero =>
    intro s ha hrs
    exact ⟨ha, hrs, rfl⟩
  | succ k ih =>
    intro s ha hrs
    obtain ⟨h1, h2, h3⟩ := ih s ha hrs
    obtain ⟨h4, h5, h6⟩ := forward_keeps h (forwardRounds f n k s).2 (k * n + 1) _ h1 h2
    exact ⟨h4, h5, h6.trans h3⟩

/-- The backward rounds undo the forward rounds. -/
theorem backwardRounds_forwardRounds (h : Inverse f g P Q) (n : Nat) :
    ∀ (k : Nat) (s : α × List β), P s.1 → (∀ r ∈ s.2, Q r) →
      backwardRounds g n k (forwardRounds f n k s) = s := by
  intro k
  induction k with
  | zero =>
    intro s _ _
    rfl
  | succ k ih =>
    intro s ha hrs
    obtain ⟨h1, h2, -⟩ := forwardRounds_keeps h n k s ha hrs
    show backwardRounds g n k (backward g (k * n + 1)
      (forward f (k * n + 1) (forwardRounds f n k s).1 (forwardRounds f n k s).2).1
      (forward f (k * n + 1) (forwardRounds f n k s).1 (forwardRounds f n k s).2).2) = s
    rw [backward_forward h _ _ _ h1 h2]
    exact ih s ha hrs

end

end Gosrt.Lib
