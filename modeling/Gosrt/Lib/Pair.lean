import Gosrt.Lib.Run

/-!
# `Gosrt.Lib.Pair`: two parties and a network that keeps every message

Both parties are of the same kind. A `Party` acts on its own, or it takes a message of the other
one, and each time it may send messages. The network keeps what was sent for good, so a message
can be delivered late, in another order, many times, or never.

An invariant of the system is a relation `I x y sent received` that is read from one of the two:
its state, the state of the other one, what it sent and what was sent to it. `run_both` is the
rule: a step of `x` keeps `I` in both roles, as the first party and as the second. `run_moves` is
the rule for what a party does by itself, whatever it is sent.
-/

set_option autoImplicit false

namespace Gosrt.Lib

/-- A party has states `σ` and messages `μ`. It acts by an `ε`, and takes a message with an input
`ι` of its environment. `none` means that this cannot happen. -/
structure Party (σ ε ι μ : Type) where
  act : σ → ε → Option (σ × List μ)
  receive : σ → μ → ι → Option (σ × List μ)

/-- Two parties, and all that each of them sent. -/
structure Pair (σ μ : Type) where
  left : σ
  right : σ
  fromLeft : List μ
  fromRight : List μ
  deriving DecidableEq, Repr

/-- One of the two parties. -/
inductive Side where
  | left
  | right
  deriving DecidableEq, Repr

namespace Pair

/-- What happens at a side. An index names a message of the other side. -/
inductive Event (ε ι : Type) where
  | act (side : Side) (e : ε)
  | receive (side : Side) (index : Nat) (i : ι)
  deriving DecidableEq, Repr

variable {σ ε ι μ : Type}

/-- Nothing was sent yet. -/
def init (left right : σ) : Pair σ μ := ⟨left, right, [], []⟩

/-- The same two parties, read from the other side. -/
def swap (s : Pair σ μ) : Pair σ μ := ⟨s.right, s.left, s.fromRight, s.fromLeft⟩

/-- The left party after a step of its own. -/
def put (s : Pair σ μ) (out : σ × List μ) : Pair σ μ :=
  { s with left := out.1, fromLeft := s.fromLeft ++ out.2 }

/-- The left party acts. -/
def actLeft (party : Party σ ε ι μ) (s : Pair σ μ) (e : ε) : Option (Pair σ μ) :=
  (party.act s.left e).map s.put

/-- The left party takes a message of the other one. -/
def receiveLeft (party : Party σ ε ι μ) (s : Pair σ μ) (index : Nat) (i : ι) :
    Option (Pair σ μ) := do
  let m ← s.fromRight[index]?
  (party.receive s.left m i).map s.put

/-- A step of either party. The right one is the left one of the swapped pair. -/
def step (party : Party σ ε ι μ) (s : Pair σ μ) : Event ε ι → Option (Pair σ μ)
  | .act .left e => s.actLeft party e
  | .act .right e => (s.swap.actLeft party e).map swap
  | .receive .left index i => s.receiveLeft party index i
  | .receive .right index i => (s.swap.receiveLeft party index i).map swap

section
variable {party : Party σ ε ι μ} {s : Pair σ μ} {e : ε} {index : Nat} {i : ι} {m : μ}
  {out : σ × List μ}

theorem step_act_left (h : party.act s.left e = some out) :
    s.step party (.act .left e) =
      some { s with left := out.1, fromLeft := s.fromLeft ++ out.2 } := by
  simp [step, actLeft, h, put]

theorem step_act_right (h : party.act s.right e = some out) :
    s.step party (.act .right e) =
      some { s with right := out.1, fromRight := s.fromRight ++ out.2 } := by
  simp [step, actLeft, swap, h, put]

theorem step_receive_left (hm : s.fromRight[index]? = some m)
    (h : party.receive s.left m i = some out) :
    s.step party (.receive .left index i) =
      some { s with left := out.1, fromLeft := s.fromLeft ++ out.2 } := by
  simp [step, receiveLeft, hm, h, put]

theorem step_receive_right (hm : s.fromLeft[index]? = some m)
    (h : party.receive s.right m i = some out) :
    s.step party (.receive .right index i) =
      some { s with right := out.1, fromRight := s.fromRight ++ out.2 } := by
  simp [step, receiveLeft, swap, hm, h, put]

end

/-- The relation holds of both parties. -/
def Both (I : σ → σ → List μ → List μ → Prop) (s : Pair σ μ) : Prop :=
  I s.left s.right s.fromLeft s.fromRight ∧ I s.right s.left s.fromRight s.fromLeft

section
variable {party : Party σ ε ι μ} {I : σ → σ → List μ → List μ → Prop} {s s' : Pair σ μ}

theorem Both.swap (h : Both I s) : Both I s.swap := ⟨h.2, h.1⟩

/-- What a step keeps in both roles. -/
structure Keeps (party : Party σ ε ι μ) (I : σ → σ → List μ → List μ → Prop) : Prop where
  act : ∀ {x y sent received e out}, I x y sent received → I y x received sent →
    party.act x e = some out →
    I out.1 y (sent ++ out.2) received ∧ I y out.1 received (sent ++ out.2)
  receive : ∀ {x y sent received m i out}, I x y sent received → I y x received sent →
    m ∈ received → party.receive x m i = some out →
    I out.1 y (sent ++ out.2) received ∧ I y out.1 received (sent ++ out.2)

/-- The left party acts, and both keep the invariant. -/
theorem Keeps.actLeft (hkeeps : Keeps party I) (h : Both I s) {e : ε}
    (hs : s.actLeft party e = some s') : Both I s' := by
  obtain ⟨out, hout, rfl⟩ := Option.map_eq_some_iff.mp hs
  exact hkeeps.act h.1 h.2 hout

/-- The left party takes a message, and both keep the invariant. -/
theorem Keeps.receiveLeft (hkeeps : Keeps party I) (h : Both I s) {index : Nat} {i : ι}
    (hs : s.receiveLeft party index i = some s') : Both I s' := by
  obtain ⟨m, hm, hs⟩ := Option.bind_eq_some_iff.mp hs
  obtain ⟨out, hout, rfl⟩ := Option.map_eq_some_iff.mp hs
  exact hkeeps.receive h.1 h.2 (List.mem_of_getElem? hm) hout

/-- Every step keeps the invariant of both parties. -/
theorem Keeps.step (hkeeps : Keeps party I) (h : Both I s) {e : Event ε ι}
    (hs : s.step party e = some s') : Both I s' := by
  -- A step on the right is a step on the left of the swapped pair.
  match e, hs with
  | .act .left _, hs => exact hkeeps.actLeft h hs
  | .receive .left _ _, hs => exact hkeeps.receiveLeft h hs
  | .act .right _, hs =>
    obtain ⟨t, ht, rfl⟩ := Option.map_eq_some_iff.mp hs
    exact (hkeeps.actLeft h.swap ht).swap
  | .receive .right _ _, hs =>
    obtain ⟨t, ht, rfl⟩ := Option.map_eq_some_iff.mp hs
    exact (hkeeps.receiveLeft h.swap ht).swap

/-- The rule for runs. -/
theorem run_both (hkeeps : Keeps party I) (h : Both I s) {events : List (Event ε ι)}
    (hrun : run (step party) s events = some s') : Both I s' :=
  run_induct (Both I) (fun _ _ _ hb hs => hkeeps.step hb hs) h hrun

/-- A relation that every step of a party is in, from the state before to the state after. -/
structure Moves (party : Party σ ε ι μ) (R : σ → σ → Prop) : Prop where
  refl : ∀ x, R x x
  trans : ∀ {x y z}, R x y → R y z → R x z
  act : ∀ {x e out}, party.act x e = some out → R x out.1
  receive : ∀ {x m i out}, party.receive x m i = some out → R x out.1

variable {R : σ → σ → Prop}

theorem Moves.actLeft (hmoves : Moves party R) {e : ε} (hs : s.actLeft party e = some s') :
    R s.left s'.left ∧ R s.right s'.right := by
  obtain ⟨out, hout, rfl⟩ := Option.map_eq_some_iff.mp hs
  exact ⟨hmoves.act hout, hmoves.refl _⟩

theorem Moves.receiveLeft (hmoves : Moves party R) {index : Nat} {i : ι}
    (hs : s.receiveLeft party index i = some s') : R s.left s'.left ∧ R s.right s'.right := by
  obtain ⟨m, -, hs⟩ := Option.bind_eq_some_iff.mp hs
  obtain ⟨out, hout, rfl⟩ := Option.map_eq_some_iff.mp hs
  exact ⟨hmoves.receive hout, hmoves.refl _⟩

/-- Every step moves both parties along the relation. -/
theorem Moves.step (hmoves : Moves party R) {e : Event ε ι} (hs : s.step party e = some s') :
    R s.left s'.left ∧ R s.right s'.right := by
  match e, hs with
  | .act .left _, hs => exact hmoves.actLeft hs
  | .receive .left _ _, hs => exact hmoves.receiveLeft hs
  | .act .right _, hs =>
    obtain ⟨t, ht, rfl⟩ := Option.map_eq_some_iff.mp hs
    exact (hmoves.actLeft ht).symm
  | .receive .right _ _, hs =>
    obtain ⟨t, ht, rfl⟩ := Option.map_eq_some_iff.mp hs
    exact (hmoves.receiveLeft ht).symm

/-- In a run each side only moves along the relation. -/
theorem run_moves (hmoves : Moves party R) {events : List (Event ε ι)}
    (hrun : run (step party) s events = some s') : R s.left s'.left ∧ R s.right s'.right := by
  refine run_induct (fun t => R s.left t.left ∧ R s.right t.right) ?_
    ⟨hmoves.refl _, hmoves.refl _⟩ hrun
  intro t e t' ht hs
  obtain ⟨hleft, hright⟩ := hmoves.step hs
  exact ⟨hmoves.trans ht.1 hleft, hmoves.trans ht.2 hright⟩

end

end Pair

end Gosrt.Lib
