/-!
# `Gosrt.Lib.Go`: results of Go calls

A Go call returns a value, returns an error, or panics. `Go α` is the result as a value:
`Except` with a `Fault` that tells an error from a panic. An operation on a slice that can
be out of range is an `Option`, and `orPanic` turns its `none` into a panic.

`NoPanic` is the safety property. `noPanic_bind` follows a `do` block: the call is safe and
what comes after it is safe for each value it can return.
-/

set_option autoImplicit false

namespace Gosrt.Lib

/-- How a call ends without a value. -/
inductive Fault where
  /-- A run-time panic, such as an index out of range. -/
  | panic
  /-- A returned `error`, by its text. -/
  | error (message : String)
  deriving DecidableEq, Repr

/-- The text of an error. -/
def Fault.text : Fault → String
  | .panic => ""
  | .error message => message

/-- The result of a call. -/
abbrev Go (α : Type) := Except Fault α

variable {α β : Type}

instance [DecidableEq α] : DecidableEq (Go α)
  | .ok a, .ok b => decidable_of_iff (a = b) (by simp)
  | .error e, .error f => decidable_of_iff (e = f) (by simp)
  | .ok _, .error _ => isFalse (by simp)
  | .error _, .ok _ => isFalse (by simp)

/-- `return fmt.Errorf(message)`. -/
def Go.err (message : String) : Go α := .error (.error message)

/-- `return fmt.Errorf("context: %w", err)` when the call returns an error. -/
def Go.wrap (context : String) : Go α → Go α
  | .error (.error message) => .error (.error (context ++ ": " ++ message))
  | x => x

/-- `if err != nil { … }` after a call: `none` is a returned error. -/
def Go.attempt : Go α → Go (Option α)
  | .ok a => .ok (some a)
  | .error (.error _) => .ok none
  | .error .panic => .error .panic

/-- An operation that panics where it has no value. -/
def orPanic : Option α → Go α
  | some a => .ok a
  | none => .error .panic

@[simp] theorem orPanic_some (a : α) : orPanic (some a) = .ok a := rfl

@[simp] theorem ok_bind (a : α) (f : α → Go β) : (.ok a : Go α) >>= f = f a := rfl

/-- What an operation that may panic returns. -/
theorem orPanic_eq_ok_iff {x : Option α} {a : α} : orPanic x = .ok a ↔ x = some a := by
  cases x with
  | none =>
    constructor
    · intro h
      cases h
    · intro h
      cases h
  | some a' => simp [orPanic]

/-- `wrap` changes the text of an error only. -/
theorem wrap_eq_ok_iff {context : String} {x : Go α} {a : α} :
    x.wrap context = .ok a ↔ x = .ok a := by
  match x with
  | .ok a' => exact Iff.rfl
  | .error .panic => exact ⟨nofun, nofun⟩
  | .error (.error _) => exact ⟨nofun, nofun⟩

/-- A `do` block returns where its first call and the rest do. -/
theorem bind_eq_ok_iff {x : Go α} {f : α → Go β} {b : β} :
    x >>= f = .ok b ↔ ∃ a, x = .ok a ∧ f a = .ok b := by
  cases x with
  | ok a =>
    constructor
    · intro h
      exact ⟨a, rfl, h⟩
    · rintro ⟨a', h, hf⟩
      cases h
      exact hf
  | error e =>
    constructor
    · intro h
      have he : (.error e : Go β) = .ok b := h
      cases he
    · rintro ⟨a, h, -⟩
      cases h

/-- A check returns where it passes and the rest returns. -/
theorem check_eq_ok_iff {c : Prop} [Decidable c] {message : String} {x : Go α} {a : α} :
    (if c then Go.err message else x) = .ok a ↔ ¬c ∧ x = .ok a := by
  by_cases hc : c
  · rw [if_pos hc]
    constructor
    · intro h
      cases h
    · rintro ⟨hnot, -⟩
      exact absurd hc hnot
  · rw [if_neg hc]
    exact ⟨fun h => ⟨hc, h⟩, And.right⟩

/-- A map after a chain goes into its last part. -/
theorem map_bind {γ : Type} (x : Go α) (g : α → Go β) (f : β → γ) :
    (x >>= g).map f = x >>= fun a => (g a).map f := by
  cases x with
  | ok a => rfl
  | error e => rfl

theorem map_check {c : Prop} [Decidable c] (message : String) (x : Go α) (f : α → β) :
    (if c then Go.err message else x).map f = if c then Go.err message else x.map f := by
  split
  · rfl
  · rfl

/-- A value that came out was returned. -/
theorem eq_ok_of_toOption {x : Go α} {a : α} (h : x.toOption = some a) : x = .ok a := by
  cases x with
  | ok a' =>
    cases h
    rfl
  | error e => cases h

/-- The call gives a value: it neither panics nor returns an error. -/
def Returns (x : Go α) : Prop := ∃ a, x = .ok a

theorem returns_ok (a : α) : Returns (.ok a) := ⟨a, rfl⟩

theorem returns_orPanic {x : Option α} (h : x.isSome) : Returns (orPanic x) := by
  obtain ⟨a, rfl⟩ := Option.isSome_iff_exists.mp h
  exact returns_ok a

/-- A chain returns if both parts do. -/
theorem returns_bind {x : Go α} {f : α → Go β} (hx : Returns x)
    (hf : ∀ a, x = .ok a → Returns (f a)) : Returns (x >>= f) := by
  obtain ⟨a, ha⟩ := hx
  obtain ⟨b, hb⟩ := hf a ha
  exact ⟨b, bind_eq_ok_iff.mpr ⟨a, ha, hb⟩⟩

theorem returns_ite {c : Prop} [Decidable c] {x y : Go α} (hx : c → Returns x)
    (hy : ¬c → Returns y) : Returns (if c then x else y) := by
  by_cases hc : c
  · rw [if_pos hc]
    exact hx hc
  · rw [if_neg hc]
    exact hy hc

/-- The call does not panic. -/
def NoPanic (x : Go α) : Prop := x ≠ .error .panic

@[simp] theorem noPanic_ok (a : α) : NoPanic (.ok a) := by
  intro h
  cases h

@[simp] theorem noPanic_pure (a : α) : NoPanic (pure a) := noPanic_ok a

@[simp] theorem noPanic_err (message : String) : NoPanic (Go.err message : Go α) := by
  intro h
  cases h

theorem noPanic_orPanic {x : Option α} (h : x.isSome) : NoPanic (orPanic x) := by
  cases x with
  | none => cases h
  | some a => exact noPanic_ok a

/-- A `do` block panics where its first call does, or where the rest does. -/
theorem bind_eq_panic_iff {x : Go α} {f : α → Go β} :
    x >>= f = .error .panic ↔ x = .error .panic ∨ ∃ a, x = .ok a ∧ f a = .error .panic := by
  cases x with
  | ok a =>
    constructor
    · intro h
      exact Or.inr ⟨a, rfl, h⟩
    · rintro (h | ⟨a', h, hf⟩)
      · cases h
      · cases h
        exact hf
  | error e =>
    constructor
    · intro h
      have he : (.error e : Go β) = .error .panic := h
      cases he
      exact Or.inl rfl
    · rintro (h | ⟨a', h, -⟩)
      · cases h
        rfl
      · cases h

/-- A chain does not panic if neither part does. -/
theorem noPanic_bind {x : Go α} {f : α → Go β} (hx : NoPanic x)
    (hf : ∀ a, x = .ok a → NoPanic (f a)) : NoPanic (x >>= f) := by
  intro h
  rcases bind_eq_panic_iff.mp h with h | ⟨a, ha, h⟩
  · exact hx h
  · exact hf a ha h

/-- A result that was got is the result. -/
theorem eq_ok_of_attempt {x : Go α} {a : α} (h : x.attempt = .ok (some a)) : x = .ok a := by
  cases x with
  | ok b =>
    cases h
    rfl
  | error e => cases e <;> cases h

/-- A call that does not panic gives a value or returns an error. -/
theorem attempt_cases {x : Go α} (hx : NoPanic x) :
    x.attempt = .ok none ∨ ∃ a, x = .ok a ∧ x.attempt = .ok (some a) := by
  match x with
  | .ok a => exact Or.inr ⟨a, rfl, rfl⟩
  | .error (.error _) => exact Or.inl rfl
  | .error .panic => exact absurd rfl hx

/-- A check does not panic if neither branch does. -/
theorem noPanic_ite {c : Prop} [Decidable c] {x y : Go α} (hx : c → NoPanic x)
    (hy : ¬c → NoPanic y) : NoPanic (if c then x else y) := by
  by_cases hc : c
  · rw [if_pos hc]
    exact hx hc
  · rw [if_neg hc]
    exact hy hc

/-- A check that returns an error is safe, and what follows may use that it passed. -/
theorem noPanic_check {c : Prop} [Decidable c] {message : String} {x : Go α}
    (h : ¬c → NoPanic x) : NoPanic (if c then Go.err message else x) :=
  noPanic_ite (fun _ => noPanic_err message) h

end Gosrt.Lib
