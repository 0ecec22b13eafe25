import Mathlib.Data.List.Basic

/-!
# `Gosrt.Lib.Run`: runs of a partial step function

A component is a state type `σ`, an event type `ε`, and a step `σ → ε → Option σ`. `none`
means that the event cannot happen in this state: the message is not in flight, or the
index names no packet. A run is a list of events, executed in order by `run`.

`run_induct` is the one induction every safety proof uses: a property of the start state
that each step keeps holds at the end of each run. `run_induct_of` is the same rule for
runs whose events all satisfy a side condition on the state before the step. `runMeets_iff`
is for a side condition that is exact: the property is kept exactly by the runs that meet it.
-/

set_option autoImplicit false

namespace Gosrt.Lib

variable {σ ε : Type}

/-- Execute the events of a list in order. `none` when one of them cannot happen. -/
def run (step : σ → ε → Option σ) : σ → List ε → Option σ
  | s, [] => some s
  | s, e :: es => (step s e).bind (run step · es)

@[simp] theorem run_nil (step : σ → ε → Option σ) (s : σ) : run step s [] = some s := rfl

/-- The first event, and then the rest. -/
theorem run_cons (step : σ → ε → Option σ) (s : σ) (e : ε) (es : List ε) :
    run step s (e :: es) = (step s e).bind (run step · es) := rfl

/-- One list of events after the other. -/
theorem run_append (step : σ → ε → Option σ) (s : σ) (es fs : List ε) :
    run step s (es ++ fs) = (run step s es).bind (run step · fs) := by
  induction es generalizing s with
  | nil => rfl
  | cons e es ih => simp only [List.cons_append, run_cons, ih, Option.bind_assoc]

/-- The end of a run that can happen, or a default. -/
def runD (step : σ → ε → Option σ) (s : σ) (es : List ε) : σ := (run step s es).getD s

section
variable {step : σ → ε → Option σ} {s s' : σ} {es : List ε}

/-- A run that can happen ends where `runD` says. -/
theorem run_eq_some_runD (h : (run step s es).isSome = true) :
    run step s es = some (runD step s es) := by
  obtain ⟨s', hs'⟩ := Option.isSome_iff_exists.mp h
  unfold runD
  rw [hs', Option.getD_some]

/-- Each event of the run happens in a state that satisfies `C` with it. -/
def RunMeets (step : σ → ε → Option σ) (C : σ → ε → Prop) : σ → List ε → Prop
  | _, [] => True
  | s, e :: es => C s e ∧ ∀ s', step s e = some s' → RunMeets step C s' es

instance decidableRunMeets (step : σ → ε → Option σ) (C : σ → ε → Prop)
    [∀ s e, Decidable (C s e)] : (s : σ) → (es : List ε) → Decidable (RunMeets step C s es)
  | _, [] => isTrue trivial
  | s, e :: es =>
    match h : step s e with
    | none => decidable_of_iff (C s e)
        ⟨fun hc => ⟨hc, fun _ hs => nomatch h.symm.trans hs⟩, And.left⟩
    | some s1 =>
      have := decidableRunMeets step C s1 es
      decidable_of_iff (C s e ∧ RunMeets step C s1 es)
        ⟨fun hc => ⟨hc.1, fun _ hs => Option.some.inj (h.symm.trans hs) ▸ hc.2⟩,
          fun hc => ⟨hc.1, hc.2 s1 h⟩⟩

/-- A condition on the events alone. -/
theorem runMeets_of_forall {C : σ → ε → Prop} (h : ∀ e ∈ es, ∀ s, C s e) (s : σ) :
    RunMeets step C s es := by
  induction es generalizing s with
  | nil => trivial
  | cons e es ih =>
    refine ⟨h e List.mem_cons_self s, fun s' _ => ih ?_ s'⟩
    exact fun f hf => h f (List.mem_cons_of_mem _ hf)

/-- The condition for the rules that need none. -/
theorem runMeets_true (step : σ → ε → Option σ) (s : σ) (es : List ε) :
    RunMeets step (fun _ _ => True) s es :=
  runMeets_of_forall (fun _ _ _ => trivial) s

/-- The step rule for a run whose events meet a side condition. -/
theorem run_induct_of {C : σ → ε → Prop} (P : σ → Prop)
    (hstep : ∀ s e s', C s e → P s → step s e = some s' → P s') (hC : RunMeets step C s es)
    (h0 : P s) (h : run step s es = some s') : P s' := by
  induction es generalizing s with
  | nil =>
    cases h
    exact h0
  | cons e es ih =>
    rw [run_cons, Option.bind_eq_some_iff] at h
    obtain ⟨s1, h1, h2⟩ := h
    exact ih (hC.2 s1 h1) (hstep s e s1 hC.1 h0 h1) h2

/-- The step rule: what the start state satisfies and each step keeps holds after each run. -/
theorem run_induct (P : σ → Prop) (hstep : ∀ s e s', P s → step s e = some s' → P s') (h0 : P s)
    (h : run step s es = some s') : P s' :=
  run_induct_of P (fun s e s' _ => hstep s e s') (runMeets_true step s es) h0 h

/-- What holds in each state of an invariant is met by every run that keeps the invariant. -/
theorem runMeets_of {C D : σ → ε → Prop} (P : σ → Prop)
    (hstep : ∀ s e s', C s e → P s → step s e = some s' → P s')
    (hD : ∀ s e, C s e → P s → D s e) (hC : RunMeets step C s es) (h0 : P s) :
    RunMeets step D s es := by
  induction es generalizing s with
  | nil => trivial
  | cons e es ih =>
    exact ⟨hD s e hC.1 h0, fun s' hs' => ih (hC.2 s' hs') (hstep s e s' hC.1 h0 hs')⟩

/-- Two side conditions that agree on the steps from each state of an invariant are met by the
same runs. -/
theorem runMeets_congr {C D : σ → ε → Prop} (P : σ → Prop)
    (hiff : ∀ s e s', P s → step s e = some s' → (C s e ↔ D s e))
    (hstep : ∀ s e s', C s e → P s → step s e = some s' → P s')
    (h0 : P s) (h : run step s es = some s') : RunMeets step C s es ↔ RunMeets step D s es := by
  induction es generalizing s with
  | nil => exact Iff.rfl
  | cons e es ih =>
    rw [run_cons, Option.bind_eq_some_iff] at h
    obtain ⟨s1, h1, h2⟩ := h
    unfold RunMeets
    -- The conditions agree on the first step, so the rest of the run starts in the invariant
    -- whichever of the two is met.
    rw [← hiff s e s1 h0 h1]
    refine and_congr_right fun hC => forall_congr' fun s2 => forall_congr' fun hs2 => ?_
    rw [h1] at hs2
    cases hs2
    exact ih (hstep s e s1 hC h0 h1) h2

/-- The same for two conditions that agree in each state of the invariant, also on events that
cannot happen there, in a run that meets `B`. -/
theorem runMeets_congr_of {B C D : σ → ε → Prop} (P : σ → Prop)
    (hiff : ∀ s e, B s e → P s → (C s e ↔ D s e))
    (hstep : ∀ s e s', B s e → C s e → P s → step s e = some s' → P s')
    (hB : RunMeets step B s es) (h0 : P s) : RunMeets step C s es ↔ RunMeets step D s es := by
  induction es generalizing s with
  | nil => exact Iff.rfl
  | cons e es ih =>
    unfold RunMeets
    rw [← hiff s e hB.1 h0]
    refine and_congr_right fun hC => forall_congr' fun s' => forall_congr' fun hs' => ?_
    exact ih (hB.2 s' hs') (hstep s e s' hB.1 hC h0 hs')

/-- Where every event can happen, a condition on the events alone is met if all of them meet it. -/
theorem runMeets_iff_forall {C : ε → Prop}
    (htotal : ∀ s e, ∃ s', step s e = some s') :
    RunMeets step (fun _ e => C e) s es ↔ ∀ e ∈ es, C e := by
  induction es generalizing s with
  | nil => simp [RunMeets]
  | cons e es ih =>
    obtain ⟨s', hs'⟩ := htotal s e
    simp [RunMeets, hs', ih]

/-- A property that a step can only lose holds before a run where it holds after it. -/
theorem run_backward {Good : σ → Prop}
    (hmono : ∀ s e s', step s e = some s' → Good s' → Good s)
    (h : run step s es = some s') (hgood : Good s') : Good s := by
  induction es generalizing s with
  | nil =>
    cases h
    exact hgood
  | cons e es ih =>
    rw [run_cons, Option.bind_eq_some_iff] at h
    obtain ⟨s1, h1, h2⟩ := h
    exact hmono s e s1 h1 (ih h2)

/-- An exact side condition. In a run that meets `B`, the condition `C` keeps the invariant `P`
from step to step, and a step that does not meet `C` loses the property `Good` for good. Then
the run keeps `Good` exactly when its steps meet `C`. -/
theorem runMeets_iff_of {B C : σ → ε → Prop} {P Good : σ → Prop}
    (hstep : ∀ s e s', B s e → C s e → P s → step s e = some s' → P s')
    (hgood : ∀ s, P s → Good s)
    (hback : ∀ s e s', B s e → P s → step s e = some s' → Good s' → C s e)
    (hmono : ∀ s e s', step s e = some s' → Good s' → Good s)
    (hB : RunMeets step B s es) (h0 : P s)
    (h : run step s es = some s') : RunMeets step C s es ↔ Good s' := by
  induction es generalizing s with
  | nil =>
    cases h
    exact ⟨fun _ => hgood _ h0, fun _ => trivial⟩
  | cons e es ih =>
    rw [run_cons, Option.bind_eq_some_iff] at h
    obtain ⟨s1, h1, h2⟩ := h
    constructor
    · intro hC
      exact (ih (hB.2 s1 h1) (hstep s e s1 hB.1 hC.1 h0 h1) h2).mp (hC.2 s1 h1)
    · intro hend
      have hC := hback s e s1 hB.1 h0 h1 (run_backward hmono h2 hend)
      refine ⟨hC, fun s2 hs2 => ?_⟩
      rw [h1] at hs2
      cases hs2
      exact (ih (hB.2 s1 h1) (hstep s e s1 hB.1 hC h0 h1) h2).mpr hend

/-- The same rule without the condition `B`. -/
theorem runMeets_iff {C : σ → ε → Prop} {P Good : σ → Prop}
    (hstep : ∀ s e s', C s e → P s → step s e = some s' → P s')
    (hgood : ∀ s, P s → Good s)
    (hback : ∀ s e s', P s → step s e = some s' → Good s' → C s e)
    (hmono : ∀ s e s', step s e = some s' → Good s' → Good s)
    (h0 : P s) (h : run step s es = some s') :
    RunMeets step C s es ↔ Good s' :=
  runMeets_iff_of (fun s e s' _ => hstep s e s') hgood (fun s e s' _ => hback s e s') hmono
    (runMeets_true step s es) h0 h

/-- A run of steps that can always happen. -/
theorem exists_run (h : ∀ s e, ∃ s', step s e = some s') (s : σ)
    (es : List ε) : ∃ s', run step s es = some s' := by
  induction es generalizing s with
  | nil => exact ⟨s, rfl⟩
  | cons e es ih =>
    obtain ⟨s1, h1⟩ := h s e
    obtain ⟨s', hs'⟩ := ih s1
    exact ⟨s', by rw [run_cons, h1]; exact hs'⟩

end

end Gosrt.Lib
