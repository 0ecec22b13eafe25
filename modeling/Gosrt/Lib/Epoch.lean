import Mathlib.Data.Nat.Basic

/-!
# `Gosrt.Lib.Epoch`: a counter from its remainders

A counter goes up without end, but an observer sees only its remainder modulo `W`. The epoch
of a value is its quotient. The observer has to find the epochs from the remainders.

`WrapDetector` does this with one flag. It expects a wrap when it has seen a remainder in the
last `S` before `W`. While it does, a remainder below `S` belongs to the next epoch. A remainder
between `S` and `2 * S` ends this, and the next epoch is the current one.

`tracking` is the state of a detector that has not lost the counter: it depends on the highest
value only, given by its epoch and remainder. Epochs are counted from the epoch `e₀` of the
first value. An observation keeps the detector tracking when the value is a new highest one, in
the same epoch (`observe_same`) or in the next one (`observe_next`), or when it is late by less
than `S` (`observe_late`, `observe_previous`).

The detector loses the counter when it sees no remainder between `S` and `2 * S` after a wrap
(`observe_jump`), or none before `2 * S` at all (`observe_pause`), or none before the wrap
(`observe_gap`). It is one epoch behind then.
-/

set_option autoImplicit false

namespace Gosrt.Lib

/-- The flag, and the number of wraps that are over. -/
structure WrapDetector where
  wrapping : Bool
  epoch : Nat
  deriving DecidableEq, Repr

namespace WrapDetector

section
variable (W S : Nat)

/-- The state after a remainder is observed. -/
def observe (d : WrapDetector) (r : Nat) : WrapDetector :=
  -- The end of the wrap needs a remainder in the window after the guard. A larger one could
  -- be a late value from before the wrap.
  if d.wrapping then
    if S ≤ r ∧ r ≤ 2 * S then ⟨false, d.epoch + 1⟩ else d
  else if W ≤ r + S then ⟨true, d.epoch⟩ else d

/-- The epoch that the detector finds for a remainder. -/
def classify (d : WrapDetector) (r : Nat) : Nat :=
  if d.wrapping ∧ r < S then d.epoch + 1 else d.epoch

/-- The state of a detector whose highest value is in epoch `e` and has the remainder `r`. -/
def tracking (e₀ e r : Nat) : WrapDetector :=
  -- The epoch is not counted while the wrap is not over: in the first `S` of an epoch the
  -- detector still has the number of the one before.
  if W ≤ r + S then ⟨true, e - e₀⟩
  else if r < S ∧ e₀ < e then ⟨true, e - e₀ - 1⟩
  else ⟨false, e - e₀⟩

end

section
variable {W S n e₀ e r r' : Nat}

/-! ### One observation -/

theorem observe_end (h : S ≤ r ∧ r ≤ 2 * S) : observe W S ⟨true, n⟩ r = ⟨false, n + 1⟩ :=
  if_pos h

theorem observe_wrapping (h : r < S ∨ 2 * S < r) : observe W S ⟨true, n⟩ r = ⟨true, n⟩ :=
  if_neg (show ¬(S ≤ r ∧ r ≤ 2 * S) by omega)

theorem observe_start (h : W ≤ r + S) : observe W S ⟨false, n⟩ r = ⟨true, n⟩ :=
  if_pos h

theorem observe_steady (h : r + S < W) : observe W S ⟨false, n⟩ r = ⟨false, n⟩ :=
  if_neg (show ¬W ≤ r + S by omega)

theorem classify_wrapped (h : r < S) : classify S ⟨true, n⟩ r = n + 1 :=
  if_pos ⟨rfl, h⟩

theorem classify_of_le {d : WrapDetector} (h : S ≤ r) : classify S d r = d.epoch :=
  if_neg fun hr => by omega

theorem classify_steady : classify S ⟨false, n⟩ r = n :=
  if_neg fun hr => Bool.noConfusion hr.1

/-! ### The state of a detector that tracks -/

/-- In the last `S` of an epoch. -/
theorem tracking_last (h : W ≤ r + S) : tracking W S e₀ e r = ⟨true, e - e₀⟩ :=
  if_pos h

/-- In the first `S` of an epoch that is not the first one. -/
theorem tracking_first (hW : 4 * S ≤ W) (hr : r < S) (he : e₀ < e) :
    tracking W S e₀ e r = ⟨true, e - e₀ - 1⟩ := by
  unfold tracking
  rw [if_neg (by omega), if_pos ⟨hr, he⟩]

/-- In between. -/
theorem tracking_middle (hlast : r + S < W) (hfirst : e₀ < e → S ≤ r) :
    tracking W S e₀ e r = ⟨false, e - e₀⟩ := by
  unfold tracking
  rw [if_neg (by omega), if_neg (by omega)]

/-- The remainder of the highest value is at the end of its epoch, at the start of an epoch
after the first one, or in between. -/
theorem zone_cases (W S e₀ e r : Nat) :
    W ≤ r + S ∨ (r < S ∧ e₀ < e) ∨ (r + S < W ∧ (e₀ < e → S ≤ r)) := by
  omega

/-- A detector that tracks knows the epoch of the highest value. -/
theorem classify_tracking (hW : 4 * S ≤ W) (hr : r < W) :
    classify S (tracking W S e₀ e r) r = e - e₀ := by
  rcases zone_cases W S e₀ e r with hlast | ⟨hfirst, he⟩ | ⟨hlast, hfirst⟩
  · rw [tracking_last hlast]
    exact classify_of_le (by omega)
  · rw [tracking_first hW hfirst he, classify_wrapped hfirst]
    omega
  · rw [tracking_middle hlast hfirst]
    exact classify_steady

/-- The first value. -/
theorem observe_init (r : Nat) : observe W S ⟨false, 0⟩ r = tracking W S e e r := by
  by_cases hlast : W ≤ r + S
  · rw [observe_start hlast, tracking_last hlast, Nat.sub_self]
  · rw [observe_steady (by omega), tracking_middle (by omega) (fun h => absurd h (lt_irrefl e)),
      Nat.sub_self]

/-! ### Values that keep the detector tracking -/

/-- A new highest value in the same epoch. After a wrap the detector must see a remainder
before `2 * S`. -/
theorem observe_same (hW : 4 * S ≤ W) (hr : r ≤ r') (hr' : r' < W)
    (hseen : e₀ < e → r < S → r' ≤ 2 * S) :
    observe W S (tracking W S e₀ e r) r' = tracking W S e₀ e r' := by
  rcases zone_cases W S e₀ e r with hlast | ⟨hfirst, he⟩ | ⟨hlast, hfirst⟩
  · rw [tracking_last hlast, tracking_last (by omega), observe_wrapping (by omega)]
  -- The wrap is not over. The new value ends it, or is below the guard itself.
  · have hle := hseen he hfirst
    rw [tracking_first hW hfirst he]
    by_cases hs : r' < S
    · rw [tracking_first hW hs he, observe_wrapping (Or.inl hs)]
    · rw [observe_end ⟨by omega, hle⟩, tracking_middle (by omega) (by omega)]
      congr 1
      omega
  · rw [tracking_middle hlast hfirst]
    by_cases hs : W ≤ r' + S
    · rw [observe_start hs, tracking_last hs]
    · rw [observe_steady (by omega), tracking_middle (by omega) fun h => Nat.le_trans (hfirst h) hr]

/-- A new highest value in the next epoch. The detector has seen the end of the epoch. -/
theorem observe_next (hW : 4 * S ≤ W) (he : e₀ ≤ e) (hr : r < W) (hlast : W ≤ r + S)
    (hr' : r' ≤ 2 * S) :
    observe W S (tracking W S e₀ e r) r' = tracking W S e₀ (e + 1) r' := by
  rw [tracking_last hlast]
  by_cases hs : r' < S
  · rw [observe_wrapping (Or.inl hs), tracking_first hW hs (by omega)]
    congr 1
    omega
  · rw [observe_end ⟨by omega, hr'⟩, tracking_middle (by omega) (by omega)]
    congr 1
    omega

/-- A late value of the same epoch. -/
theorem observe_late (hW : 4 * S ≤ W) (hr : r' ≤ r) (hlate : r < r' + S) :
    observe W S (tracking W S e₀ e r) r' = tracking W S e₀ e r ∧
      classify S (tracking W S e₀ e r) r' = e - e₀ := by
  rcases zone_cases W S e₀ e r with hlast | ⟨hfirst, he⟩ | ⟨hlast, hfirst⟩
  · rw [tracking_last hlast]
    exact ⟨observe_wrapping (by omega), classify_of_le (by omega)⟩
  · rw [tracking_first hW hfirst he, classify_wrapped (by omega)]
    exact ⟨observe_wrapping (by omega), by omega⟩
  · rw [tracking_middle hlast hfirst]
    exact ⟨observe_steady (by omega), classify_steady⟩

/-- A late value of the epoch before. -/
theorem observe_previous (hW : 4 * S ≤ W) (he : e₀ ≤ e) (hlate : W + r < r' + S)
    (hr' : r' < W) :
    observe W S (tracking W S e₀ (e + 1) r) r' = tracking W S e₀ (e + 1) r ∧
      classify S (tracking W S e₀ (e + 1) r) r' = e - e₀ := by
  -- The highest value is in the first `S` of its epoch, because the late one is in the last
  -- `S` of the epoch before.
  rw [tracking_first hW (by omega) (by omega), show e + 1 - e₀ - 1 = e - e₀ by omega]
  exact ⟨observe_wrapping (by omega), classify_of_le (by omega)⟩

/-! ### Values that the detector gets wrong -/

/-- After a wrap the next value of the epoch comes too late. -/
theorem observe_jump (hW : 4 * S ≤ W) (he : e₀ < e) (hr : r < S) (hr' : 2 * S < r') :
    classify S (observe W S (tracking W S e₀ e r) r') r' + 1 = e - e₀ := by
  rw [tracking_first hW hr he, observe_wrapping (Or.inr hr'), classify_of_le (by omega)]
  show e - e₀ - 1 + 1 = e - e₀
  omega

/-- The first value after a wrap comes too late. -/
theorem observe_pause (he : e₀ ≤ e) (hlast : W ≤ r + S) (hr' : 2 * S < r') :
    classify S (observe W S (tracking W S e₀ e r) r') r' + 1 = e + 1 - e₀ := by
  rw [tracking_last hlast, observe_wrapping (Or.inr hr'), classify_of_le (by omega)]
  show e - e₀ + 1 = e + 1 - e₀
  omega

/-- There is no value at the end of the epoch before the wrap. -/
theorem observe_gap (he : e₀ ≤ e) (hlast : r + S < W) (hfirst : e₀ < e → S ≤ r)
    (hr' : r' + S < W) :
    classify S (observe W S (tracking W S e₀ e r) r') r' + 1 = e + 1 - e₀ := by
  rw [tracking_middle hlast hfirst, observe_steady hr', classify_steady]
  omega

end

end WrapDetector

end Gosrt.Lib
