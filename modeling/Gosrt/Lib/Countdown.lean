import Mathlib.Data.UInt

/-!
# `Gosrt.Lib.Countdown`: countdowns that wrap

A countdown is a `uint64` that is decremented and compared with zero. A countdown that starts
at zero wraps first, so it takes `2 ^ 64` decrements. `steps` is the number of decrements
until the countdown is zero. In terms of it there is no special case: a decrement takes one
step away, and the countdown is at zero when it was one step before.
-/

set_option autoImplicit false

namespace Gosrt.Lib

/-- The decrements until the countdown is zero. -/
def steps (x : UInt64) : Nat := if x = 0 then 2 ^ 64 else x.toNat

theorem toNat_pos_of_ne_zero {x : UInt64} (h : x ≠ 0) : 0 < x.toNat := by
  refine Nat.pos_of_ne_zero fun hx => h ?_
  rw [← UInt64.toNat_inj]
  exact hx

theorem steps_of_ne_zero {x : UInt64} (h : x ≠ 0) : steps x = x.toNat := if_neg h

theorem steps_pos (x : UInt64) : 1 ≤ steps x := by
  unfold steps
  split
  · decide
  · rename_i h
    exact toNat_pos_of_ne_zero h

theorem steps_inj {x y : UInt64} : steps x = steps y ↔ x = y := by
  constructor
  · intro h
    have hx := x.toNat_lt
    have hy := y.toNat_lt
    unfold steps at h
    split at h
    · rename_i hx0
      split at h
      · rename_i hy0
        rw [hx0, hy0]
      · omega
    · split at h
      · omega
      · exact UInt64.toNat_inj.mp h
  · intro h
    rw [h]

/-- Taking `a` off a countdown takes `a` steps off, as long as some are left. -/
theorem steps_sub {x a : UInt64} (h : a.toNat < steps x) : steps (x - a) = steps x - a.toNat := by
  have hx := x.toNat_lt
  have ha := a.toNat_lt
  have hsub := UInt64.toNat_sub x a
  unfold steps at h ⊢
  by_cases hx0 : x = 0
  · subst hx0
    rw [if_pos rfl] at h ⊢
    -- A countdown at zero stands for a whole turn of the word.
    by_cases ha0 : a = 0
    · subst ha0
      rfl
    · have hpos := toNat_pos_of_ne_zero ha0
      have hval : (0 - a).toNat = 2 ^ 64 - a.toNat := by
        rw [hsub]
        show (2 ^ 64 - a.toNat + 0) % 2 ^ 64 = _
        omega
      have hne : (0 - a : UInt64) ≠ 0 := by
        intro h0
        rw [h0] at hval
        change 0 = 2 ^ 64 - a.toNat at hval
        omega
      rw [if_neg hne, hval]
  · rw [if_neg hx0] at h ⊢
    have hval : (x - a).toNat = x.toNat - a.toNat := by
      rw [hsub]
      omega
    have hne : (x - a : UInt64) ≠ 0 := by
      intro h0
      rw [h0] at hval
      change 0 = x.toNat - a.toNat at hval
      omega
    rw [if_neg hne, hval]

/-- A decrement reaches zero from one step before it. -/
theorem sub_one_eq_zero_iff {x : UInt64} : x - 1 = 0 ↔ steps x = 1 := by
  rw [sub_eq_zero, ← steps_inj]
  exact Iff.rfl

/-- A decrement that does not reach zero takes one step away. -/
theorem steps_sub_one {x : UInt64} (h : steps x ≠ 1) : steps (x - 1) = steps x - 1 := by
  have hpos := steps_pos x
  exact steps_sub (x := x) (a := 1) (show 1 < steps x by omega)

end Gosrt.Lib
