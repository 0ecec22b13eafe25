import Mathlib.Tactic.Ring

/-!
# `Gosrt.Lib.Signed`: signed words that are not negative

A signed word of 64 bits and the unsigned word of the same bits are the same number if the sign bit
is not set. Comparisons and bit operations can then be done on natural numbers.
-/

set_option autoImplicit false

namespace Gosrt.Lib

theorem toNat_toUInt64 (x : Int64) : (x.toUInt64.toNat : Int) = x.toInt % 2 ^ 64 := by
  have hlt := x.toUInt64.toNat_lt
  rw [← Int64.toInt_toBitVec, BitVec.toInt_eq_toNat_bmod, Int64.toNat_toBitVec,
    show (2 : Int) ^ 64 = (2 ^ 64 : Nat) from rfl, Int.bmod_emod]
  omega

theorem toNat_toUInt64_inj {x y : Int64} : x.toUInt64.toNat = y.toUInt64.toNat ↔ x = y := by
  constructor
  · intro h
    rw [← Int64.toInt64_toUInt64 x, ← Int64.toInt64_toUInt64 y, UInt64.toNat_inj.mp h]
  · rintro rfl
    rfl

/-- The numbers that are not negative are those of 63 bits. -/
theorem nonneg_iff_toNat {x : Int64} : 0 ≤ x ↔ x.toUInt64.toNat < 2 ^ 63 := by
  have hword := toNat_toUInt64 x
  have hlow := x.le_toInt
  have hhigh := x.toInt_lt
  have hzero : (0 : Int64).toInt = 0 := rfl
  rw [Int64.le_iff_toInt_le, hzero]
  omega

section
variable {x y : Int64} (hx : 0 ≤ x) (hy : 0 ≤ y)
include hx

theorem toInt_of_nonneg : x.toInt = x.toUInt64.toNat := by
  have hword := toNat_toUInt64 x
  have hlt := nonneg_iff_toNat.mp hx
  have hlow := x.le_toInt
  have hhigh := x.toInt_lt
  omega

include hy

theorem lt_iff_toNat_lt : x < y ↔ x.toUInt64.toNat < y.toUInt64.toNat := by
  rw [Int64.lt_iff_toInt_lt, toInt_of_nonneg hx, toInt_of_nonneg hy, Int.ofNat_lt]

theorem le_iff_toNat_le : x ≤ y ↔ x.toUInt64.toNat ≤ y.toUInt64.toNat := by
  rw [Int64.le_iff_toInt_le, toInt_of_nonneg hx, toInt_of_nonneg hy, Int.ofNat_le]

end

end Gosrt.Lib
