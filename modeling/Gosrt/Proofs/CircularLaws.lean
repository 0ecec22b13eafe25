import Gosrt.Lib.Run
import Gosrt.Proofs.Circular
import Mathlib.Order.RelIso.Basic

/-!
# `Gosrt.Proofs.CircularLaws`: what the package promises about circular numbers

* `orderedWindow`: inside of `max / 2` consecutive numbers `Add`, `Sub`, the comparisons and
  `Distance` read off the offsets, wherever the wrap lies. `Lt` is a strict total order there.
* `rotationInvariant_iff`: outside of such a window the comparisons depend on more than the offset.
  The threshold is half of `max` and not half of the `max + 1` numbers, so two or three offsets
  around the half turn are compared by the values alone.
* `Counting.represents_iff`: a number stands for a sum modulo `max + 1` exactly as long as no
  argument takes it around more than once. `New`, `Add` and `Sub` correct for one turn only.
-/

set_option autoImplicit false

namespace Gosrt

open Lib

/-- A remainder is known from one multiple of the modulus. -/
theorem emod_eq_of_eq_add_mul {M r : Nat} {x k : Int} (hr : r < M) (hx : x = r + M * k) :
    x % M = r := by
  rw [hx, Int.add_mul_emod_self_left]
  exact Int.emod_eq_of_lt (Int.natCast_nonneg r) (by omega)

namespace Number

section
variable {a b : Number}

theorem Wf.value_lt (h : a.Wf) : a.value.toNat < a.max.toNat + 1 :=
  Nat.lt_succ_of_le (UInt32.le_iff_toNat_le.mp h.value_le)

theorem Wf.threshold_toNat (h : a.Wf) : a.threshold.toNat = a.max.toNat / 2 := by
  rw [h.threshold_eq]
  simp

theorem offset_eq_serial (a b : Number) :
    a.offset b = Serial.offset (a.max.toNat + 1) a.value.toNat b.value.toNat := rfl

/-! ### Steps forward and back -/

/-- `Add` in the range of the numbers is addition modulo their count. -/
theorem Wf.add_eq_plus (h : a.Wf) {i : UInt32} (hi : i ≤ a.max) : a.add i = a.plus i.toNat := by
  have hadd := h.add_eq (UInt32.le_iff_toNat_le.mp hi)
  rwa [UInt32.ofNat_toNat] at hadd

/-- `Sub` of less than a whole turn. -/
theorem Wf.value_sub (h : a.Wf) {i : UInt32} (hi : i ≤ a.max) :
    ((a.sub i).value.toNat : Int)
      = ((a.value.toNat : Int) - i.toNat) % (a.max.toNat + 1 : Nat) := by
  have hv := h.value_lt
  rw [UInt32.le_iff_toNat_le] at hi
  rw [toNat_value_sub h.value_le]
  by_cases hle : i.toNat ≤ a.value.toNat
  · rw [if_pos hle]
    exact (emod_eq_of_eq_add_mul (k := 0) (by omega) (by omega)).symm
  · rw [if_neg hle, if_pos (by omega)]
    exact (emod_eq_of_eq_add_mul (k := -1) (by omega) (by omega)).symm

/-- `Sub` undoes `Add`. -/
theorem Wf.sub_add (h : a.Wf) {i : UInt32} (hi : i ≤ a.max) : (a.add i).sub i = a := by
  have hv := h.value_lt
  rw [h.add_eq_plus hi]
  obtain ⟨hmax, hthreshold⟩ := sub_fields (a.plus i.toNat) i
  refine ext_value hmax hthreshold ?_
  rw [UInt32.le_iff_toNat_le] at hi
  rw [toNat_value_sub (h.plus i.toNat).value_le, plus_value_toNat, plus_max]
  rcases Serial.add_mod_cases hv (show i.toNat < a.max.toNat + 1 by omega) with
    ⟨hlt, hmod⟩ | ⟨hge, hmod⟩
  · rw [hmod, if_pos (by omega)]
    omega
  · rw [hmod, if_neg (by omega), if_pos (by omega)]
    omega

/-- `Inc` is `Add(1)`, also for the one number with the maximum 0. -/
theorem Wf.inc_eq_add (h : a.Wf) : a.inc = a.add 1 := by
  have hv := h.value_lt
  obtain ⟨hmax, hthreshold⟩ := add_fields a 1
  rw [h.inc_eq]
  refine ext_value hmax.symm hthreshold.symm ?_
  rw [plus_value_toNat, toNat_value_add h.value_le, UInt32.toNat_one]
  split
  · rw [Nat.mod_eq_of_lt (by omega)]
  · rw [show a.value.toNat + 1 = a.max.toNat + 1 by omega, Nat.mod_self, Nat.sub_self]

/-- `Dec` is `Sub(1)`. -/
theorem dec_eq_sub (a : Number) : a.dec = a.sub 1 := by
  have hle : 1 ≤ a.value ↔ ¬a.value = 0 := by
    rw [UInt32.le_iff_toNat_le, ← UInt32.toNat_inj, UInt32.toNat_one, UInt32.toNat_zero]
    omega
  unfold dec sub
  by_cases hzero : a.value = 0
  · rw [if_pos (by simpa using hzero), if_neg (by rw [hle]; exact not_not.mpr hzero), hzero]
    simp
  · rw [if_neg (by simpa using hzero), if_pos (hle.mpr hzero)]

/-! ### The order of a window -/

/-- The numbers that are less than `max / 2` steps after `a`. -/
def Window (a : Number) : Type := { n : Number // ∃ i : UInt32, i < a.max / 2 ∧ n = a.add i }

/-- The laws of the numbers near to `a`. -/
structure OrderedWindow (a : Number) : Prop where
  value_add : ∀ i : UInt32, i < a.max / 2 →
    (a.add i).value.toNat = (a.value.toNat + i.toNat) % (a.max.toNat + 1)
  value_sub : ∀ i : UInt32, i < a.max / 2 →
    ((a.sub i).value.toNat : Int) = ((a.value.toNat : Int) - i.toNat) % (a.max.toNat + 1 : Nat)
  sub_add : ∀ i : UInt32, i < a.max / 2 → (a.add i).sub i = a
  inc : a.inc = a.add 1
  dec : a.dec = a.sub 1
  lt : ∀ i j : UInt32, i < a.max / 2 → j < a.max / 2 →
    ((a.add i).lt (a.add j) = true ↔ i < j)
  lte : ∀ i j : UInt32, i < a.max / 2 → j < a.max / 2 →
    ((a.add i).lte (a.add j) = true ↔ i ≤ j)
  gt : ∀ i j : UInt32, i < a.max / 2 → j < a.max / 2 →
    ((a.add i).gt (a.add j) = true ↔ i > j)
  gte : ∀ i j : UInt32, i < a.max / 2 → j < a.max / 2 →
    ((a.add i).gte (a.add j) = true ↔ i ≥ j)
  distance : ∀ i j : UInt32, i < a.max / 2 → j < a.max / 2 →
    ((a.add i).distance (a.add j)).toNat = ((i.toNat : Int) - j.toNat).natAbs
  order : IsStrictTotalOrder a.Window fun m n => m.1.lt n.1 = true

/-- An offset in the window, as a number. -/
theorem Wf.offset_lt (h : a.Wf) {i : UInt32} (hi : i < a.max / 2) :
    i ≤ a.max ∧ i.toNat < a.threshold.toNat ∧ a.add i = a.plus i.toNat := by
  have hlt : i.toNat < a.threshold.toNat := by
    rw [h.threshold_eq]
    exact UInt32.lt_iff_toNat_lt.mp hi
  have hle : i ≤ a.max := by
    rw [UInt32.le_iff_toNat_le]
    exact Nat.le_of_lt (hlt.trans_le h.threshold_le)
  exact ⟨hle, hlt, h.add_eq_plus hle⟩

/-- The distance of two numbers is the difference of their offsets. -/
theorem Wf.distance_plus_plus (h : a.Wf) {i j : Nat} (hi : i < a.threshold.toNat)
    (hj : j < a.threshold.toNat) :
    ((a.plus i).distance (a.plus j)).toNat = ((i : Int) - j).natAbs := by
  have hle := h.threshold_le
  have hhalf := h.two_mul_threshold
  rw [distance_eq_serial (h.plus i).value_le (h.plus j).value_le, plus_max, plus_threshold]
  have hoffset : Serial.offset (a.max.toNat + 1) (a.plus i).value.toNat (a.plus j).value.toNat
      = if i ≤ j then j - i else a.max.toNat + 1 - (i - j) := by
    split
    · rename_i hij
      exact offset_plus_plus h hij (by omega)
    · rename_i hij
      exact offset_plus_plus_of_lt h (Nat.not_le.mp hij) (by omega)
  have hclear : Serial.Clear (a.max.toNat + 1) a.threshold.toNat
      (Serial.offset (a.max.toNat + 1) (a.plus i).value.toNat (a.plus j).value.toNat) := by
    unfold Serial.Clear
    rw [hoffset]
    split <;> omega
  rw [Serial.distance_of_clear hhalf (h.plus i).value_lt (h.plus j).value_lt hclear, hoffset]
  split <;> omega

/-- `Lt` on the window is the order of the offsets. -/
def windowEmbedding (h : a.Wf) :
    (fun m n : a.Window => m.1.lt n.1 = true) ↪r fun i j : Nat => i < j where
  toFun n := a.offset n.1
  inj' := by
    rintro ⟨m, i, hi, rfl⟩ ⟨n, j, hj, rfl⟩ heq
    obtain ⟨hi', -, haddi⟩ := h.offset_lt hi
    obtain ⟨hj', -, haddj⟩ := h.offset_lt hj
    dsimp only at heq
    rw [haddi, haddj, offset_plus h (UInt32.le_iff_toNat_le.mp hi'),
      offset_plus h (UInt32.le_iff_toNat_le.mp hj')] at heq
    refine Subtype.ext ?_
    show a.add i = a.add j
    rw [UInt32.toNat_inj.mp heq]
  map_rel_iff' := by
    rintro ⟨m, i, hi, rfl⟩ ⟨n, j, hj, rfl⟩
    obtain ⟨hi', hlti, haddi⟩ := h.offset_lt hi
    obtain ⟨hj', hltj, haddj⟩ := h.offset_lt hj
    show a.offset (a.add i) < a.offset (a.add j) ↔ (a.add i).lt (a.add j) = true
    rw [haddi, haddj, offset_plus h (UInt32.le_iff_toNat_le.mp hi'),
      offset_plus h (UInt32.le_iff_toNat_le.mp hj'), plus_lt_plus h (by omega) (by omega),
      decide_eq_true_iff]

/-- Inside of `max / 2` consecutive numbers everything is as the offsets say. -/
theorem orderedWindow (a : Number) (h : a.Wf) : a.OrderedWindow where
  value_add i hi := by
    obtain ⟨-, -, hadd⟩ := h.offset_lt hi
    rw [hadd, plus_value_toNat]
  value_sub i hi := h.value_sub (h.offset_lt hi).1
  sub_add i hi := h.sub_add (h.offset_lt hi).1
  inc := h.inc_eq_add
  dec := dec_eq_sub a
  lt i j hi hj := by
    obtain ⟨-, hlti, haddi⟩ := h.offset_lt hi
    obtain ⟨-, hltj, haddj⟩ := h.offset_lt hj
    rw [haddi, haddj, plus_lt_plus h (by omega) (by omega), decide_eq_true_iff,
      UInt32.lt_iff_toNat_lt]
  lte i j hi hj := by
    obtain ⟨-, hlti, haddi⟩ := h.offset_lt hi
    obtain ⟨-, hltj, haddj⟩ := h.offset_lt hj
    rw [haddi, haddj, plus_lte_plus h (by omega) (by omega), decide_eq_true_iff,
      UInt32.le_iff_toNat_le]
  gt i j hi hj := by
    obtain ⟨-, hlti, haddi⟩ := h.offset_lt hi
    obtain ⟨-, hltj, haddj⟩ := h.offset_lt hj
    rw [haddi, haddj, plus_gt_plus h (by omega) (by omega), decide_eq_true_iff, gt_iff_lt,
      UInt32.lt_iff_toNat_lt]
  gte i j hi hj := by
    obtain ⟨-, hlti, haddi⟩ := h.offset_lt hi
    obtain ⟨-, hltj, haddj⟩ := h.offset_lt hj
    rw [haddi, haddj, plus_gte_plus h (by omega) (by omega), decide_eq_true_iff, ge_iff_le,
      UInt32.le_iff_toNat_le]
  distance i j hi hj := by
    obtain ⟨-, hlti, haddi⟩ := h.offset_lt hi
    obtain ⟨-, hltj, haddj⟩ := h.offset_lt hj
    rw [haddi, haddj]
    exact h.distance_plus_plus hlti hltj
  order := (windowEmbedding h).isStrictTotalOrder

end

/-- Numbers up to 9, from 8 on: 9 is before 1, over the wrap. -/
theorem orderedWindow_wrap :
    ((new 8 9).add 1).value = 9 ∧ ((new 8 9).add 3).value = 1 ∧
      ((new 8 9).add 1).lt ((new 8 9).add 3) = true ∧
      (((new 8 9).add 1).distance ((new 8 9).add 3)).toNat = 2 := by
  have hwindow := orderedWindow (new 8 9) ⟨by decide, by decide⟩
  refine ⟨by decide, by decide, ?_, ?_⟩
  · exact (hwindow.lt 1 3 (by decide) (by decide)).mpr (by decide)
  · exact hwindow.distance 1 3 (by decide) (by decide)

/-! ### Rotations -/

/-- The comparisons and the distance of two numbers depend on the offset between them only, and the
distance is the shorter way around. -/
structure RotationInvariant (a b : Number) : Prop where
  depends : ∀ a' b' : Number, a'.Wf → b'.Wf → a'.max = a.max → b'.max = a.max →
    a'.offset b' = a.offset b →
    a'.lt b' = a.lt b ∧ a'.gt b' = a.gt b ∧ a'.distance b' = a.distance b
  shifted : ∀ k : UInt32, k ≤ a.max →
    (a.add k).lt (b.add k) = a.lt b ∧ (a.add k).gt (b.add k) = a.gt b ∧
      (a.add k).distance (b.add k) = a.distance b
  distance_eq : (a.distance b).toNat = min (a.offset b) (a.max.toNat + 1 - a.offset b)
  distance_le : (a.distance b).toNat ≤ (a.max.toNat + 1) / 2

section
variable {a b : Number}

/-- At a clear offset, all three are functions of the offset. -/
theorem Wf.compare_of_clear (ha : a.Wf) (hb : b.Wf) (hmax : b.max = a.max)
    (h : Serial.Clear (a.max.toNat + 1) a.threshold.toNat (a.offset b)) :
    a.lt b = decide (0 < a.offset b ∧ a.offset b < a.threshold.toNat) ∧
    a.gt b = decide (0 < (a.max.toNat + 1 - a.offset b) % (a.max.toNat + 1) ∧
      (a.max.toNat + 1 - a.offset b) % (a.max.toNat + 1) < a.threshold.toNat) ∧
    (a.distance b).toNat = min (a.offset b) (a.max.toNat + 1 - a.offset b) := by
  have hhalf := ha.two_mul_threshold
  have hav := ha.value_lt
  have hbv : b.value.toNat < a.max.toNat + 1 := by
    rw [← hmax]
    exact hb.value_lt
  refine ⟨?_, ?_, ?_⟩
  · rw [lt_eq_serial]
    exact Serial.lt_of_clear hhalf hav hbv h
  · rw [gt_eq_serial, Serial.lt_of_clear hhalf hbv hav (h.swap hav hbv),
      Serial.offset_swap hav hbv]
    rfl
  · rw [distance_eq_serial ha.value_le (by rw [← hmax]; exact hb.value_le)]
    exact Serial.distance_of_clear hhalf hav hbv h

/-- Shifted numbers have the same offset. -/
theorem Wf.offset_plus_plus_same (ha : a.Wf) (hb : b.Wf) (hmax : b.max = a.max) (k : Nat) :
    (a.plus k).offset (b.plus k) = a.offset b := by
  have hbv := hb.value_lt
  rw [offset_eq_serial, plus_value_toNat, plus_value_toNat, plus_max, hmax]
  rw [hmax] at hbv
  exact Serial.offset_add_mod ha.value_lt hbv k

/-- A number with the bounds of `a`. -/
theorem Wf.withValue (ha : a.Wf) {value : UInt32} (h : value ≤ a.max) :
    Number.Wf { a with value := value } := ⟨h, ha.threshold_eq⟩

/-- Near to the half turn the order of the values decides, so that it is not invariant. -/
theorem Wf.clear_of_depends (ha : a.Wf)
    (h : ∀ a' b' : Number, a'.Wf → b'.Wf → a'.max = a.max → b'.max = a.max →
      a'.offset b' = a.offset b → a'.lt b' = a.lt b) :
    Serial.Clear (a.max.toNat + 1) a.threshold.toNat (a.offset b) := by
  by_contra hclear
  have hturn := Nat.mod_lt (b.value.toNat + (a.max.toNat + 1 - a.value.toNat))
    (show 0 < a.max.toNat + 1 by omega)
  change a.offset b < a.max.toNat + 1 at hturn
  have hpos : a.offset b ≠ 0 := fun hzero => hclear (Or.inl hzero)
  have hsize := a.max.toNat_lt
  generalize hf : a.offset b = f at h hclear hturn hpos
  have hvalue {x : Nat} (hx : x ≤ a.max.toNat) : (UInt32.ofNat x).toNat = x :=
    UInt32.toNat_ofNat_of_lt' (Nat.lt_of_le_of_lt hx hsize)
  have hlt {x y : Nat} (hx : x ≤ a.max.toNat) (hy : y ≤ a.max.toNat)
      (hoffset : Serial.offset (a.max.toNat + 1) x y = f) : a.lt b = decide (y < x) := by
    have hwf {z : Nat} (hz : z ≤ a.max.toNat) :
        Number.Wf { a with value := UInt32.ofNat z } :=
      ha.withValue (UInt32.le_iff_toNat_le.mpr (by rw [hvalue hz]; exact hz))
    have hoffset' : Number.offset { a with value := UInt32.ofNat x }
        { a with value := UInt32.ofNat y } = f := by
      rw [offset_eq_serial, hvalue hx, hvalue hy]
      exact hoffset
    rw [← h _ _ (hwf hx) (hwf hy) rfl rfl hoffset', lt_eq_serial, hvalue hx, hvalue hy]
    refine Serial.lt_of_not_clear (Nat.lt_succ_of_le hx) (Nat.lt_succ_of_le hy) ?_
    rw [hoffset]
    exact hclear
  -- Once from zero on, and once over the wrap.
  have hplain := hlt (x := 0) (y := f) (Nat.zero_le _) (by omega) (by
    unfold Serial.offset
    rw [Nat.sub_zero, Nat.add_mod_right, Nat.mod_eq_of_lt hturn])
  have hwrapped := hlt (x := a.max.toNat) (y := f - 1) (Nat.le_refl _) (by omega) (by
    unfold Serial.offset
    rw [Nat.mod_eq_of_lt (by omega)]
    omega)
  rw [hplain, decide_eq_decide] at hwrapped
  omega

/-- The comparisons of two numbers are invariant under rotations exactly if the offset between them
is less than `max / 2` in one of the two directions. -/
theorem rotationInvariant_iff (a b : Number) (ha : a.Wf) (hb : b.Wf) (hmax : b.max = a.max) :
    RotationInvariant a b ↔
      a.offset b = 0 ∨ a.offset b < a.max.toNat / 2 ∨
        a.max.toNat + 1 < a.offset b + a.max.toNat / 2 := by
  have hcondition : Serial.Clear (a.max.toNat + 1) a.threshold.toNat (a.offset b) ↔
      a.offset b = 0 ∨ a.offset b < a.max.toNat / 2 ∨
        a.max.toNat + 1 < a.offset b + a.max.toNat / 2 := by
    rw [ha.threshold_toNat]
    exact Iff.rfl
  rw [← hcondition]
  constructor
  · intro h
    refine ha.clear_of_depends fun a' b' ha' hb' hmaxa hmaxb hoffset => ?_
    exact (h.depends a' b' ha' hb' hmaxa hmaxb hoffset).1
  · intro hclear
    obtain ⟨hlt, hgt, hdistance⟩ := ha.compare_of_clear hb hmax hclear
    have hdepends (a' b' : Number) (ha' : a'.Wf) (hb' : b'.Wf) (hmaxa : a'.max = a.max)
        (hmaxb : b'.max = a.max) (hoffset : a'.offset b' = a.offset b) :
        a'.lt b' = a.lt b ∧ a'.gt b' = a.gt b ∧ a'.distance b' = a.distance b := by
      have hthreshold : a'.threshold = a.threshold := by
        rw [ha'.threshold_eq, ha.threshold_eq, hmaxa]
      obtain ⟨hlt', hgt', hdistance'⟩ := ha'.compare_of_clear hb' (hmaxb.trans hmaxa.symm)
        (by rw [hoffset, hmaxa, hthreshold]; exact hclear)
      rw [hoffset, hthreshold] at hlt'
      rw [hoffset, hmaxa, hthreshold] at hgt'
      rw [hoffset, hmaxa] at hdistance'
      exact ⟨hlt'.trans hlt.symm, hgt'.trans hgt.symm,
        UInt32.toNat_inj.mp (hdistance'.trans hdistance.symm)⟩
    refine ⟨hdepends, fun k hk => ?_, hdistance, ?_⟩
    · rw [ha.add_eq_plus hk, hb.add_eq_plus (by rw [hmax]; exact hk)]
      exact hdepends _ _ (ha.plus _) (hb.plus _) rfl hmax (ha.offset_plus_plus_same hb hmax _)
    · rw [hdistance]
      omega

end

/-- Two sequence numbers that are a thousand apart, over the wrap. -/
theorem rotationInvariant_near :
    (new 0x7FFFFE0C 0x7FFFFFFF).offset (new 500 0x7FFFFFFF) = 1000 ∧
      RotationInvariant (new 0x7FFFFE0C 0x7FFFFFFF) (new 500 0x7FFFFFFF) :=
  ⟨by decide, (rotationInvariant_iff (new 0x7FFFFE0C 0x7FFFFFFF) (new 500 0x7FFFFFFF)
    ⟨by decide, by decide⟩ ⟨by decide, by decide⟩ rfl).mpr (by decide)⟩

/-- The numbers 0 and `2^30 - 1` with the maximum `2^31 - 1` of the sequence numbers. Shifted by the
maximum, they compare the other way around and have another distance. -/
theorem rotation_turns_order :
    (new 0 0x7FFFFFFF).offset (new 0x3FFFFFFF 0x7FFFFFFF) = 0x3FFFFFFF ∧
      (new 0 0x7FFFFFFF).add 0x7FFFFFFF = new 0x7FFFFFFF 0x7FFFFFFF ∧
      (new 0x3FFFFFFF 0x7FFFFFFF).add 0x7FFFFFFF = new 0x3FFFFFFE 0x7FFFFFFF ∧
      (new 0 0x7FFFFFFF).lt (new 0x3FFFFFFF 0x7FFFFFFF) = false ∧
      (new 0x7FFFFFFF 0x7FFFFFFF).lt (new 0x3FFFFFFE 0x7FFFFFFF) = true ∧
      (new 0 0x7FFFFFFF).distance (new 0x3FFFFFFF 0x7FFFFFFF) = 0x40000001 ∧
      (new 0x7FFFFFFF 0x7FFFFFFF).distance (new 0x3FFFFFFE 0x7FFFFFFF) = 0x3FFFFFFF ∧
      ¬RotationInvariant (new 0 0x7FFFFFFF) (new 0x3FFFFFFF 0x7FFFFFFF) := by
  refine ⟨by decide, by decide, by decide, by decide, by decide, by decide, by decide,
    fun h => ?_⟩
  exact absurd (h.shifted 0x7FFFFFFF (by decide)).1 (by decide)

end Number

/-! ### Sums -/

/-- An operation on a circular number. -/
inductive Counting.Op where
  | inc
  | dec
  | add (b : UInt32)
  | sub (b : UInt32)
  deriving DecidableEq, Repr

/-- A circular number, with the exact sum that it stands for. -/
structure Counting where
  number : Number
  sum : Int
  deriving DecidableEq, Repr

namespace Counting

def init (x max : UInt32) : Counting := ⟨Number.new x max, x.toNat⟩

def step (s : Counting) : Op → Option Counting
  | .inc => some ⟨s.number.inc, s.sum + 1⟩
  | .dec => some ⟨s.number.dec, s.sum - 1⟩
  | .add b => some ⟨s.number.add b, s.sum + b.toNat⟩
  | .sub b => some ⟨s.number.sub b, s.sum - b.toNat⟩

/-- The value is in range, and it is the sum modulo `max + 1`. -/
def Represents (max : UInt32) (s : Counting) : Prop :=
  s.number.value ≤ max ∧ (s.number.value.toNat : Int) = s.sum % (max.toNat + 1 : Nat)

instance (max : UInt32) (s : Counting) : Decidable (s.Represents max) :=
  inferInstanceAs (Decidable (_ ∧ _))

/-- The operation does not lead around more than once. -/
def OneTurn (max : UInt32) (s : Counting) : Op → Prop
  | .inc | .dec => True
  | .add b => s.number.value.toNat + b.toNat ≤ 2 * max.toNat + 1
  | .sub b => b.toNat ≤ s.number.value.toNat + max.toNat + 1

instance (max : UInt32) (s : Counting) : (op : Op) → Decidable (s.OneTurn max op)
  | .inc | .dec => isTrue trivial
  | .add _ | .sub _ => inferInstanceAs (Decidable (_ ≤ _))

/-- The number after the operation still stands for the sum. -/
def Keeps (max : UInt32) (s : Counting) (op : Op) : Prop :=
  ∀ s', s.step op = some s' → s'.Represents max

section
variable {max : UInt32} {s : Counting}

/-- The number is in range, with the bounds that `New` gave it. -/
structure InRange (max : UInt32) (s : Counting) : Prop where
  wf : s.number.Wf
  max_eq : s.number.max = max
  represents : s.Represents max

/-- The sum, as the value and whole turns. -/
theorem Represents.exists_turns (h : s.Represents max) :
    ∃ k : Int, s.sum = s.number.value.toNat + (max.toNat + 1 : Nat) * k := by
  refine ⟨s.sum / (max.toNat + 1 : Nat), ?_⟩
  rw [h.2]
  exact (Int.emod_add_mul_ediv s.sum _).symm

/-- A value in range that differs from the sum by whole turns. -/
theorem represents_of_turns {number : Number} {sum k : Int} (hle : number.value ≤ max)
    (hsum : sum = number.value.toNat + (max.toNat + 1 : Nat) * k) :
    Represents max ⟨number, sum⟩ :=
  ⟨hle, (emod_eq_of_eq_add_mul (Nat.lt_succ_of_le (UInt32.le_iff_toNat_le.mp hle)) hsum).symm⟩

/-- `Add` takes off one turn, so what is added must not go beyond a second one. -/
theorem represents_add_iff (h : s.InRange max) (b : UInt32) :
    Represents max ⟨s.number.add b, s.sum + b.toNat⟩ ↔
      s.number.value.toNat + b.toNat ≤ 2 * max.toNat + 1 := by
  have hvalue := Number.toNat_value_add h.wf.value_le b
  rw [h.max_eq] at hvalue
  constructor
  · intro hafter
    have hle := UInt32.le_iff_toNat_le.mp hafter.1
    dsimp only at hle
    rw [hvalue] at hle
    split at hle <;> omega
  · intro hturn
    obtain ⟨k, hk⟩ := h.represents.exists_turns
    by_cases hsmall : s.number.value.toNat + b.toNat ≤ max.toNat
    · rw [if_pos hsmall] at hvalue
      refine represents_of_turns (k := k) (UInt32.le_iff_toNat_le.mpr (by omega)) ?_
      rw [hvalue, hk]
      push_cast
      ring
    · rw [if_neg hsmall] at hvalue
      refine represents_of_turns (k := k + 1) (UInt32.le_iff_toNat_le.mpr (by omega)) ?_
      rw [hvalue, hk, Nat.cast_sub (by omega)]
      push_cast
      ring

/-- `Sub` adds one turn. -/
theorem represents_sub_iff (h : s.InRange max) (b : UInt32) :
    Represents max ⟨s.number.sub b, s.sum - b.toNat⟩ ↔
      b.toNat ≤ s.number.value.toNat + max.toNat + 1 := by
  have hvalue := Number.toNat_value_sub h.wf.value_le b
  have hb := b.toNat_lt
  rw [h.max_eq] at hvalue
  constructor
  · intro hafter
    have hle := UInt32.le_iff_toNat_le.mp hafter.1
    dsimp only at hle
    rw [hvalue] at hle
    split at hle
    · omega
    · split at hle <;> omega
  · intro hturn
    obtain ⟨k, hk⟩ := h.represents.exists_turns
    have hrange := UInt32.le_iff_toNat_le.mp h.represents.1
    by_cases hsmall : b.toNat ≤ s.number.value.toNat
    · rw [if_pos hsmall] at hvalue
      refine represents_of_turns (k := k) (UInt32.le_iff_toNat_le.mpr (by omega)) ?_
      rw [hvalue, hk, Nat.cast_sub hsmall]
      ring
    · rw [if_neg hsmall, if_pos hturn] at hvalue
      refine represents_of_turns (k := k - 1) (UInt32.le_iff_toNat_le.mpr (by omega)) ?_
      rw [hvalue, hk, Nat.cast_sub hturn]
      push_cast
      ring

/-- `New` reduces a start value with one `Add`. -/
theorem represents_init_iff (x max : UInt32) :
    (init x max).Represents max ↔ x.toNat ≤ 2 * max.toNat + 1 := by
  have hzero : InRange max ⟨⟨max, max / 2, 0⟩, 0⟩ :=
    ⟨⟨UInt32.zero_le, rfl⟩, rfl, UInt32.zero_le, by simp⟩
  have hadd := represents_add_iff hzero x
  unfold init Number.new
  dsimp only at hadd ⊢
  rw [UInt32.toNat_zero, Nat.zero_add, Int.zero_add] at hadd
  by_cases hgt : x > max
  · rw [if_pos hgt]
    exact hadd
  · rw [if_neg hgt]
    have hle := UInt32.not_lt.mp hgt
    have hnat := UInt32.le_iff_toNat_le.mp hle
    exact iff_of_true (represents_of_turns (k := 0) hle (by simp)) (by omega)

theorem new_max (x max : UInt32) :
    (Number.new x max).max = max ∧ (Number.new x max).threshold = max / 2 := by
  unfold Number.new
  dsimp only
  split
  · exact Number.add_fields _ x
  · exact ⟨rfl, rfl⟩

/-- What a step keeps of the number besides its value. -/
theorem step_fields {s' : Counting} {op : Op} (h : s.step op = some s') :
    s'.number.max = s.number.max ∧ s'.number.threshold = s.number.threshold := by
  cases op with
  | inc =>
    cases h
    show s.number.inc.max = _ ∧ s.number.inc.threshold = _
    unfold Number.inc
    split <;> exact ⟨rfl, rfl⟩
  | dec =>
    cases h
    show s.number.dec.max = _ ∧ s.number.dec.threshold = _
    rw [Number.dec_eq_sub]
    exact Number.sub_fields _ 1
  | add b =>
    cases h
    exact Number.add_fields _ b
  | sub b =>
    cases h
    exact Number.sub_fields _ b

/-- A step after which the number is still right keeps the range. -/
theorem InRange.step {s' : Counting} {op : Op} (h : s.InRange max) (hkeeps : s.Keeps max op)
    (hs : s.step op = some s') : s'.InRange max := by
  obtain ⟨hmax, hthreshold⟩ := step_fields hs
  have hrepresents := hkeeps s' hs
  rw [h.max_eq] at hmax
  refine ⟨⟨?_, ?_⟩, hmax, hrepresents⟩
  · rw [hmax]
    exact hrepresents.1
  · rw [hthreshold, hmax, h.wf.threshold_eq, h.max_eq]

/-- A step is right exactly if it does not lead around more than once. -/
theorem keeps_iff_oneTurn (h : s.InRange max) (op : Op) : s.Keeps max op ↔ s.OneTurn max op := by
  have hrange := UInt32.le_iff_toNat_le.mp h.represents.1
  have hsome {t : Counting} : (∀ s', some t = some s' → s'.Represents max) ↔ t.Represents max :=
    ⟨fun hall => hall t rfl, fun ht s' hs' => by cases hs'; exact ht⟩
  unfold Keeps
  cases op with
  | inc =>
    have hadd := (represents_add_iff h 1).mpr (by rw [UInt32.toNat_one]; omega)
    rw [UInt32.toNat_one, ← h.wf.inc_eq_add] at hadd
    exact iff_of_true (hsome.mpr hadd) trivial
  | dec =>
    have hsub := (represents_sub_iff h 1).mpr (by rw [UInt32.toNat_one]; omega)
    rw [UInt32.toNat_one, ← Number.dec_eq_sub] at hsub
    exact iff_of_true (hsome.mpr hsub) trivial
  | add b => exact hsome.trans (represents_add_iff h b)
  | sub b => exact hsome.trans (represents_sub_iff h b)

end

/-- A number that `New` makes stands for the sum, at the start and after all operations, exactly if
no argument leads around more than once. -/
theorem represents_iff (x max : UInt32) (ops : List Op) :
    ((init x max).Represents max ∧ RunMeets step (Keeps max) (init x max) ops) ↔
      x.toNat ≤ 2 * max.toNat + 1 ∧ RunMeets step (OneTurn max) (init x max) ops := by
  rw [← represents_init_iff]
  refine and_congr_right fun hinit => ?_
  obtain ⟨hmax, hthreshold⟩ := new_max x max
  have hrange : (init x max).InRange max := by
    refine ⟨⟨?_, ?_⟩, hmax, hinit⟩
    · show (Number.new x max).value ≤ (Number.new x max).max
      rw [hmax]
      exact hinit.1
    · show (Number.new x max).threshold = (Number.new x max).max / 2
      rw [hthreshold, hmax]
  exact runMeets_congr_of (InRange max) (fun s op _ h => keeps_iff_oneTurn h op)
    (fun s op s' _ hkeeps h hs => h.step hkeeps hs) (runMeets_true _ _ ops) hrange

/-- With the maximum 9: 25 becomes 15, whether it is added or given to `New`, and subtracting it
from 0 gives nearly `2^32`. -/
theorem around_twice :
    (Number.new 25 9).val = 15 ∧ ((Number.new 0 9).add 25).val = 15 ∧
      ((Number.new 0 9).sub 25).val = 4294967281 ∧ ¬(init 25 9).Represents 9 ∧
      (init 0 9).Represents 9 ∧ ¬RunMeets step (Keeps 9) (init 0 9) [.add 25] ∧
      ¬RunMeets step (Keeps 9) (init 0 9) [.sub 25] := by
  refine ⟨by decide, by decide, by decide, by decide, by decide, fun h => ?_, fun h => ?_⟩
  · exact absurd (h.1 _ rfl) (by decide)
  · exact absurd (h.1 _ rfl) (by decide)

end Counting

end Gosrt
