import Gosrt.Lib.Serial
import Gosrt.Spec.Packet

/-!
# `Gosrt.Proofs.Circular`: circular numbers in a window

`Number.plus a i` is the number `i` steps after `a`: its value is the residue of
`a.value + i` modulo `max + 1`. `Wf` is what `circular.New` establishes for `x ≤ max`: the
value does not exceed `max`, and the threshold is `max / 2`.

The comparisons of the source are instances of `Lib.Serial.lt`. For numbers of the form
`a.plus i` they read off the offsets: `plus_lt_plus`, `plus_lte_plus`, `plus_gt_plus`,
`plus_gte_plus`, `plus_equals_plus`. Each one asks that the two offsets are less than the
threshold apart. `inc_plus` and `dec_plus_succ` move the offset by one.

`offset a n` recovers the offset of `n` from `a`, and `InWindow a k n` says that `n` is at
most `k` steps after `a`. Inside a window narrower than the threshold, each comparison of
two numbers is the comparison of their offsets (`InWindow.lt_eq` and its companions). The
proofs about the live receiver and sender only use these.

At the end are the sequence numbers: the numbers below `2 ^ 31`, as the wire carries them. Outside
of a window circular `Lt` is not transitive, but of two different sequence numbers exactly one is
before the other (`IsSequenceNumber.before_iff`).
-/

set_option autoImplicit false

namespace Gosrt.Number

open Gosrt.Lib

/-- The value is in range and the threshold is the one `circular.New` computes. -/
structure Wf (a : Number) : Prop where
  value_le : a.value ≤ a.max
  threshold_eq : a.threshold = a.max / 2

/-- The number `i` steps after `a`. -/
def plus (a : Number) (i : Nat) : Number :=
  { a with value := UInt32.ofNat ((a.value.toNat + i) % (a.max.toNat + 1)) }

@[simp] theorem plus_max (a : Number) (i : Nat) : (a.plus i).max = a.max := rfl

@[simp] theorem plus_threshold (a : Number) (i : Nat) : (a.plus i).threshold = a.threshold :=
  rfl

/-- The residue fits in a `UInt32`, so the value of `a.plus i` is the residue itself. -/
@[simp] theorem plus_value_toNat (a : Number) (i : Nat) :
    (a.plus i).value.toNat = (a.value.toNat + i) % (a.max.toNat + 1) := by
  have hmax := a.max.toNat_lt
  have hlt := Nat.mod_lt (a.value.toNat + i) (by omega : 0 < a.max.toNat + 1)
  show (UInt32.ofNat _).toNat = _
  rw [UInt32.toNat_ofNat_of_lt' (by simp only [UInt32.size]; omega)]

theorem Wf.plus {a : Number} (h : a.Wf) (i : Nat) : (a.plus i).Wf := by
  refine ⟨?_, h.threshold_eq⟩
  rw [UInt32.le_iff_toNat_le, plus_value_toNat, plus_max]
  have hlt := Nat.mod_lt (a.value.toNat + i) (by omega : 0 < a.max.toNat + 1)
  omega

/-- `New` takes a value that is in range as it is. -/
theorem new_of_le {x max : UInt32} (h : x ≤ max) :
    new x max = { max := max, threshold := max / 2, value := x } := by
  unfold new
  dsimp only
  rw [if_neg (UInt32.not_lt.mpr h)]

theorem wf_new_of_le {x max : UInt32} (h : x ≤ max) : (new x max).Wf := by
  rw [new_of_le h]
  exact ⟨h, rfl⟩

/-- Two numbers with the same bounds and the same value are the same. -/
theorem ext_value {a b : Number} (hm : a.max = b.max) (ht : a.threshold = b.threshold)
    (hv : a.value.toNat = b.value.toNat) : a = b := by
  cases a
  cases b
  simp only [mk.injEq] at hm ht hv ⊢
  exact ⟨hm, ht, UInt32.toNat_inj.mp hv⟩

@[simp] theorem plus_zero {a : Number} (h : a.Wf) : a.plus 0 = a := by
  have hle := UInt32.le_iff_toNat_le.mp h.value_le
  refine ext_value rfl rfl ?_
  rw [plus_value_toNat, Nat.add_zero, Nat.mod_eq_of_lt (by omega)]

@[simp] theorem plus_plus (a : Number) (i j : Nat) : (a.plus i).plus j = a.plus (i + j) := by
  refine ext_value rfl rfl ?_
  rw [plus_value_toNat, plus_value_toNat, plus_value_toNat, plus_max, Nat.mod_add_mod,
    Nat.add_assoc]

/-! ### The comparisons are serial comparisons -/

/-- The threshold is at most half the modulus, the side condition of `Serial.lt_add_mod`. -/
theorem Wf.two_mul_threshold {a : Number} (h : a.Wf) :
    2 * a.threshold.toNat ≤ a.max.toNat + 1 := by
  have ht : a.threshold.toNat = a.max.toNat / 2 := by
    rw [h.threshold_eq]
    simp
  omega

/-- `Lt` is the comparison of serial numbers. -/
theorem lt_eq_serial (a b : Number) :
    a.lt b = Serial.lt a.threshold.toNat a.value.toNat b.value.toNat := by
  unfold lt equals Serial.lt
  simp only [beq_iff_eq, ← UInt32.toNat_inj, gt_iff_lt, UInt32.lt_iff_toNat_lt]
  by_cases he : a.value.toNat = b.value.toNat
  · simp only [he, if_true]
  · by_cases hgt : b.value.toNat < a.value.toNat
    · have hd : (a.value - b.value).toNat = a.value.toNat - b.value.toNat :=
        UInt32.toNat_sub_of_le _ _ (UInt32.le_iff_toNat_le.mpr (by omega))
      simp only [if_neg he, if_pos hgt, hd]
      by_cases hlt : a.value.toNat - b.value.toNat < a.threshold.toNat <;> simp [hlt]
    · have hd : (b.value - a.value).toNat = b.value.toNat - a.value.toNat :=
        UInt32.toNat_sub_of_le _ _ (UInt32.le_iff_toNat_le.mpr (by omega))
      simp only [if_neg he, if_neg hgt, hd]
      by_cases hlt : b.value.toNat - a.value.toNat < a.threshold.toNat <;> simp [hlt]

/-- `Gt` is `Lt` the other way around, with the threshold of its receiver. -/
theorem gt_eq_serial (a b : Number) :
    a.gt b = Serial.lt a.threshold.toNat b.value.toNat a.value.toNat := by
  by_cases he : a.value = b.value
  · simp [gt, equals, he, Serial.lt]
  · -- For two different numbers, the source of `Gt` is that of `Lt` with the results exchanged.
    have hgt : a.gt b = !a.lt b := by
      unfold gt lt equals
      by_cases h : a.value > b.value <;> simp [he, h]
    rw [hgt, lt_eq_serial, Bool.eq_iff_iff, Bool.not_eq_true', ← Bool.not_eq_true,
      Serial.lt_iff_not_lt fun h => he (UInt32.toNat_inj.mp h.symm)]

/-- `Distance` is the one of the circle. -/
theorem distance_eq_serial {a b : Number} (ha : a.value ≤ a.max) (hb : b.value ≤ a.max) :
    (a.distance b).toNat
      = Serial.distance (a.max.toNat + 1) a.threshold.toNat a.value.toNat b.value.toNat := by
  rw [UInt32.le_iff_toNat_le] at ha hb
  have hmax := a.max.toNat_lt
  -- From the threshold on, `max - d + 1` is the rest of the circle.
  have hturn (d : UInt32) (hd : d.toNat ≤ a.max.toNat) (hpos : 0 < d.toNat) :
      (if d ≥ a.threshold then a.max - d + 1 else d).toNat
        = if a.threshold.toNat ≤ d.toNat then a.max.toNat + 1 - d.toNat else d.toNat := by
    by_cases h : a.threshold.toNat ≤ d.toNat
    · rw [if_pos h, if_pos (UInt32.le_iff_toNat_le.mpr h), UInt32.toNat_add,
        UInt32.toNat_sub_of_le _ _ (UInt32.le_iff_toNat_le.mpr hd), UInt32.toNat_one]
      omega
    · rw [if_neg h, if_neg (mt UInt32.le_iff_toNat_le.mp h)]
  unfold distance equals Serial.distance
  by_cases heq : a.value.toNat = b.value.toNat
  · rw [if_pos heq, if_pos (beq_iff_eq.mpr (UInt32.toNat_inj.mp heq))]
    rfl
  rw [if_neg heq, if_neg (by rw [beq_iff_eq, ← UInt32.toNat_inj]; exact heq)]
  by_cases hgt : b.value.toNat < a.value.toNat
  · have hd : (a.value - b.value).toNat = a.value.toNat - b.value.toNat :=
      UInt32.toNat_sub_of_le _ _ (UInt32.le_iff_toNat_le.mpr (by omega))
    simp only [if_pos hgt, if_pos (show a.value > b.value from UInt32.lt_iff_toNat_lt.mpr hgt)]
    rw [hturn _ (by omega) (by omega), hd]
  · have hd : (b.value - a.value).toNat = b.value.toNat - a.value.toNat :=
      UInt32.toNat_sub_of_le _ _ (UInt32.le_iff_toNat_le.mpr (by omega))
    simp only [if_neg hgt, if_neg (show ¬a.value > b.value from mt UInt32.lt_iff_toNat_lt.mp hgt)]
    rw [hturn _ (by omega) (by omega), hd]

/-! ### Offsets in a window -/

section
variable {a : Number} {i j : Nat}

/-- `Lt` reads off the offsets. -/
theorem plus_lt_plus (h : a.Wf) (h1 : i < j + a.threshold.toNat)
    (h2 : j < i + a.threshold.toNat) : (a.plus i).lt (a.plus j) = decide (i < j) := by
  rw [lt_eq_serial, plus_value_toNat, plus_value_toNat, plus_threshold]
  exact Serial.lt_add_mod h.two_mul_threshold h1 h2

/-- `Gt` reads off the offsets. -/
theorem plus_gt_plus (h : a.Wf) (h1 : i < j + a.threshold.toNat)
    (h2 : j < i + a.threshold.toNat) : (a.plus i).gt (a.plus j) = decide (j < i) := by
  rw [gt_eq_serial, plus_value_toNat, plus_value_toNat, plus_threshold]
  exact Serial.lt_add_mod h.two_mul_threshold h2 h1

/-- `Equals` reads off the offsets, even a whole turn apart. -/
theorem plus_equals_plus (h1 : i ≤ j + a.max.toNat) (h2 : j ≤ i + a.max.toNat) :
    (a.plus i).equals (a.plus j) = decide (i = j) := by
  have hinj := Serial.add_mod_inj (M := a.max.toNat + 1) (b := a.value.toNat) (i := i) (j := j)
    (by omega) (by omega)
  unfold equals
  rw [Bool.eq_iff_iff, beq_iff_eq, decide_eq_true_iff, ← UInt32.toNat_inj, plus_value_toNat,
    plus_value_toNat, hinj]

/-- The threshold is below the modulus, so offsets in a window are less than a turn
apart. -/
theorem Wf.threshold_le (h : a.Wf) : a.threshold.toNat ≤ a.max.toNat := by
  rw [h.threshold_eq]
  simp only [UInt32.toNat_div, UInt32.toNat_ofNat, Nat.reducePow, Nat.reduceMod]
  omega

/-- `Lte` reads off the offsets. -/
theorem plus_lte_plus (h : a.Wf) (h1 : i < j + a.threshold.toNat)
    (h2 : j < i + a.threshold.toNat) : (a.plus i).lte (a.plus j) = decide (i ≤ j) := by
  have ht := h.threshold_le
  unfold lte
  rw [plus_equals_plus (by omega) (by omega), plus_lt_plus h h1 h2]
  by_cases he : i = j
  · simp [he]
  · simp only [he, decide_false, Bool.false_eq_true, if_false, decide_eq_decide]
    omega

/-- `Gte` reads off the offsets. -/
theorem plus_gte_plus (h : a.Wf) (h1 : i < j + a.threshold.toNat)
    (h2 : j < i + a.threshold.toNat) : (a.plus i).gte (a.plus j) = decide (j ≤ i) := by
  have ht := h.threshold_le
  unfold gte
  rw [plus_equals_plus (by omega) (by omega), plus_gt_plus h h1 h2]
  by_cases he : i = j
  · simp [he]
  · simp only [he, decide_false, Bool.false_eq_true, if_false, decide_eq_decide]
    omega

end

/-! ### Increment and decrement -/

/-- `Inc` advances by one. -/
theorem Wf.inc_eq {a : Number} (h : a.Wf) : a.inc = a.plus 1 := by
  have hle := UInt32.le_iff_toNat_le.mp h.value_le
  have hmax := a.max.toNat_lt
  unfold inc
  by_cases he : a.value = a.max
  · rw [if_pos (by simpa using he)]
    refine ext_value rfl rfl ?_
    rw [plus_value_toNat, he, Nat.mod_self]
    rfl
  · have hne : a.value.toNat ≠ a.max.toNat := fun hc => he (UInt32.toNat_inj.mp hc)
    rw [if_neg (by simpa using he)]
    refine ext_value rfl rfl ?_
    rw [plus_value_toNat, Nat.mod_eq_of_lt (by omega)]
    show (a.value + 1).toNat = _
    rw [UInt32.toNat_add]
    simp only [UInt32.toNat_ofNat, Nat.reducePow, Nat.reduceMod]
    omega

/-- `Inc` moves the offset by one. -/
theorem inc_plus {a : Number} (h : a.Wf) (i : Nat) : (a.plus i).inc = a.plus (i + 1) := by
  rw [(h.plus i).inc_eq, plus_plus]

/-- `Add` and `Sub` only change the value. -/
theorem add_fields (a : Number) (b : UInt32) :
    (a.add b).max = a.max ∧ (a.add b).threshold = a.threshold := by
  unfold add
  dsimp only
  split
  · exact ⟨rfl, rfl⟩
  · exact ⟨rfl, rfl⟩

theorem sub_fields (a : Number) (b : UInt32) :
    (a.sub b).max = a.max ∧ (a.sub b).threshold = a.threshold := by
  unfold sub
  split
  · exact ⟨rfl, rfl⟩
  · exact ⟨rfl, rfl⟩

/-- `Add` on a number that is in range, for any argument: it takes off at most one turn. -/
theorem toNat_value_add {a : Number} (h : a.value ≤ a.max) (b : UInt32) :
    (a.add b).value.toNat
      = if a.value.toNat + b.toNat ≤ a.max.toNat then a.value.toNat + b.toNat
        else a.value.toNat + b.toNat - (a.max.toNat + 1) := by
  have hx := UInt32.toNat_sub_of_le _ _ h
  have hmax := a.max.toNat_lt
  have hb := b.toNat_lt
  rw [UInt32.le_iff_toNat_le] at h
  unfold add
  dsimp only
  by_cases hle : b ≤ a.max - a.value
  · rw [if_pos hle]
    rw [UInt32.le_iff_toNat_le, hx] at hle
    rw [if_pos (by omega), UInt32.toNat_add]
    exact Nat.mod_eq_of_lt (by omega)
  · rw [if_neg hle]
    rw [UInt32.le_iff_toNat_le, hx] at hle
    -- Past the maximum: `Add` takes off what is left of this turn, and one for zero.
    have hleft : (b - (a.max - a.value)).toNat = b.toNat - (a.max.toNat - a.value.toNat) := by
      rw [UInt32.toNat_sub_of_le, hx]
      rw [UInt32.le_iff_toNat_le, hx]
      omega
    have hone : (b - (a.max - a.value) - 1).toNat
        = b.toNat - (a.max.toNat - a.value.toNat) - 1 := by
      rw [UInt32.toNat_sub_of_le, hleft]
      · rfl
      · rw [UInt32.le_iff_toNat_le, hleft]
        show 1 ≤ _
        omega
    rw [if_neg (by omega)]
    show (b - (a.max - a.value) - 1).toNat = _
    rw [hone]
    omega

/-- `Sub` on a number that is in range, for any argument. More than a turn wraps in the word. -/
theorem toNat_value_sub {a : Number} (h : a.value ≤ a.max) (b : UInt32) :
    (a.sub b).value.toNat
      = if b.toNat ≤ a.value.toNat then a.value.toNat - b.toNat
        else if b.toNat ≤ a.value.toNat + a.max.toNat + 1 then
          a.value.toNat + a.max.toNat + 1 - b.toNat
        else 2 ^ 32 + (a.value.toNat + a.max.toNat + 1) - b.toNat := by
  have hmax := a.max.toNat_lt
  have hb := b.toNat_lt
  rw [UInt32.le_iff_toNat_le] at h
  unfold sub
  by_cases hle : b.toNat ≤ a.value.toNat
  · rw [if_pos (UInt32.le_iff_toNat_le.mpr hle), if_pos hle]
    exact UInt32.toNat_sub_of_le _ _ (UInt32.le_iff_toNat_le.mpr hle)
  · rw [if_neg (mt UInt32.le_iff_toNat_le.mp hle), if_neg hle]
    have hd : (b - a.value).toNat = b.toNat - a.value.toNat :=
      UInt32.toNat_sub_of_le _ _ (UInt32.le_iff_toNat_le.mpr (by omega))
    show (a.max - (b - a.value) + 1).toNat = _
    rw [UInt32.toNat_add, UInt32.toNat_sub, hd, UInt32.toNat_one]
    split <;> omega

/-- `Add` of less than a whole turn moves the offset. -/
theorem Wf.add_eq {a : Number} (h : a.Wf) {i : Nat} (hi : i ≤ a.max.toNat) :
    a.add (UInt32.ofNat i) = a.plus i := by
  have hle := UInt32.le_iff_toNat_le.mp h.value_le
  have hmax := a.max.toNat_lt
  have hival : (UInt32.ofNat i).toNat = i := UInt32.toNat_ofNat_of_lt' (Nat.lt_of_le_of_lt hi hmax)
  obtain ⟨hm, ht⟩ := add_fields a (UInt32.ofNat i)
  refine ext_value hm ht ?_
  rw [toNat_value_add h.value_le, hival, plus_value_toNat]
  rcases Serial.add_mod_cases (show a.value.toNat < a.max.toNat + 1 by omega)
    (show i < a.max.toNat + 1 by omega) with ⟨hlt, hmod⟩ | ⟨hge, hmod⟩
  · rw [hmod, if_pos (by omega)]
  · rw [hmod, if_neg (by omega)]

/-- `Dec` keeps the numbers in their range. -/
theorem Wf.dec {a : Number} (h : a.Wf) : a.dec.Wf := by
  have hle := UInt32.le_iff_toNat_le.mp h.value_le
  unfold Number.dec
  by_cases he : a.value = 0
  · rw [if_pos (by simpa using he)]
    exact ⟨UInt32.le_refl _, h.threshold_eq⟩
  · rw [if_neg (by simpa using he)]
    refine ⟨?_, h.threshold_eq⟩
    have hne : a.value.toNat ≠ 0 := fun hc => he (UInt32.toNat_inj.mp hc)
    show a.value - 1 ≤ a.max
    rw [UInt32.le_iff_toNat_le, UInt32.toNat_sub_of_le _ _
      (UInt32.le_iff_toNat_le.mpr (by simp only [UInt32.toNat_ofNat]; omega))]
    omega

/-- `Dec` undoes an advance by one. -/
theorem dec_plus_one {a : Number} (h : a.Wf) : a.dec.plus 1 = a := by
  have hle := UInt32.le_iff_toNat_le.mp h.value_le
  unfold dec
  by_cases he : a.value = 0
  · rw [if_pos (by simpa using he)]
    refine ext_value rfl rfl ?_
    rw [plus_value_toNat, Nat.mod_self, he]
    rfl
  · rw [if_neg (by simpa using he)]
    have hne : a.value.toNat ≠ 0 := fun hc => he (UInt32.toNat_inj.mp hc)
    refine ext_value rfl rfl ?_
    have hsub : (a.value - 1).toNat = a.value.toNat - 1 :=
      UInt32.toNat_sub_of_le _ _
        (UInt32.le_iff_toNat_le.mpr (by simp only [UInt32.toNat_ofNat]; omega))
    rw [plus_value_toNat]
    simp only [hsub]
    rw [Nat.mod_eq_of_lt (by omega)]
    omega

/-- `Dec` moves a positive offset back by one. -/
theorem dec_plus_succ {a : Number} (h : a.Wf) (i : Nat) : (a.plus (i + 1)).dec = a.plus i := by
  have h1 := dec_plus_one (h.plus (i + 1))
  have hd := (h.plus (i + 1)).dec
  -- Both sides advance by one to `a.plus (i + 1)`, and `plus 1` is injective.
  have hmax : (a.plus (i + 1)).dec.max = a.max := by
    unfold dec
    split <;> rfl
  have hthr : (a.plus (i + 1)).dec.threshold = a.threshold := by
    unfold dec
    split <;> rfl
  refine ext_value hmax hthr ?_
  have hv := congrArg (fun n : Number => n.value.toNat) h1
  simp only [plus_value_toNat] at hv
  rw [hmax] at hv
  have hlt1 : (a.plus (i + 1)).dec.value.toNat < a.max.toNat + 1 := by
    have := UInt32.le_iff_toNat_le.mp hd.value_le
    rw [hmax] at this
    omega
  have hlt2 := Nat.mod_lt (a.value.toNat + i) (by omega : 0 < a.max.toNat + 1)
  rw [plus_value_toNat]
  rw [← Nat.add_assoc, ← Nat.mod_add_mod (a.value.toNat + i)] at hv
  have hinj := Serial.add_mod_inj (M := a.max.toNat + 1) (b := 1)
    (i := (a.plus (i + 1)).dec.value.toNat)
    (j := (a.value.toNat + i) % (a.max.toNat + 1)) (by omega) (by omega)
  rw [Nat.add_comm 1, Nat.add_comm 1] at hinj
  exact hinj.mp hv

/-! ### Windows -/

/-- How many steps `n` is after `a`. -/
def offset (a n : Number) : Nat :=
  (n.value.toNat + (a.max.toNat + 1 - a.value.toNat)) % (a.max.toNat + 1)

/-- The offset is what was added. -/
theorem offset_plus {a : Number} (h : a.Wf) {i : Nat} (hi : i ≤ a.max.toNat) :
    a.offset (a.plus i) = i := by
  have hle := UInt32.le_iff_toNat_le.mp h.value_le
  unfold offset
  rw [plus_value_toNat, Nat.mod_add_mod,
    show a.value.toNat + i + (a.max.toNat + 1 - a.value.toNat) = i + (a.max.toNat + 1) by omega,
    Nat.add_mod_right, Nat.mod_eq_of_lt (by omega)]

/-- `n` is at most `k` steps after `a`. -/
def InWindow (a : Number) (k : Nat) (n : Number) : Prop :=
  n = a.plus (a.offset n) ∧ a.offset n ≤ k

instance (a : Number) (k : Nat) (n : Number) : Decidable (a.InWindow k n) :=
  inferInstanceAs (Decidable (_ ∧ _))

theorem inWindow_plus {a : Number} (h : a.Wf) {i k : Nat} (hi : i ≤ k)
    (hk : k ≤ a.max.toNat) : a.InWindow k (a.plus i) := by
  have ho := offset_plus h (i := i) (by omega)
  exact ⟨by rw [ho], by rw [ho]; exact hi⟩

theorem InWindow.mono {a n : Number} {k k' : Nat} (h : a.InWindow k n) (hk : k ≤ k') :
    a.InWindow k' n :=
  ⟨h.1, Nat.le_trans h.2 hk⟩

section
variable {a m n : Number} {k : Nat}

/-- In a window, the offset determines the number. -/
theorem InWindow.eq_iff (hm : a.InWindow k m) (hn : a.InWindow k n) :
    m = n ↔ a.offset m = a.offset n := by
  constructor
  · rintro rfl
    rfl
  · intro h
    rw [hm.1, hn.1, h]

/-- In a window below the threshold, `Lt` compares the offsets. -/
theorem InWindow.lt_eq (h : a.Wf) (hk : k < a.threshold.toNat) (hm : a.InWindow k m)
    (hn : a.InWindow k n) : m.lt n = decide (a.offset m < a.offset n) := by
  have hmk := hm.2
  have hnk := hn.2
  conv_lhs => rw [hm.1, hn.1]
  exact plus_lt_plus h (by omega) (by omega)

theorem InWindow.lte_eq (h : a.Wf) (hk : k < a.threshold.toNat) (hm : a.InWindow k m)
    (hn : a.InWindow k n) : m.lte n = decide (a.offset m ≤ a.offset n) := by
  have hmk := hm.2
  have hnk := hn.2
  conv_lhs => rw [hm.1, hn.1]
  exact plus_lte_plus h (by omega) (by omega)

theorem InWindow.gt_eq (h : a.Wf) (hk : k < a.threshold.toNat) (hm : a.InWindow k m)
    (hn : a.InWindow k n) : m.gt n = decide (a.offset n < a.offset m) := by
  have hmk := hm.2
  have hnk := hn.2
  conv_lhs => rw [hm.1, hn.1]
  exact plus_gt_plus h (by omega) (by omega)

theorem InWindow.gte_eq (h : a.Wf) (hk : k < a.threshold.toNat) (hm : a.InWindow k m)
    (hn : a.InWindow k n) : m.gte n = decide (a.offset n ≤ a.offset m) := by
  have hmk := hm.2
  have hnk := hn.2
  conv_lhs => rw [hm.1, hn.1]
  exact plus_gte_plus h (by omega) (by omega)

/-- A number equals the one after `n` exactly when its offset is one more. -/
theorem InWindow.equals_inc_eq (h : a.Wf) (hk : k < a.max.toNat) (hm : a.InWindow k m)
    (hn : a.InWindow k n) : m.equals n.inc = decide (a.offset m = a.offset n + 1) := by
  have hmk := hm.2
  have hnk := hn.2
  conv_lhs => rw [hm.1, hn.1, inc_plus h]
  exact plus_equals_plus (by omega) (by omega)

/-- The next number, when the window goes on. -/
theorem InWindow.inc_of_lt (h : a.Wf) (hk : k < a.max.toNat) (hn : a.InWindow k n)
    (hlt : a.offset n < k) : a.InWindow k n.inc ∧ a.offset n.inc = a.offset n + 1 := by
  have hinc : n.inc = a.plus (a.offset n + 1) := by
    conv_lhs => rw [hn.1]
    exact inc_plus h _
  rw [hinc, offset_plus h (by omega)]
  exact ⟨inWindow_plus h hlt (by omega), rfl⟩

/-- The number before, inside of the window. -/
theorem InWindow.dec_of_pos (h : a.Wf) (hk : k < a.max.toNat) (hn : a.InWindow k n)
    (hpos : 0 < a.offset n) : a.InWindow k n.dec ∧ a.offset n.dec = a.offset n - 1 := by
  have hnk := hn.2
  have hdec : n.dec = a.plus (a.offset n - 1) := by
    conv_lhs => rw [hn.1, show a.offset n = a.offset n - 1 + 1 by omega]
    exact dec_plus_succ h _
  rw [hdec, offset_plus h (by omega)]
  exact ⟨inWindow_plus h (by omega) (by omega), rfl⟩

end

/-! ### Sequence numbers -/

theorem and_maxSequenceNumber_le (x : UInt32) : x &&& maxSequenceNumber ≤ maxSequenceNumber := by
  rw [UInt32.le_iff_toNat_le, UInt32.toNat_and]
  exact Nat.and_le_right

/-- Masked numbers keep their form. -/
theorem isSequenceNumber_new (x : UInt32) :
    (Number.new (x &&& maxSequenceNumber) maxSequenceNumber).IsSequenceNumber := by
  have hval : (Number.new (x &&& maxSequenceNumber) maxSequenceNumber).val
      = x &&& maxSequenceNumber := by
    rw [new_of_le (and_maxSequenceNumber_le x)]
    rfl
  unfold IsSequenceNumber
  rw [hval, UInt32.and_assoc, UInt32.and_self]

theorem IsSequenceNumber.wf {n : Number} (h : n.IsSequenceNumber) : n.Wf := by
  rw [← h]
  exact wf_new_of_le (and_maxSequenceNumber_le _)

theorem IsSequenceNumber.max_eq {n : Number} (h : n.IsSequenceNumber) :
    n.max = maxSequenceNumber := by
  rw [← h, new_of_le (and_maxSequenceNumber_le _)]

theorem IsSequenceNumber.max_toNat {n : Number} (h : n.IsSequenceNumber) :
    n.max.toNat = 2 ^ 31 - 1 := by
  rw [h.max_eq]
  rfl

theorem IsSequenceNumber.threshold_toNat {n : Number} (h : n.IsSequenceNumber) :
    n.threshold.toNat = 2 ^ 30 - 1 := by
  rw [h.wf.threshold_eq, h.max_eq]
  rfl

theorem IsSequenceNumber.val_lt {n : Number} (h : n.IsSequenceNumber) :
    n.val.toNat < 2 ^ 31 := by
  have hle := h.wf.value_le
  rw [h.max_eq] at hle
  exact Nat.lt_succ_of_le (UInt32.le_iff_toNat_le.mp hle)

/-- `New` makes a sequence number again from its value. -/
theorem IsSequenceNumber.new_val {n : Number} (h : n.IsSequenceNumber) :
    Number.new n.val maxSequenceNumber = n := by
  have hle := h.wf.value_le
  rw [h.max_eq] at hle
  rw [new_of_le (show n.val ≤ maxSequenceNumber from hle)]
  exact ext_value h.max_eq.symm (by rw [h.wf.threshold_eq, h.max_eq]) rfl

/-- A well-formed number with the right maximum is a sequence number: the mask keeps it. -/
theorem isSequenceNumber_of_wf {n : Number} (hwf : n.Wf) (hmax : n.max = maxSequenceNumber) :
    n.IsSequenceNumber := by
  have hle := hwf.value_le
  rw [hmax] at hle
  have hmask : n.value &&& maxSequenceNumber = n.value := by
    have hlt := UInt32.le_iff_toNat_le.mp hle
    rw [← UInt32.toNat_inj, UInt32.toNat_and]
    show n.value.toNat &&& (2 ^ 31 - 1) = n.value.toNat
    rw [Nat.and_two_pow_sub_one_eq_mod]
    exact Nat.mod_eq_of_lt (Nat.lt_succ_of_le hlt)
  unfold IsSequenceNumber
  rw [show n.val = n.value from rfl, hmask, new_of_le hle]
  exact ext_value hmax.symm (by rw [hwf.threshold_eq, hmax]) rfl

theorem IsSequenceNumber.plus {n : Number} (h : n.IsSequenceNumber) (i : Nat) :
    (n.plus i).IsSequenceNumber :=
  isSequenceNumber_of_wf (h.wf.plus i) h.max_eq

/-- One number is before the other one, as a relation. -/
def Before (a b : Number) : Prop := a.lt b = true

section
variable {a b : Number}

/-- Sequence numbers have the same threshold, so `Gt` is `Lt` the other way around. -/
theorem IsSequenceNumber.gt_eq_lt (ha : a.IsSequenceNumber) (hb : b.IsSequenceNumber) :
    a.gt b = b.lt a := by
  rw [gt_eq_serial, lt_eq_serial, ha.wf.threshold_eq, hb.wf.threshold_eq, ha.max_eq, hb.max_eq]

/-- Sequence numbers are determined by their values. -/
theorem IsSequenceNumber.equals_iff (ha : a.IsSequenceNumber) (hb : b.IsSequenceNumber) :
    a.equals b = true ↔ a = b := by
  constructor
  · intro h
    refine ext_value (ha.max_eq.trans hb.max_eq.symm) ?_ (congrArg UInt32.toNat (beq_iff_eq.mp h))
    rw [ha.wf.threshold_eq, hb.wf.threshold_eq, ha.max_eq, hb.max_eq]
  · rintro rfl
    exact beq_self_eq_true a.value

/-- Of two different sequence numbers exactly one is before the other. -/
theorem IsSequenceNumber.before_iff (ha : a.IsSequenceNumber) (hb : b.IsSequenceNumber)
    (hne : a ≠ b) : a.Before b ↔ ¬b.Before a := by
  have hvalue : a.value.toNat ≠ b.value.toNat := by
    intro h
    exact hne ((ha.equals_iff hb).mp (beq_iff_eq.mpr (UInt32.toNat_inj.mp h)))
  unfold Before
  rw [lt_eq_serial, lt_eq_serial, ha.wf.threshold_eq, hb.wf.threshold_eq, ha.max_eq, hb.max_eq]
  exact Serial.lt_iff_not_lt hvalue

theorem not_before_self (a : Number) : ¬a.Before a := by
  unfold Before
  rw [lt_eq_serial]
  unfold Serial.lt
  rw [if_pos rfl]
  exact Bool.false_ne_true

theorem IsSequenceNumber.not_before_of_before (ha : a.IsSequenceNumber) (hb : b.IsSequenceNumber)
    (h : a.Before b) : ¬b.Before a := by
  have hne : a ≠ b := by
    rintro rfl
    exact not_before_self a h
  exact (ha.before_iff hb hne).mp h

/-- `Lte` is `Lt` or equality. -/
theorem IsSequenceNumber.lte_iff (ha : a.IsSequenceNumber) (hb : b.IsSequenceNumber) :
    a.lte b = true ↔ a = b ∨ a.Before b := by
  unfold lte
  by_cases h : a = b
  · rw [if_pos ((ha.equals_iff hb).mpr h)]
    exact ⟨fun _ => Or.inl h, fun _ => rfl⟩
  · rw [if_neg (mt (ha.equals_iff hb).mp h)]
    exact ⟨Or.inr, fun hor => hor.resolve_left h⟩

/-- What is not at or before a number is after it. -/
theorem IsSequenceNumber.before_of_not_lte (ha : a.IsSequenceNumber) (hb : b.IsSequenceNumber)
    (h : ¬a.lte b = true) : b.Before a := by
  rw [ha.lte_iff hb, not_or] at h
  exact (hb.before_iff ha (Ne.symm h.1)).mpr h.2

/-- A number is before the next one. -/
theorem IsSequenceNumber.before_inc (ha : a.IsSequenceNumber) : a.Before a.inc := by
  have hthreshold : 1 < a.threshold.toNat := by
    rw [ha.wf.threshold_eq, ha.max_eq]
    decide
  have hlt := plus_lt_plus (i := 0) (j := 1) ha.wf (by omega) (by omega)
  unfold Before
  rw [ha.wf.inc_eq]
  rwa [plus_zero ha.wf] at hlt

theorem IsSequenceNumber.inc (ha : a.IsSequenceNumber) : a.inc.IsSequenceNumber := by
  rw [ha.wf.inc_eq]
  exact ha.plus 1

theorem IsSequenceNumber.dec (ha : a.IsSequenceNumber) : a.dec.IsSequenceNumber := by
  refine isSequenceNumber_of_wf ha.wf.dec ?_
  unfold Number.dec
  split
  · exact ha.max_eq
  · exact ha.max_eq

/-! ### Distances -/

/-- The offset between two numbers that are at most a turn after a third one. -/
theorem offset_plus_plus (hb : b.Wf) {i j : Nat} (hij : i ≤ j) (hj : j ≤ b.max.toNat) :
    (b.plus i).offset (b.plus j) = j - i := by
  rw [show b.plus j = (b.plus i).plus (j - i) by rw [plus_plus, Nat.add_sub_cancel' hij]]
  exact offset_plus (hb.plus i) (by rw [plus_max]; omega)

/-- The offset of a number that is before this one goes nearly once around. -/
theorem offset_plus_plus_of_lt (hb : b.Wf) {i j : Nat} (hji : j < i) (hi : i ≤ b.max.toNat) :
    (b.plus i).offset (b.plus j) = b.max.toNat + 1 - (i - j) := by
  have hturn : b.plus j = (b.plus i).plus (b.max.toNat + 1 - (i - j)) := by
    rw [plus_plus]
    refine ext_value rfl rfl ?_
    rw [plus_value_toNat, plus_value_toNat,
      show b.value.toNat + (i + (b.max.toNat + 1 - (i - j)))
        = b.value.toNat + j + (b.max.toNat + 1) by omega, Nat.add_mod_right]
  rw [hturn]
  exact offset_plus (hb.plus i) (by rw [plus_max]; omega)

/-- Every sequence number can be reached from any other one. -/
theorem IsSequenceNumber.plus_offset (hb : b.IsSequenceNumber) (ha : a.IsSequenceNumber) :
    b.plus (b.offset a) = a := by
  have hmax := hb.max_toNat
  have hav : a.value.toNat < 2 ^ 31 := ha.val_lt
  have hbv : b.value.toNat < 2 ^ 31 := hb.val_lt
  refine ext_value (hb.max_eq.trans ha.max_eq.symm) ?_ ?_
  · rw [plus_threshold, hb.wf.threshold_eq, ha.wf.threshold_eq, hb.max_eq, ha.max_eq]
  · rw [plus_value_toNat]
    unfold offset
    rw [hmax]
    omega

/-- The offset determines the sequence number. -/
theorem IsSequenceNumber.offset_inj {m : Number} (hb : b.IsSequenceNumber)
    (ha : a.IsSequenceNumber) (hm : m.IsSequenceNumber) : b.offset a = b.offset m ↔ a = m := by
  constructor
  · intro h
    rw [← hb.plus_offset ha, h, hb.plus_offset hm]
  · rintro rfl
    rfl

/-- The numbers of a window are sequence numbers if its base is one. -/
theorem IsSequenceNumber.of_inWindow {k : Nat} (hb : b.IsSequenceNumber) (ha : b.InWindow k a) :
    a.IsSequenceNumber := by
  rw [ha.1]
  exact hb.plus _

/-- `Distance` does not depend on the direction. -/
theorem IsSequenceNumber.distance_comm (ha : a.IsSequenceNumber) (hb : b.IsSequenceNumber) :
    a.distance b = b.distance a := by
  have hmax : a.max = b.max := ha.max_eq.trans hb.max_eq.symm
  have hthreshold : a.threshold = b.threshold := by
    rw [ha.wf.threshold_eq, hb.wf.threshold_eq, hmax]
  rw [← UInt32.toNat_inj, distance_eq_serial ha.wf.value_le (by rw [hmax]; exact hb.wf.value_le),
    distance_eq_serial hb.wf.value_le (by rw [← hmax]; exact ha.wf.value_le), hmax, hthreshold]
  exact Serial.distance_comm _ _ _ _

/-- `Distance` to a number that is after this one is the number of steps to it. -/
theorem IsSequenceNumber.distance_of_before (ha : a.IsSequenceNumber) (hb : b.IsSequenceNumber)
    (h : a.Before b) : (a.distance b).toNat = a.offset b := by
  have hmax : a.max = b.max := ha.max_eq.trans hb.max_eq.symm
  have hbv : b.value ≤ a.max := by
    rw [hmax]
    exact hb.wf.value_le
  rw [distance_eq_serial ha.wf.value_le hbv]
  exact Serial.distance_of_lt (Nat.lt_succ_of_le (UInt32.le_iff_toNat_le.mp ha.wf.value_le))
    (Nat.lt_succ_of_le (UInt32.le_iff_toNat_le.mp hbv)) (by rw [← lt_eq_serial]; exact h)

/-- In a window that is one wider than the comparisons allow, a number that is before another one
still has the smaller offset, if the other one is not the base. -/
theorem IsSequenceNumber.offset_lt_of_before {m : Number} (hb : b.IsSequenceNumber)
    (ha : b.InWindow (2 ^ 30 - 1) a) (hm : b.InWindow (2 ^ 30 - 1) m) (hpos : 0 < b.offset m)
    (h : a.Before m) : b.offset a < b.offset m := by
  have hthreshold := hb.threshold_toNat
  have hak := ha.2
  have hmk := hm.2
  by_contra hle
  -- The offsets differ by less than the threshold, so the comparison is the one of the offsets.
  have hlt := plus_lt_plus (i := b.offset a) (j := b.offset m) hb.wf (by omega) (by omega)
  rw [← ha.1, ← hm.1, show a.lt m = true from h, decide_eq_false hle] at hlt
  cases hlt

end

end Gosrt.Number
