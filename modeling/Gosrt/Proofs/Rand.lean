import Mathlib.Data.Int.CardIntervalMod
import Mathlib.Data.Set.Card
import Mathlib.Tactic.IntervalCases
import Mathlib.Tactic.Ring
import Gosrt.Lib.Signed
import Gosrt.Spec.Rand

/-!
# `Gosrt.Proofs.Rand`: `Int63n` prefers no result

* `int63n_eq_ok_iff`: `Int63n` returns what it makes of the first read that it accepts.
* `unbiased`: the accepted numbers are more than half of all, and each result comes from the same
  number of them.
-/

set_option autoImplicit false

namespace Gosrt.Rand

open Lib

/-! ### The bytes of a number -/

/-- One more byte below those that are there. -/
theorem or_byte (p q : Nat) {j k : Nat} (hj : j = k + 8) (hq : q < 2 ^ 8) :
    (p * 2 ^ j) ||| (q * 2 ^ k) = (p * 2 ^ 8 + q) * 2 ^ k := by
  subst hj
  have hlt : q * 2 ^ k < 2 ^ (k + 8) := by
    rw [pow_add, mul_comm (2 ^ k)]
    exact Nat.mul_lt_mul_of_pos_right hq (Nat.two_pow_pos k)
  rw [mul_comm p, ← Nat.two_pow_add_eq_or_of_lt hlt]
  ring

theorem toNat_byte_shiftLeft (b : UInt8) (k : UInt64) (hk : k.toNat ≤ 56) :
    (b.toUInt64 <<< k).toNat = b.toNat * 2 ^ k.toNat := by
  have hb := b.toNat_lt
  have hlt : b.toNat * 2 ^ k.toNat < 2 ^ 64 := by
    calc b.toNat * 2 ^ k.toNat < 2 ^ 8 * 2 ^ k.toNat :=
          Nat.mul_lt_mul_of_pos_right hb (Nat.two_pow_pos _)
      _ = 2 ^ (8 + k.toNat) := (pow_add 2 8 k.toNat).symm
      _ ≤ 2 ^ 64 := Nat.pow_le_pow_right (by decide) (by omega)
  have hk64 : k.toNat % 64 = k.toNat := Nat.mod_eq_of_lt (by omega)
  rw [UInt64.toNat_shiftLeft, UInt8.toNat_toUInt64, hk64, Nat.shiftLeft_eq,
    Nat.mod_eq_of_lt hlt]

/-- Eight bytes by name. -/
theorem exists_bytes (b : Vector UInt8 8) :
    ∃ b0 b1 b2 b3 b4 b5 b6 b7, b = #v[b0, b1, b2, b3, b4, b5, b6, b7] := by
  refine ⟨b[0], b[1], b[2], b[3], b[4], b[5], b[6], b[7], ?_⟩
  ext i hi
  interval_cases i <;> rfl

section
variable (b0 b1 b2 b3 b4 b5 b6 b7 : UInt8)

/-- The bytes with the most significant first, without the uppermost bit. -/
theorem toNat_int63OfBytes :
    (int63OfBytes #v[b0, b1, b2, b3, b4, b5, b6, b7]).toUInt64.toNat =
      ((((((b0.toNat % 2 ^ 7 * 2 ^ 8 + b1.toNat) * 2 ^ 8 + b2.toNat) * 2 ^ 8 + b3.toNat) * 2 ^ 8 +
        b4.toNat) * 2 ^ 8 + b5.toNat) * 2 ^ 8 + b6.toNat) * 2 ^ 8 + b7.toNat := by
  have hfirst : (b0 &&& 0b01111111).toNat = b0.toNat % 2 ^ 7 :=
    (UInt8.toNat_and _ _).trans (Nat.and_two_pow_sub_one_eq_mod b0.toNat 7)
  have hlast (p q : Nat) (hq : q < 2 ^ 8) : p * 2 ^ 8 ||| q = p * 2 ^ 8 + q := by
    simpa using or_byte p q (Nat.zero_add 8).symm hq
  simp only [int63OfBytes, Vector.getElem_mk, List.getElem_toArray, List.getElem_cons_zero,
    List.getElem_cons_succ, UInt64.toUInt64_toInt64, UInt64.toNat_or]
  rw [toNat_byte_shiftLeft _ 56 (by decide), toNat_byte_shiftLeft _ 48 (by decide),
    toNat_byte_shiftLeft _ 40 (by decide), toNat_byte_shiftLeft _ 32 (by decide),
    toNat_byte_shiftLeft _ 24 (by decide), toNat_byte_shiftLeft _ 16 (by decide),
    toNat_byte_shiftLeft _ 8 (by decide), UInt8.toNat_toUInt64, hfirst]
  simp only [UInt64.reduceToNat]
  -- From the left, each byte is put below all that are there.
  rw [or_byte _ _ rfl b1.toNat_lt, or_byte _ _ rfl b2.toNat_lt, or_byte _ _ rfl b3.toNat_lt,
    or_byte _ _ rfl b4.toNat_lt, or_byte _ _ rfl b5.toNat_lt, or_byte _ _ rfl b6.toNat_lt,
    hlast _ _ b7.toNat_lt]

/-- The eight bytes of a number. -/
def bytesOf (v : Nat) : Vector UInt8 8 :=
  #v[UInt8.ofNat (v / 2 ^ 56), UInt8.ofNat (v / 2 ^ 48), UInt8.ofNat (v / 2 ^ 40),
    UInt8.ofNat (v / 2 ^ 32), UInt8.ofNat (v / 2 ^ 24), UInt8.ofNat (v / 2 ^ 16),
    UInt8.ofNat (v / 2 ^ 8), UInt8.ofNat v]

end

theorem int63OfBytes_nonneg (b : Vector UInt8 8) : 0 ≤ int63OfBytes b := by
  obtain ⟨b0, b1, b2, b3, b4, b5, b6, b7, rfl⟩ := exists_bytes b
  have h1 := b1.toNat_lt
  have h2 := b2.toNat_lt
  have h3 := b3.toNat_lt
  have h4 := b4.toNat_lt
  have h5 := b5.toNat_lt
  have h6 := b6.toNat_lt
  have h7 := b7.toNat_lt
  rw [nonneg_iff_toNat, toNat_int63OfBytes]
  omega

theorem toNat_int63OfBytes_bytesOf {v : Nat} (hv : v < 2 ^ 63) :
    (int63OfBytes (bytesOf v)).toUInt64.toNat = v := by
  rw [bytesOf, toNat_int63OfBytes]
  simp only [UInt8.toNat_ofNat']
  omega

/-! ### The first accepted read -/

/-- The numbers that `Int63n` does not reject. -/
def Accepts (n v : Int64) : Prop := n &&& (n - 1) = 0 ∨ v ≤ int63nMax n

/-- What `Int63n` returns for a number that it accepts. -/
def pick (n v : Int64) : Int64 := if n &&& (n - 1) = 0 then v &&& (n - 1) else v % n

section
variable {n : Int64} {b : Vector UInt8 8}

theorem redraw_of_le {max v : Int64} (h : v ≤ max) (draws : List Draw) :
    redraw max v draws = .ok (v, draws) := by
  have hnot : ¬ v > max := Int64.not_lt.mpr h
  match draws with
  | [] => simp only [redraw, if_neg hnot]
  | none :: rest => simp only [redraw, if_neg hnot]
  | some b :: rest => rw [redraw, if_neg hnot]

theorem int63n_cons_of_accepts (h : Accepts n (int63OfBytes b)) (rest : List Draw) :
    int63n n (some b :: rest) = .ok (pick n (int63OfBytes b), rest) := by
  unfold int63n pick
  by_cases hpow : n &&& (n - 1) = 0
  · rw [if_pos hpow, if_pos hpow]
    rfl
  · rw [if_neg hpow, if_neg hpow]
    have hle := h.resolve_left hpow
    show (redraw (int63nMax n) (int63OfBytes b) rest >>= fun p => .ok (p.1 % n, p.2)) = _
    rw [redraw_of_le hle]
    rfl

/-- A rejected read is as if it had not been made. -/
theorem int63n_cons_of_rejects (h : ¬ Accepts n (int63OfBytes b)) (rest : List Draw) :
    int63n n (some b :: rest) = int63n n rest := by
  obtain ⟨hpow, hmax⟩ := not_or.mp h
  have hgt : int63OfBytes b > int63nMax n := Int64.not_le.mp hmax
  unfold int63n
  rw [if_neg hpow]
  show (redraw (int63nMax n) (int63OfBytes b) rest >>= fun p => .ok (p.1 % n, p.2)) = _
  -- One pass of the loop is a read, which is also how the function starts.
  match rest with
  | [] =>
    simp only [redraw, if_pos hgt]
    rfl
  | none :: rest =>
    simp only [redraw, if_pos hgt]
    rfl
  | some b' :: rest =>
    rw [redraw, if_pos hgt]
    rfl

end

theorem int63n_nil (n : Int64) : int63n n [] = .error .waiting := by
  unfold int63n
  split <;> rfl

theorem int63n_none (n : Int64) (rest : List Draw) : int63n n (none :: rest) = .error .failed := by
  unfold int63n
  split <;> rfl

/-- `Int63n` returns what it makes of the first accepted read, and the reads after it are left. -/
theorem int63n_eq_ok_iff (n : Int64) (draws : List Draw) (r : Int64) (rest : List Draw) :
    int63n n draws = .ok (r, rest) ↔
      ∃ (skipped : List (Vector UInt8 8)) (b : Vector UInt8 8),
        draws = skipped.map some ++ some b :: rest ∧
        (∀ s ∈ skipped, ¬ Accepts n (int63OfBytes s)) ∧ Accepts n (int63OfBytes b) ∧
        pick n (int63OfBytes b) = r := by
  constructor
  · intro h
    induction draws with
    | nil => simp [int63n_nil] at h
    | cons draw draws ih =>
      cases draw with
      | none => simp [int63n_none] at h
      | some b =>
        by_cases hacc : Accepts n (int63OfBytes b)
        · rw [int63n_cons_of_accepts hacc] at h
          cases h
          exact ⟨[], b, rfl, nofun, hacc, rfl⟩
        · rw [int63n_cons_of_rejects hacc] at h
          obtain ⟨skipped, b', rfl, hskipped, haccepted⟩ := ih h
          exact ⟨b :: skipped, b', rfl, List.forall_mem_cons.mpr ⟨hacc, hskipped⟩, haccepted⟩
  · rintro ⟨skipped, b, rfl, hskipped, hacc, rfl⟩
    induction skipped with
    | nil => exact int63n_cons_of_accepts hacc rest
    | cons s skipped ih =>
      obtain ⟨hs, hskipped⟩ := List.forall_mem_cons.mp hskipped
      rw [List.map_cons, List.cons_append, int63n_cons_of_rejects hs]
      exact ih hskipped

/-- The number `v` alone is enough for `Int63n`, and the result is `r`. -/
def Returns (n v r : Int64) : Prop :=
  ∃ b : Vector UInt8 8, int63OfBytes b = v ∧ int63n n [some b] = .ok (r, [])

theorem returns_iff {n v r : Int64} : Returns n v r ↔ 0 ≤ v ∧ Accepts n v ∧ pick n v = r := by
  constructor
  · rintro ⟨b, rfl, h⟩
    obtain ⟨skipped, b', hdraws, -, haccepted⟩ := (int63n_eq_ok_iff n [some b] r []).mp h
    obtain ⟨rfl, rfl⟩ : skipped = [] ∧ b = b' := by
      cases skipped with
      | nil => simpa using hdraws
      | cons s skipped => simp at hdraws
    exact ⟨int63OfBytes_nonneg b, haccepted⟩
  · rintro ⟨hv, hacc, rfl⟩
    have hvalue : int63OfBytes (bytesOf v.toUInt64.toNat) = v :=
      toNat_toUInt64_inj.mp (toNat_int63OfBytes_bytesOf (nonneg_iff_toNat.mp hv))
    refine ⟨bytesOf v.toUInt64.toNat, hvalue, ?_⟩
    rw [int63n_cons_of_accepts (hvalue.symm ▸ hacc), hvalue]

/-! ### Arithmetic of the bound -/

/-- The number of accepted numbers: the largest multiple of `n` that is not above `2^63`. -/
def limit (n : Nat) : Nat := 2 ^ 63 - 2 ^ 63 % n

theorem limit_le (n : Nat) : limit n ≤ 2 ^ 63 := Nat.sub_le _ _

theorem dvd_limit (n : Nat) : n ∣ limit n := Nat.dvd_sub_mod (2 ^ 63)

/-- The rejected numbers are less than a half. -/
theorem lt_limit {n : Nat} (hpos : 0 < n) (hn : n ≤ 2 ^ 63) : 2 ^ 62 < limit n := by
  have hlt := Nat.mod_lt (2 ^ 63) hpos
  have hquot : 1 ≤ 2 ^ 63 / n := Nat.div_pos hn hpos
  have hsum := Nat.div_add_mod (2 ^ 63) n
  have hmul : n * 1 ≤ n * (2 ^ 63 / n) := Nat.mul_le_mul_left n hquot
  unfold limit
  omega

section
variable {n v : Int64} (hn : 0 < n)
include hn

theorem toNat_pos : 0 < n.toUInt64.toNat := by
  have h := (lt_iff_toNat_lt (Int64.le_refl 0) (Int64.le_of_lt hn)).mp hn
  exact h

theorem toNat_lt : n.toUInt64.toNat < 2 ^ 63 := nonneg_iff_toNat.mp (Int64.le_of_lt hn)

theorem toNat_sub_one : (n - 1).toUInt64.toNat = n.toUInt64.toNat - 1 := by
  have hpos := toNat_pos hn
  rw [Int64.toUInt64_sub]
  exact UInt64.toNat_sub_of_le _ _ (UInt64.le_iff_toNat_le.mpr hpos)

/-- The test on the bits is the test for a power of two. -/
theorem and_sub_one_eq_zero_iff : n &&& (n - 1) = 0 ↔ n.toUInt64.toNat.isPowerOfTwo := by
  have hpos := toNat_pos hn
  rw [← Nat.and_sub_one_eq_zero_iff_isPowerOfTwo hpos.ne', ← toNat_sub_one hn, ← UInt64.toNat_and,
    ← Int64.toUInt64_and]
  exact (toNat_toUInt64_inj (y := 0)).symm

theorem exists_two_pow_iff : (∃ k : Nat, n.toInt = 2 ^ k) ↔ n &&& (n - 1) = 0 := by
  rw [and_sub_one_eq_zero_iff hn, toInt_of_nonneg (Int64.le_of_lt hn)]
  exact exists_congr fun k => by norm_cast

theorem toNat_int63nMax :
    (int63nMax n).toUInt64.toNat = 2 ^ 63 - 1 - 2 ^ 63 % n.toUInt64.toNat := by
  have hmod : ((1 : UInt64) <<< (63 : UInt64) % n.toUInt64).toNat = 2 ^ 63 % n.toUInt64.toNat :=
    UInt64.toNat_mod _ _
  have hlt := Nat.mod_lt (2 ^ 63) (toNat_pos hn)
  have hbound := toNat_lt hn
  have htop : ((1 : UInt64) <<< (63 : UInt64) - 1).toNat = 2 ^ 63 - 1 := by decide
  unfold int63nMax
  dsimp only
  rw [UInt64.toUInt64_toInt64, UInt64.toNat_sub_of_le, htop, hmod]
  rw [UInt64.le_iff_toNat_le, htop, hmod]
  omega

theorem int63nMax_nonneg : 0 ≤ int63nMax n := by
  rw [nonneg_iff_toNat, toNat_int63nMax hn]
  omega

/-- Neither the difference nor the conversion in `max` overflows. -/
theorem toInt_int63nMax : (int63nMax n).toInt = 2 ^ 63 - 1 - 2 ^ 63 % n.toInt := by
  have hlt := Nat.mod_lt (2 ^ 63) (toNat_pos hn)
  have hbound := toNat_lt hn
  have hcast : ((2 ^ 63 % n.toUInt64.toNat : Nat) : Int) = 2 ^ 63 % (n.toUInt64.toNat : Int) :=
    Int.natCast_mod _ _
  rw [toInt_of_nonneg (int63nMax_nonneg hn), toNat_int63nMax hn,
    toInt_of_nonneg (Int64.le_of_lt hn), ← hcast]
  omega

/-- For a power of two nothing is rejected, and the bound says the same. -/
theorem limit_of_isPowerOfTwo (h : n.toUInt64.toNat.isPowerOfTwo) :
    limit n.toUInt64.toNat = 2 ^ 63 := by
  obtain ⟨k, hk⟩ := h
  have hle : k ≤ 63 := by
    have hlt := toNat_lt hn
    rw [hk] at hlt
    exact ((Nat.pow_lt_pow_iff_right (by decide)).mp hlt).le
  have hdvd : n.toUInt64.toNat ∣ 2 ^ 63 := hk ▸ pow_dvd_pow 2 hle
  rw [limit, Nat.mod_eq_zero_of_dvd hdvd, Nat.sub_zero]

/-- The accepted numbers are those below the largest multiple of `n`. -/
theorem accepts_iff (hv : 0 ≤ v) : Accepts n v ↔ v.toUInt64.toNat < limit n.toUInt64.toNat := by
  have hlt := nonneg_iff_toNat.mp hv
  unfold Accepts
  rw [and_sub_one_eq_zero_iff hn]
  by_cases hpow : n.toUInt64.toNat.isPowerOfTwo
  · simp only [hpow, true_or, limit_of_isPowerOfTwo hn hpow, hlt]
  · have hmod := Nat.mod_lt (2 ^ 63) (toNat_pos hn)
    have hbound := toNat_lt hn
    rw [le_iff_toNat_le hv (int63nMax_nonneg hn), toNat_int63nMax hn, limit]
    simp only [hpow, false_or]
    omega

/-- Mask or remainder, the result is the remainder. -/
theorem toNat_pick (hv : 0 ≤ v) :
    (pick n v).toUInt64.toNat = v.toUInt64.toNat % n.toUInt64.toNat := by
  unfold pick
  by_cases hpow : n &&& (n - 1) = 0
  · obtain ⟨k, hk⟩ := (and_sub_one_eq_zero_iff hn).mp hpow
    rw [if_pos hpow, Int64.toUInt64_and, UInt64.toNat_and, toNat_sub_one hn, hk,
      Nat.and_two_pow_sub_one_eq_mod]
  · have hint : (v % n).toInt = (v.toUInt64.toNat % n.toUInt64.toNat : Nat) := by
      rw [Int64.toInt_mod, toInt_of_nonneg hv, toInt_of_nonneg (Int64.le_of_lt hn),
        Int.ofNat_tmod]
    have hnonneg : 0 ≤ v % n := by
      have hzero : (0 : Int64).toInt = 0 := rfl
      rw [Int64.le_iff_toInt_le, hzero, hint]
      exact Int.natCast_nonneg _
    rw [if_neg hpow]
    rw [toInt_of_nonneg hnonneg] at hint
    exact Int.ofNat_inj.mp hint

/-- What is picked is below `n`. -/
theorem pick_mem (hv : 0 ≤ v) : 0 ≤ pick n v ∧ pick n v < n := by
  have hpick := toNat_pick hn hv
  have hlt := Nat.mod_lt v.toUInt64.toNat (toNat_pos hn)
  have hbound := toNat_lt hn
  have hnonneg : 0 ≤ pick n v := by
    rw [nonneg_iff_toNat]
    omega
  refine ⟨hnonneg, (lt_iff_toNat_lt hnonneg (Int64.le_of_lt hn)).mpr ?_⟩
  omega

end

/-! ### Counting -/

/-- Counting numbers of 63 bits is counting natural numbers. -/
theorem ncard_toNat (p : Nat → Prop) [DecidablePred p] {m : Nat} (hm : m ≤ 2 ^ 63) :
    {v : Int64 | v.toUInt64.toNat < m ∧ p v.toUInt64.toNat}.ncard =
      ((Finset.range m).filter p).card := by
  rw [← Set.ncard_image_of_injective _ fun _ _ => toNat_toUInt64_inj.mp, ← Set.ncard_coe_finset]
  congr 1
  ext x
  simp only [Set.mem_image, Set.mem_ofPred_eq, Finset.coe_filter, Finset.mem_range]
  constructor
  · rintro ⟨v, hv, rfl⟩
    exact hv
  · rintro ⟨hx, hp⟩
    have hvalue : (UInt64.ofNat x).toInt64.toUInt64.toNat = x := by
      rw [UInt64.toUInt64_toInt64, UInt64.toNat_ofNat']
      exact Nat.mod_eq_of_lt (by omega)
    refine ⟨(UInt64.ofNat x).toInt64, ?_, hvalue⟩
    rw [hvalue]
    exact ⟨hx, hp⟩

/-- Below a multiple of `n` each remainder is there equally often. -/
theorem card_filter_mod_eq {n m r : Nat} (hr : r < n) (hdvd : n ∣ m) :
    ((Finset.range m).filter fun x => x % n = r).card = m / n := by
  have hcount := Nat.count_modEq_card m (Nat.zero_lt_of_lt hr) r
  rw [Nat.mod_eq_zero_of_dvd hdvd, if_neg (Nat.not_lt_zero _), Nat.add_zero,
    Nat.count_eq_card_filter_range] at hcount
  simpa only [Nat.ModEq, Nat.mod_eq_of_lt hr] using hcount

section
variable {n v : Int64} (hn : 0 < n)
include hn

theorem returns_iff_toNat {r : Int64} : Returns n v r ↔
    v.toUInt64.toNat < limit n.toUInt64.toNat ∧
      v.toUInt64.toNat % n.toUInt64.toNat = r.toUInt64.toNat := by
  rw [returns_iff]
  constructor
  · rintro ⟨hv, hacc, rfl⟩
    exact ⟨(accepts_iff hn hv).mp hacc, (toNat_pick hn hv).symm⟩
  · rintro ⟨hlt, hmod⟩
    have hv := nonneg_iff_toNat.mpr (hlt.trans_le (limit_le _))
    refine ⟨hv, (accepts_iff hn hv).mpr hlt, toNat_toUInt64_inj.mp ?_⟩
    exact (toNat_pick hn hv).trans hmod

theorem exists_returns_iff :
    (∃ r, Returns n v r) ↔ v.toUInt64.toNat < limit n.toUInt64.toNat := by
  constructor
  · rintro ⟨r, h⟩
    exact ((returns_iff_toNat hn).mp h).1
  · intro hlt
    have hv := nonneg_iff_toNat.mpr (hlt.trans_le (limit_le _))
    exact ⟨pick n v, (returns_iff_toNat hn).mpr ⟨hlt, (toNat_pick hn hv).symm⟩⟩

theorem ncard_accepted : {v | ∃ r, Returns n v r}.ncard = limit n.toUInt64.toNat := by
  have hcount := ncard_toNat (fun _ => True) (limit_le n.toUInt64.toNat)
  simpa only [exists_returns_iff hn, and_true, Finset.filter_true, Finset.card_range] using hcount

/-- Each result comes from equally many numbers. -/
theorem ncard_returns {r : Int64} (hr : 0 ≤ r) (hrn : r < n) :
    {v | Returns n v r}.ncard = limit n.toUInt64.toNat / n.toUInt64.toNat := by
  have hlt := (lt_iff_toNat_lt hr (Int64.le_of_lt hn)).mp hrn
  have hcount := ncard_toNat (fun x => x % n.toUInt64.toNat = r.toUInt64.toNat)
    (limit_le n.toUInt64.toNat)
  rw [card_filter_mod_eq hlt (dvd_limit _)] at hcount
  simpa only [returns_iff_toNat hn] using hcount

end

/-- What makes `Int63n` a fair choice among `n` results. -/
structure Unbiased (n : Int64) : Prop where
  /-- `max` is what its formula says over the integers. -/
  max : (int63nMax n).toInt = 2 ^ 63 - 1 - 2 ^ 63 % n.toInt
  /-- All numbers are accepted for a power of two, and those up to `max` otherwise. -/
  accepts : ∀ v, (∃ r, Returns n v r) ↔ 0 ≤ v ∧ ((∃ k : Nat, n.toInt = 2 ^ k) ∨ v ≤ int63nMax n)
  /-- The first accepted number decides, however many were rejected. -/
  first : ∀ draws r rest, int63n n draws = .ok (r, rest) ↔
    ∃ (skipped : List (Vector UInt8 8)) (b : Vector UInt8 8),
      draws = skipped.map some ++ some b :: rest ∧
      (∀ s ∈ skipped, ¬ ∃ r', Returns n (int63OfBytes s) r') ∧ Returns n (int63OfBytes b) r
  range : ∀ v r, Returns n v r → 0 ≤ r ∧ r < n
  /-- Each result comes from the same number of accepted numbers. -/
  even : ∃ count, 0 < count ∧ ∀ r, 0 ≤ r → r < n → {v | Returns n v r}.ncard = count
  /-- More than half of the `2^63` numbers are accepted. -/
  most : 2 ^ 62 < {v | ∃ r, Returns n v r}.ncard

/-- `Int63n` is fair for every positive `n`. -/
theorem unbiased (n : Int64) (hn : 0 < n) : Unbiased n where
  max := toInt_int63nMax hn
  accepts v := by
    simp only [returns_iff, exists_and_left, exists_eq', and_true, exists_two_pow_iff hn, Accepts]
  first draws r rest := by
    simp only [int63n_eq_ok_iff, returns_iff, exists_and_left, exists_eq', and_true,
      int63OfBytes_nonneg, true_and]
  range v r h := by
    obtain ⟨hv, -, rfl⟩ := returns_iff.mp h
    exact pick_mem hn hv
  even := by
    refine ⟨limit n.toUInt64.toNat / n.toUInt64.toNat, ?_, fun r => ncard_returns hn⟩
    have hbound := toNat_lt hn
    have hlimit := lt_limit (toNat_pos hn) hbound.le
    exact Nat.div_pos (Nat.le_of_dvd (by omega) (dvd_limit _)) (toNat_pos hn)
  most := by
    rw [ncard_accepted hn]
    exact lt_limit (toNat_pos hn) (toNat_lt hn).le

/-- The choice of a character of `AlphaNumericCharset`. -/
theorem unbiased_alphaNumeric : alphaNumericCharset.length = 62 ∧
    Unbiased (Int64.ofNat alphaNumericCharset.length) :=
  ⟨by decide, unbiased (Int64.ofNat alphaNumericCharset.length) (by decide)⟩

end Gosrt.Rand
