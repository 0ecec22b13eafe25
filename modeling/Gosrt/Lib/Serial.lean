import Mathlib.Data.Nat.ModEq
import Mathlib.Tactic.Ring

/-!
# `Gosrt.Lib.Serial`: comparing counters that wrap

A counter of modulus `M` shows only its residue. Two residues are compared with a
threshold `t`: the plain order decides when they are closer than `t`, and the reversed
order decides otherwise (`Serial.lt`).

`Serial.lt_add_mod` is the reason this works. Take two counters that started at the same
residue `b` and advanced by `i` and by `j`. While `i` and `j` are less than `t` apart and
`2 * t ≤ M`, the residues compare as `i` and `j` do, wherever the wrap lies.

`offset M u v` is how far `v` is after `u` on the circle. The comparison and the distance are
functions of it as long as it is `Clear`: near to zero or to a whole turn. In the band between,
`lt` only tells whether the wrap lies between the two residues (`lt_of_not_clear`).
-/

set_option autoImplicit false

namespace Gosrt.Lib.Serial

/-- `u` is before `v`: the plain order below the threshold, the reversed one from it on. -/
def lt (t u v : Nat) : Bool :=
  if u = v then false
  else if v < u then !decide (u - v < t) else decide (v - u < t)

/-- Of two different numbers exactly one is before the other, whatever the threshold. -/
theorem lt_iff_not_lt {t u v : Nat} (hne : u ≠ v) : lt t u v = true ↔ ¬lt t v u = true := by
  unfold lt
  rw [if_neg hne, if_neg hne.symm]
  by_cases h : v < u
  · rw [if_pos h, if_neg (by omega), Bool.not_eq_true']
    simp
  · rw [if_neg h, if_pos (by omega)]
    simp

/-- Advancing a residue by `d < M` either stays below the modulus or wraps once. -/
theorem add_mod_cases {M u d : Nat} (hu : u < M) (hd : d < M) :
    (u + d < M ∧ (u + d) % M = u + d) ∨ (M ≤ u + d ∧ (u + d) % M = u + d - M) := by
  by_cases h : u + d < M
  · exact Or.inl ⟨h, Nat.mod_eq_of_lt h⟩
  · refine Or.inr ⟨by omega, ?_⟩
    rw [Nat.mod_eq_sub_mod (by omega), Nat.mod_eq_of_lt (by omega)]

/-- A residue advanced by less than the threshold is after the old one. -/
theorem lt_add_mod_self {M t u d : Nat} (hM : 2 * t ≤ M) (hu : u < M) (hd0 : 0 < d)
    (hd : d < t) : lt t u ((u + d) % M) = true := by
  unfold lt
  rcases add_mod_cases hu (by omega : d < M) with ⟨h, he⟩ | ⟨h, he⟩
  · rw [he, if_neg (by omega), if_neg (by omega)]
    exact decide_eq_true (by omega)
  · rw [he, if_neg (by omega), if_pos (by omega), decide_eq_false (by omega)]
    rfl

/-- A residue advanced by less than the threshold is not before the old one. -/
theorem not_lt_add_mod_self {M t u d : Nat} (hM : 2 * t ≤ M) (hu : u < M)
    (hd : d < t) : lt t ((u + d) % M) u = false := by
  unfold lt
  rcases add_mod_cases hu (by omega : d < M) with ⟨h, he⟩ | ⟨h, he⟩
  · rw [he]
    by_cases h0 : d = 0
    · rw [if_pos (by omega)]
    · rw [if_neg (by omega), if_pos (by omega), decide_eq_true (by omega)]
      rfl
  · rw [he, if_neg (by omega), if_neg (by omega)]
    exact decide_eq_false (by omega)

/-- The residue of `b + (i + d)` is the residue of `b + i` advanced by `d`. -/
theorem add_add_mod (M b i d : Nat) : (b + (i + d)) % M = ((b + i) % M + d) % M := by
  rw [← Nat.add_assoc, Nat.mod_add_mod]

/-- Two counters less than the threshold apart compare as their offsets do. -/
theorem lt_add_mod {M t b i j : Nat} (hM : 2 * t ≤ M) (h1 : i < j + t) (h2 : j < i + t) :
    lt t ((b + i) % M) ((b + j) % M) = decide (i < j) := by
  have hM0 : 0 < M := by omega
  by_cases hij : i < j
  · obtain ⟨d, rfl⟩ : ∃ d, j = i + d := ⟨j - i, by omega⟩
    rw [decide_eq_true hij, add_add_mod,
      lt_add_mod_self hM (Nat.mod_lt _ hM0) (by omega) (by omega)]
  · obtain ⟨d, rfl⟩ : ∃ d, i = j + d := ⟨i - j, by omega⟩
    rw [decide_eq_false hij, add_add_mod,
      not_lt_add_mod_self hM (Nat.mod_lt _ hM0) (by omega)]

/-- Two counters less than a full turn apart show the same residue only at the same
offset. -/
theorem add_mod_inj {M b i j : Nat} (h1 : i < j + M) (h2 : j < i + M) :
    (b + i) % M = (b + j) % M ↔ i = j := by
  constructor
  · intro h
    have hmod : i ≡ j [MOD M] := Nat.ModEq.add_left_cancel' b h
    rcases Nat.le_total i j with hij | hij
    · have hdvd := (Nat.modEq_iff_dvd' hij).mp hmod
      have := Nat.eq_zero_of_dvd_of_lt hdvd (by omega)
      omega
    · have hdvd := (Nat.modEq_iff_dvd' hij).mp hmod.symm
      have := Nat.eq_zero_of_dvd_of_lt hdvd (by omega)
      omega
  · rintro rfl
    rfl

/-! ### Offsets on the circle -/

/-- How far `v` is after `u` on a circle with `M` places. -/
def offset (M u v : Nat) : Nat := (v + (M - u)) % M

theorem offset_cases {M u v : Nat} (hu : u < M) (hv : v < M) :
    (u ≤ v ∧ offset M u v = v - u) ∨ (v < u ∧ offset M u v + (u - v) = M) := by
  unfold offset
  by_cases h : u ≤ v
  · refine Or.inl ⟨h, ?_⟩
    rw [show v + (M - u) = v - u + M by omega, Nat.add_mod_right, Nat.mod_eq_of_lt (by omega)]
  · refine Or.inr ⟨by omega, ?_⟩
    rw [Nat.mod_eq_of_lt (by omega)]
    omega

/-- The offset in the other direction is the rest of the circle. -/
theorem offset_swap {M u v : Nat} (hu : u < M) (hv : v < M) :
    offset M v u = (M - offset M u v) % M := by
  rcases offset_cases hu hv with ⟨hle, hf⟩ | ⟨hlt, hf⟩
  · rw [hf]
    unfold offset
    rw [show M - (v - u) = u + (M - v) by omega]
  · rw [show M - offset M u v = u - v by omega, Nat.mod_eq_of_lt (by omega)]
    rcases offset_cases hv hu with h | h <;> omega

/-- Shifting both residues does not change the offset. -/
theorem offset_add_mod {M u v : Nat} (hu : u < M) (hv : v < M) (k : Nat) :
    offset M ((u + k) % M) ((v + k) % M) = offset M u v := by
  rw [← Nat.add_mod_mod u k M, ← Nat.add_mod_mod v k M]
  have hk := Nat.mod_lt k (show 0 < M by omega)
  generalize k % M = k at hk ⊢
  have hu' := Nat.mod_lt (u + k) (show 0 < M by omega)
  have hv' := Nat.mod_lt (v + k) (show 0 < M by omega)
  -- Each of the two residues wraps or does not.
  rcases add_mod_cases hu hk with ⟨hltu, hmu⟩ | ⟨hgeu, hmu⟩ <;>
    rcases add_mod_cases hv hk with ⟨hltv, hmv⟩ | ⟨hgev, hmv⟩ <;>
    rcases offset_cases hu hv with h | h <;> rcases offset_cases hu' hv' with h' | h' <;> omega

/-- The distance of two residues: the plain difference below the threshold, the rest of the circle
from it on. -/
def distance (M t u v : Nat) : Nat :=
  if u = v then 0
  else
    let d := if v < u then u - v else v - u
    if t ≤ d then M - d else d

theorem distance_comm (M t u v : Nat) : distance M t u v = distance M t v u := by
  unfold distance
  by_cases heq : u = v
  · rw [heq]
  · have hd : (if v < u then u - v else v - u) = if u < v then v - u else u - v := by
      split <;> split <;> omega
    rw [if_neg heq, if_neg (Ne.symm heq), hd]

/-- To a residue that is after this one, it is the offset. -/
theorem distance_of_lt {M t u v : Nat} (hu : u < M) (hv : v < M) (h : lt t u v = true) :
    distance M t u v = offset M u v := by
  unfold lt at h
  unfold distance
  split at h
  · cases h
  rename_i hne
  rw [if_neg hne]
  split at h
  · rename_i hlt
    rw [Bool.not_eq_true', decide_eq_false_iff_not] at h
    simp only [if_pos hlt, if_pos (Nat.not_lt.mp h)]
    rcases offset_cases hu hv with hf | hf <;> omega
  · rename_i hlt
    rw [decide_eq_true_iff] at h
    simp only [if_neg hlt, if_neg (Nat.not_le.mpr h)]
    rcases offset_cases hu hv with hf | hf <;> omega

/-- The offset is zero, or it is nearer than the threshold in one of the two directions. -/
def Clear (M t f : Nat) : Prop := f = 0 ∨ f < t ∨ M < f + t

instance (M t f : Nat) : Decidable (Clear M t f) := inferInstanceAs (Decidable (_ ∨ _))

section
variable {M t u v : Nat}

theorem Clear.swap (hu : u < M) (hv : v < M) (h : Clear M t (offset M u v)) :
    Clear M t (offset M v u) := by
  unfold Clear at h ⊢
  rcases offset_cases hu hv with hf | hf <;> rcases offset_cases hv hu with hf' | hf' <;> omega

/-- At a clear offset the comparison is a function of the offset. -/
theorem lt_of_clear (hM : 2 * t ≤ M) (hu : u < M) (hv : v < M) (h : Clear M t (offset M u v)) :
    lt t u v = decide (0 < offset M u v ∧ offset M u v < t) := by
  unfold Clear at h
  unfold lt
  rcases offset_cases hu hv with ⟨hle, hf⟩ | ⟨hlt, hf⟩
  · by_cases heq : u = v
    · rw [if_pos heq, decide_eq_false (by omega)]
    · rw [if_neg heq, if_neg (by omega), decide_eq_decide]
      omega
  · rw [if_neg (by omega), if_pos hlt, ← decide_not, decide_eq_decide]
    omega

/-- At any other offset it only tells on which side of the wrap the two residues are. -/
theorem lt_of_not_clear (hu : u < M) (hv : v < M) (h : ¬Clear M t (offset M u v)) :
    lt t u v = decide (v < u) := by
  unfold Clear at h
  unfold lt
  rcases offset_cases hu hv with ⟨hle, hf⟩ | ⟨hlt, hf⟩
  · rw [if_neg (by omega), if_neg (by omega), decide_eq_decide]
    omega
  · rw [if_neg (by omega), if_pos hlt, ← decide_not, decide_eq_decide]
    omega

/-- At a clear offset the distance is the shorter way around. -/
theorem distance_of_clear (hM : 2 * t ≤ M) (hu : u < M) (hv : v < M)
    (h : Clear M t (offset M u v)) :
    distance M t u v = min (offset M u v) (M - offset M u v) := by
  unfold Clear at h
  unfold distance
  rcases offset_cases hu hv with ⟨hle, hf⟩ | ⟨hlt, hf⟩
  · by_cases heq : u = v
    · rw [if_pos heq]
      omega
    · simp only [if_neg heq, if_neg (Nat.not_lt.mpr hle)]
      split <;> omega
  · simp only [if_neg (Nat.ne_of_gt hlt), if_pos hlt]
    split <;> omega

end

end Gosrt.Lib.Serial
