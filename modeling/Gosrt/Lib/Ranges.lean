import Mathlib.Data.List.Sort
import Mathlib.Order.Basic

/-!
# `Gosrt.Lib.Ranges`: lists of ranges and the list of their ends

A list of ranges is often kept flat: first and last element of each range, one after the other.
`ends` makes such a list and `pairUp` reads it.

To sort the flat list is harmless where the ranges are in order already. Where they overlap, it
pairs ends of different ranges. `covered_pairUp_iff` says what is left: the ends themselves, and the
elements that are in an odd number of ranges.
-/

set_option autoImplicit false

namespace Gosrt.Lib

section
variable {α β : Type}

/-- The ends of the ranges, one range after the other. -/
def ends (rs : List (α × α)) : List α := rs.flatMap fun r => [r.1, r.2]

/-- The ranges of a flat list. -/
def pairUp : List α → List (α × α)
  | lo :: hi :: rest => (lo, hi) :: pairUp rest
  | _ => []

@[simp] theorem ends_nil : ends ([] : List (α × α)) = [] := rfl

@[simp] theorem ends_cons (r : α × α) (rs : List (α × α)) :
    ends (r :: rs) = r.1 :: r.2 :: ends rs := rfl

@[simp] theorem pairUp_cons (lo hi : α) (rest : List α) :
    pairUp (lo :: hi :: rest) = (lo, hi) :: pairUp rest := rfl

@[simp] theorem length_ends (rs : List (α × α)) : (ends rs).length = 2 * rs.length := by
  induction rs with
  | nil => rfl
  | cons r rs ih =>
    simp only [ends_cons, List.length_cons, ih]
    omega

theorem mem_ends {x : α} {rs : List (α × α)} : x ∈ ends rs ↔ ∃ r ∈ rs, x = r.1 ∨ x = r.2 := by
  simp [ends, List.mem_flatMap]

/-- A flat list of whole ranges is the list of their ends. -/
theorem ends_pairUp : ∀ l : List α, l.length % 2 = 0 → ends (pairUp l) = l
  | [], _ => rfl
  | [_], h => absurd h (by simp)
  | lo :: hi :: rest, h => by
    rw [pairUp_cons, ends_cons, ends_pairUp rest (by simp only [List.length_cons] at h; omega)]

theorem ends_map (f : α → β) (rs : List (α × α)) :
    ends (rs.map (Prod.map f f)) = (ends rs).map f := by
  induction rs with
  | nil => rfl
  | cons r rs ih => simp [ih]

theorem pairUp_map (f : α → β) : ∀ l : List α, pairUp (l.map f) = (pairUp l).map (Prod.map f f)
  | [] | [_] => rfl
  | lo :: hi :: rest => by simp [pairUp_map f rest]

end

section
variable {α : Type} [LinearOrder α] {x : α} {rs : List (α × α)}

/-- The element is in the range, both ends included. -/
def InRange (x : α) (r : α × α) : Prop := r.1 ≤ x ∧ x ≤ r.2

instance (x : α) (r : α × α) : Decidable (InRange x r) := inferInstanceAs (Decidable (_ ∧ _))

/-- The ends of ranges are sorted if each range is, and the next one starts after it. -/
theorem pairwise_ends (hle : ∀ r ∈ rs, r.1 ≤ r.2) (hchain : rs.IsChain fun r s => r.2 ≤ s.1) :
    (ends rs).Pairwise (· ≤ ·) := by
  rw [← List.isChain_iff_pairwise]
  induction rs with
  | nil => exact List.IsChain.nil
  | cons r rs ih =>
    have hr := hle r List.mem_cons_self
    have hrest := ih (fun s hs => hle s (List.mem_cons_of_mem _ hs)) hchain.of_cons
    cases rs with
    | nil => simpa using hr
    | cons s rs =>
      simp only [ends_cons, List.isChain_cons_cons] at hchain hrest ⊢
      exact ⟨hr, hchain.1, hrest⟩

/-- In a sorted list each range starts before it ends. -/
theorem le_of_pairwise_ends (hsorted : (ends rs).Pairwise (· ≤ ·)) (r : α × α) (hr : r ∈ rs) :
    r.1 ≤ r.2 := by
  have hpair := (List.pairwise_flatMap.mp hsorted).1 r hr
  exact (List.pairwise_cons.mp hpair).1 r.2 List.mem_cons_self

/-- An element that is no end has one end of each range around it below, and two or none of the
others. -/
theorem countP_ends (hle : ∀ r ∈ rs, r.1 ≤ r.2) (hx : x ∉ ends rs) :
    (ends rs).countP (· < x) % 2 = rs.countP (InRange x) % 2 := by
  induction rs with
  | nil => rfl
  | cons r rs ih =>
    obtain ⟨hlo, hhi, hrest⟩ : x ≠ r.1 ∧ x ≠ r.2 ∧ x ∉ ends rs := by simpa using hx
    have hmod := ih (fun s hs => hle s (List.mem_cons_of_mem _ hs)) hrest
    have hr := hle r List.mem_cons_self
    simp only [ends_cons, List.countP_cons, decide_eq_true_eq]
    -- The element is before, in or after this range.
    rcases lt_or_gt_of_ne hlo with hbefore | hafter
    · rw [if_neg (not_lt.mpr (hbefore.le.trans hr)), if_neg (not_lt.mpr hbefore.le),
        if_neg fun h => absurd h.1 (not_le.mpr hbefore)]
      exact hmod
    · rcases lt_or_gt_of_ne hhi with hin | hbeyond
      · rw [if_neg (not_lt.mpr hin.le), if_pos hafter, if_pos ⟨hafter.le, hin.le⟩]
        omega
      · rw [if_pos hbeyond, if_pos hafter, if_neg fun h => absurd h.2 (not_le.mpr hbeyond)]
        omega

/-- Ranges that are in order contain the elements with an odd number of ends below. -/
theorem inRange_iff_countP (hsorted : (ends rs).Pairwise (· ≤ ·)) (hx : x ∉ ends rs) :
    (∃ r ∈ rs, InRange x r) ↔ (ends rs).countP (· < x) % 2 = 1 := by
  induction rs with
  | nil => simp
  | cons r rs ih =>
    obtain ⟨hlo, hhi, hrest⟩ : x ≠ r.1 ∧ x ≠ r.2 ∧ x ∉ ends rs := by simpa using hx
    rw [ends_cons, List.pairwise_cons, List.pairwise_cons] at hsorted
    obtain ⟨hafterLo, hafterHi, hsorted⟩ := hsorted
    have hih := ih hsorted hrest
    simp only [ends_cons, List.countP_cons, decide_eq_true_eq, List.mem_cons, exists_eq_or_imp]
    rcases lt_or_gt_of_ne hhi with hbefore | hbeyond
    · -- No later end is below, so this range decides.
      have hzero : (ends rs).countP (· < x) = 0 := by
        refine List.countP_eq_zero.mpr fun y hy => ?_
        simpa using hbefore.le.trans (hafterHi y hy)
      rw [hih, hzero, if_neg (not_lt.mpr hbefore.le)]
      by_cases hlt : r.1 < x
      · rw [if_pos hlt]
        exact iff_of_true (Or.inl ⟨hlt.le, hbefore.le⟩) (by omega)
      · rw [if_neg hlt]
        refine iff_of_false ?_ (by omega)
        rintro (hin | hodd)
        · exact hlt (lt_of_le_of_ne hin.1 (Ne.symm hlo))
        · omega
    · -- Both ends of this range are below, so it does not change the parity.
      have hlo' : r.1 < x := (hafterLo r.2 List.mem_cons_self).trans_lt hbeyond
      have hnot : ¬InRange x r := fun h => absurd h.2 (not_le.mpr hbeyond)
      rw [if_pos hbeyond, if_pos hlo', or_iff_right hnot, hih]
      omega

/-- What is covered after the ends of ranges were sorted as one list. -/
theorem covered_pairUp_iff {l : List α} (hle : ∀ r ∈ rs, r.1 ≤ r.2) (hperm : l.Perm (ends rs))
    (hsorted : l.Pairwise (· ≤ ·)) :
    (∃ r ∈ pairUp l, InRange x r) ↔ x ∈ ends rs ∨ rs.countP (InRange x) % 2 = 1 := by
  have hflat : ends (pairUp l) = l := by
    refine ends_pairUp l ?_
    rw [hperm.length_eq, length_ends]
    omega
  -- The sorted list is itself the list of ends of ranges, and these are in order.
  rw [← hflat] at hperm hsorted
  by_cases hx : x ∈ ends rs
  · -- An end is still an end of a range.
    refine iff_of_true ?_ (Or.inl hx)
    obtain ⟨r, hr, hend⟩ := mem_ends.mp (hperm.mem_iff.mpr hx)
    have hr' := le_of_pairwise_ends hsorted r hr
    rcases hend with rfl | rfl
    · exact ⟨r, hr, le_refl _, hr'⟩
    · exact ⟨r, hr, hr', le_refl _⟩
  · rw [inRange_iff_countP hsorted (mt hperm.mem_iff.mp hx), hperm.countP_eq, countP_ends hle hx,
      or_iff_right hx]

end

end Gosrt.Lib
