import Mathlib.Data.List.Sort

/-!
# `Gosrt.Lib.Sort`: sorting with a comparison

`sort.Slice` takes a comparison and gives no guarantee about elements that compare as equal.
`SortSlice` is what its documentation promises: the result has the same elements, and it is
in order if the comparison is a strict weak order. Only the elements of the slice count, so
the comparison may misbehave on others.

`sort_eq_of_perm` says that the result is determined, if elements which compare as equal are equal.
`sort_of_sorted` is what a user of a sorted list needs: sorting does nothing.
-/

set_option autoImplicit false

namespace Gosrt.Lib

/-- The comparison is a strict weak order on the elements of the list. -/
structure StrictWeakOn {α : Type} (less : α → α → Bool) (l : List α) : Prop where
  irrefl : ∀ a ∈ l, less a a = false
  trans : ∀ a ∈ l, ∀ b ∈ l, ∀ c ∈ l, less a b = true → less b c = true → less a c = true
  negTrans : ∀ a ∈ l, ∀ b ∈ l, ∀ c ∈ l, less a b = false → less b c = false → less a c = false

/-- A function that behaves as `sort.Slice` is documented to. -/
structure SortSlice where
  sort : {α : Type} → (α → α → Bool) → List α → List α
  perm : ∀ {α : Type} (less : α → α → Bool) (l : List α), (sort less l).Perm l
  sorted : ∀ {α : Type} (less : α → α → Bool) (l : List α), StrictWeakOn less l →
    (sort less l).Pairwise fun a b => less b a = false

namespace SortSlice

variable {α : Type} {less : α → α → Bool} {l : List α}

/-- There is only one way to sort a list whose elements are equal if they compare as equal. -/
theorem sort_eq_of_perm {l' : List α} (s : SortSlice) (h : StrictWeakOn less l)
    (heq : ∀ a ∈ l, ∀ b ∈ l, less a b = false → less b a = false → a = b) (hperm : l'.Perm l)
    (hl' : l'.Pairwise fun a b => less b a = false) : s.sort less l = l' := by
  have hsorted := s.perm less l
  -- Two sorted permutations of each other are equal if the order is antisymmetric.
  refine (hsorted.trans hperm.symm).eq_of_pairwise ?_ (s.sorted less l h) hl'
  intro a b ha hb hab hba
  exact heq a (hsorted.mem_iff.mp ha) b (hperm.mem_iff.mp hb) hba hab

/-- Sorting does nothing to a list that is in order. -/
theorem sort_of_sorted (s : SortSlice) (h : StrictWeakOn less l)
    (heq : ∀ a ∈ l, ∀ b ∈ l, less a b = false → less b a = false → a = b)
    (hl : l.Pairwise fun a b => less b a = false) : s.sort less l = l :=
  s.sort_eq_of_perm h heq (List.Perm.refl l) hl

/-- Insertion sort is such a function. It sorts the elements together with the fact that they
are in the list. -/
def insertion : SortSlice where
  sort less l := (l.attach.insertionSort fun a b => less b.1 a.1 = false).map Subtype.val
  perm less l := by
    have h := (List.perm_insertionSort (fun a b => less b.1 a.1 = false) l.attach).map Subtype.val
    rwa [List.attach_map_subtype_val] at h
  sorted less l h := by
    have htotal : Std.Total fun a b : { x // x ∈ l } => less b.1 a.1 = false := by
      refine ⟨fun a b => ?_⟩
      cases hab : less b.1 a.1 with
      | false => exact Or.inl rfl
      | true =>
        refine Or.inr (Bool.eq_false_iff.mpr fun hba => ?_)
        have hself := h.trans _ a.2 _ b.2 _ a.2 hba hab
        rw [h.irrefl _ a.2] at hself
        cases hself
    have htrans : IsTrans { x // x ∈ l } fun a b => less b.1 a.1 = false :=
      ⟨fun a b c hab hbc => h.negTrans _ c.2 _ b.2 _ a.2 hbc hab⟩
    exact List.pairwise_map.mpr (List.pairwise_insertionSort _ _)

end SortSlice

end Gosrt.Lib
