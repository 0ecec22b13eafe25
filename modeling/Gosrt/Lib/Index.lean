import Mathlib.Data.List.AList
import Mathlib.Data.List.Perm.Basic

/-!
# `Gosrt.Lib.Index`: a map as an index over a list

A map indexes a list when it has one entry for each element of the list, and no other. The
entry of `x` is `value x`, under `key x`. So no two elements share a key.

The order of the list does not matter. Each operation of the map is stated for the element at
the head, and `Indexes.perm` moves an element there.
-/

set_option autoImplicit false

namespace Gosrt.Lib

variable {α κ β : Type}

/-- A list cut at one of its elements. -/
theorem exists_cut {l : List α} {i : Nat} {x : α} (h : l[i]? = some x) :
    ∃ l₁ l₂, l = l₁ ++ x :: l₂ ∧ (∀ y, l.set i y = l₁ ++ y :: l₂) ∧ l.eraseIdx i = l₁ ++ l₂ := by
  obtain ⟨hi, rfl⟩ := List.getElem?_eq_some_iff.mp h
  refine ⟨l.take i, l.drop (i + 1), ?_, fun y => List.set_eq_take_cons_drop y hi,
    List.eraseIdx_eq_take_drop_succ l i⟩
  rw [List.getElem_cons_drop, List.take_append_drop]

/-- What is in a list after an element was put at its end. -/
theorem getElem?_concat_iff {l : List α} {x y : α} {i : Nat} :
    (l ++ [x])[i]? = some y ↔ l[i]? = some y ∨ (i = l.length ∧ x = y) := by
  rw [List.getElem?_append]
  split
  · rename_i hlt
    constructor
    · exact Or.inl
    · rintro (hy | ⟨rfl, -⟩)
      · exact hy
      · exact absurd hlt (Nat.lt_irrefl _)
  · rename_i hge
    rw [List.getElem?_eq_none (Nat.not_lt.mp hge), List.getElem?_singleton]
    split
    · rename_i hzero
      simp only [reduceCtorEq, false_or, Option.some.injEq]
      exact ⟨fun heq => ⟨by omega, heq⟩, And.right⟩
    · rename_i hpos
      simp only [reduceCtorEq, false_or, false_iff, not_and]
      omega

/-- A list without one element. -/
theorem filter_ne_eq_eraseIdx [DecidableEq β] (f : α → β) {l : List α} {k : Nat}
    {x : α} (hnodup : (l.map f).Nodup) (hk : l[k]? = some x) :
    l.filter (fun y => f y ≠ f x) = l.eraseIdx k := by
  obtain ⟨l₁, l₂, rfl, -, herase⟩ := exists_cut hk
  rw [herase]
  rw [List.map_append, List.map_cons, List.nodup_middle, List.nodup_cons] at hnodup
  have hne : ∀ y ∈ l₁ ++ l₂, f y ≠ f x := by
    intro y hy heq
    refine hnodup.1 ?_
    rw [← heq, ← List.map_append]
    exact List.mem_map_of_mem hy
  rw [List.filter_append, List.filter_cons_of_neg (by simp), ← List.filter_append]
  exact List.filter_eq_self.mpr fun y hy => decide_eq_true (hne y hy)

/-- The map `m` has exactly the entries of the elements of `l`. -/
def Indexes (m : AList fun _ : κ => β) (key : α → κ) (value : α → β) (l : List α) : Prop :=
  m.entries.Perm (l.map fun x => (⟨key x, value x⟩ : Sigma fun _ : κ => β))

variable {m : AList fun _ : κ => β} {key : α → κ} {value : α → β} {l l' : List α} {x y : α}

theorem indexes_empty : Indexes (∅ : AList fun _ : κ => β) key value [] :=
  .refl _

theorem Indexes.perm (h : Indexes m key value l) (hperm : l.Perm l') : Indexes m key value l' :=
  List.Perm.trans h (hperm.map _)

theorem Indexes.nodup (h : Indexes m key value l) : (l.map key).Nodup := by
  have hkeys := List.Perm.map Sigma.fst h
  rw [List.map_map] at hkeys
  exact hkeys.nodup_iff.mp m.keys_nodup

variable [DecidableEq κ]

/-- The keys of the map are the keys of the elements, with their values. -/
theorem Indexes.lookup_iff (h : Indexes m key value l) {k : κ} {v : β} :
    m.lookup k = some v ↔ ∃ x ∈ l, key x = k ∧ value x = v := by
  -- A key occurs once in a map, so a lookup finds every entry.
  rw [← Option.mem_def, AList.mem_lookup_iff, List.Perm.mem_iff h, List.mem_map]
  constructor
  · rintro ⟨x, hx, heq⟩
    cases heq
    exact ⟨x, hx, rfl, rfl⟩
  · rintro ⟨x, hx, rfl, rfl⟩
    exact ⟨x, hx, rfl⟩

theorem Indexes.lookup_of_mem (h : Indexes m key value l) (hx : x ∈ l) :
    m.lookup (key x) = some (value x) :=
  h.lookup_iff.mpr ⟨x, hx, rfl, rfl⟩

theorem Indexes.insert (h : Indexes m key value l) (hnew : m.lookup (key x) = none) :
    Indexes (m.insert (key x) (value x)) key value (x :: l) := by
  unfold Indexes
  rw [AList.entries_insert_of_notMem (AList.lookup_eq_none.mp hnew), List.map_cons]
  exact List.Perm.cons _ h

theorem Indexes.erase (h : Indexes m key value (x :: l)) :
    Indexes (m.erase (key x)) key value l := by
  -- Erasing commutes with the permutation. In the list the element is at the head.
  have hperm := List.Perm.kerase (a := key x) m.nodupKeys h
  rw [List.map_cons] at hperm
  exact hperm.trans (List.Perm.of_eq (List.kerase_cons_eq rfl))

/-- An element is replaced by one with the same key. -/
theorem Indexes.replace (h : Indexes m key value (x :: l)) (hkey : key y = key x) :
    Indexes (m.insert (key y) (value y)) key value (y :: l) := by
  unfold Indexes
  rw [AList.entries_insert, List.map_cons, hkey]
  exact List.Perm.cons _ (Indexes.erase h)

/-- Several keys are erased. -/
theorem lookup_foldl_erase (m : AList fun _ : κ => β) (keys : List κ) (k : κ) :
    (keys.foldl (fun m i => m.erase i) m).lookup k = if k ∈ keys then none else m.lookup k := by
  induction keys generalizing m with
  | nil => rfl
  | cons i keys ih =>
    rw [List.foldl_cons, ih]
    by_cases hk : k = i
    · rw [hk, AList.lookup_erase, ite_self, if_pos List.mem_cons_self]
    · rw [AList.lookup_erase_ne hk]
      simp only [List.mem_cons, hk, false_or]

end Gosrt.Lib
