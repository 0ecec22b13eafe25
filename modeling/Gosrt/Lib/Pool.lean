import Mathlib.Data.List.Basic
import Mathlib.Logic.Function.Basic

/-!
# `Gosrt.Lib.Pool`: buffers that are used again

A pool hands out buffers and takes them back. A buffer that comes back can be handed out again, so
it must have one user at most.

`uses` counts the users of each buffer. `Exclusive` says that no buffer has more than one, where the
pool itself counts as the user of what it holds. Under it a buffer that the pool hands out is nobody
else's, and writing to it changes nothing for the others (`Hands`).
-/

set_option autoImplicit false

namespace Gosrt.Lib

variable {α : Type}

/-- Buffers that are handed out and put back. -/
structure Pool (α : Type) where
  content : Nat → α
  /-- The buffers that came back. -/
  free : List Nat
  /-- The number of the next buffer that is made. -/
  next : Nat

namespace Pool

/-- No buffers yet. -/
def empty (a : α) : Pool α where
  content := fun _ => a
  free := []
  next := 0

/-- The content of a buffer is replaced. -/
def write (pool : Pool α) (b : Nat) (a : α) : Pool α :=
  { pool with content := Function.update pool.content b a }

/-- Takes a buffer and writes to it. The pool chooses one that came back, or makes a new one. -/
def get (pool : Pool α) (choice : Option Nat) (a : α) : Nat × Pool α :=
  match choice.bind (pool.free[·]?) with
  | some b => (b, { pool with free := pool.free.erase b }.write b a)
  | none => (pool.next, { pool with next := pool.next + 1 }.write pool.next a)

/-- A buffer comes back. -/
def put (pool : Pool α) (b : Nat) : Pool α := { pool with free := b :: pool.free }

/-- No buffer has two users, and only buffers that were made have one. -/
structure Exclusive (pool : Pool α) (uses : Nat → Nat) : Prop where
  once : ∀ b, uses b + pool.free.count b ≤ 1
  made : ∀ b, pool.next ≤ b → uses b + pool.free.count b = 0

/-! ### Counting -/

theorem count_singleton_of_ne {b b' : Nat} (hne : b' ≠ b) : [b].count b' = 0 :=
  List.count_eq_zero.mpr (by simpa using hne)

theorem count_cons_add (b : Nat) (l : List Nat) (b' : Nat) :
    (b :: l).count b' = [b].count b' + l.count b' := by
  rw [← List.count_append, List.singleton_append]

theorem count_erase_add {l : List Nat} {b : Nat} (hb : b ∈ l) (b' : Nat) :
    (l.erase b).count b' + [b].count b' = l.count b' := by
  by_cases heq : b' = b
  · subst heq
    have hpos := List.count_pos_iff.mpr hb
    rw [List.count_erase_self, List.count_singleton_self]
    omega
  · rw [List.count_erase_of_ne heq, count_singleton_of_ne heq]
    rfl

/-! ### The operations -/

section
variable {pool : Pool α} {uses uses' : Nat → Nat} {b : Nat}

theorem content_write_of_ne {b' : Nat} (a : α) (hne : b' ≠ b) :
    (pool.write b a).content b' = pool.content b' :=
  Function.update_of_ne hne _ _

theorem content_write_self (a : α) : (pool.write b a).content b = a :=
  Function.update_self _ _ _

/-- Writing does not change who has a buffer. -/
theorem Exclusive.write (h : pool.Exclusive uses) (b : Nat) (a : α) :
    (pool.write b a).Exclusive uses := ⟨h.once, h.made⟩

/-- Users can go without giving their buffer back. -/
theorem Exclusive.mono (h : pool.Exclusive uses) (hle : ∀ b, uses' b ≤ uses b) :
    pool.Exclusive uses' where
  once b := by
    have hb := h.once b
    have hle := hle b
    omega
  made b hb := by
    have hb := h.made b hb
    have hle := hle b
    omega

/-- A user gives its buffer back. -/
theorem Exclusive.put (h : pool.Exclusive uses)
    (huses : ∀ b', uses' b' + [b].count b' = uses b') : (pool.put b).Exclusive uses' where
  once b' := by
    have hb' := h.once b'
    have huses := huses b'
    have hcons := count_cons_add b pool.free b'
    show uses' b' + (b :: pool.free).count b' ≤ 1
    omega
  made b' hmade := by
    have hb' := h.made b' hmade
    have huses := huses b'
    have hcons := count_cons_add b pool.free b'
    show uses' b' + (b :: pool.free).count b' = 0
    omega

/-- What the pool hands out: a buffer that came back, or a new one. -/
theorem get_cases (pool : Pool α) (choice : Option Nat) (a : α) :
    (∃ b ∈ pool.free,
      pool.get choice a = (b, { pool with free := pool.free.erase b }.write b a)) ∨
      pool.get choice a = (pool.next, { pool with next := pool.next + 1 }.write pool.next a) := by
  unfold get
  split
  · rename_i b hchoice
    obtain ⟨i, -, hi⟩ := Option.bind_eq_some_iff.mp hchoice
    exact Or.inl ⟨b, List.mem_of_getElem? hi, rfl⟩
  · exact Or.inr rfl

/-- What an exclusive pool does for a user who takes a buffer. -/
structure Hands (pool : Pool α) (uses : Nat → Nat) (a : α) (b : Nat) (pool' : Pool α) :
    Prop where
  /-- The buffer had no user. -/
  unused : uses b = 0
  content : pool'.content b = a
  /-- The buffers of the others hold what they held. -/
  others : ∀ b', 0 < uses b' → pool'.content b' = pool.content b'
  exclusive : ∀ uses', (∀ b', uses' b' = uses b' + [b].count b') → pool'.Exclusive uses'

/-- A buffer that came back had the pool as its one user. -/
theorem Exclusive.hands_free (h : pool.Exclusive uses) (hb : b ∈ pool.free) (a : α) :
    pool.Hands uses a b ({ pool with free := pool.free.erase b }.write b a) := by
  have hpos := List.count_pos_iff.mpr hb
  have honce := h.once b
  refine ⟨by omega, content_write_self a, ?_, ?_⟩
  · intro b' hused
    refine content_write_of_ne a ?_
    rintro rfl
    omega
  intro uses' huses
  -- The user takes the place of the pool.
  have hcount : ∀ b', uses' b' + (pool.free.erase b).count b'
      = uses b' + pool.free.count b' := by
    intro b'
    have herase := count_erase_add hb b'
    rw [huses b']
    omega
  constructor
  · intro b'
    show uses' b' + (pool.free.erase b).count b' ≤ 1
    rw [hcount b']
    exact h.once b'
  · intro b' hb'
    show uses' b' + (pool.free.erase b).count b' = 0
    rw [hcount b']
    exact h.made b' hb'

/-- A buffer that is made had no user. -/
theorem Exclusive.hands_new (h : pool.Exclusive uses) (a : α) :
    pool.Hands uses a pool.next ({ pool with next := pool.next + 1 }.write pool.next a) := by
  have hnew := h.made pool.next (Nat.le_refl _)
  refine ⟨by omega, content_write_self a, ?_, ?_⟩
  · intro b' hused
    refine content_write_of_ne a ?_
    rintro rfl
    omega
  intro uses' huses
  constructor
  · intro b'
    show uses' b' + pool.free.count b' ≤ 1
    rw [huses b']
    by_cases heq : b' = pool.next
    · subst heq
      rw [List.count_singleton_self]
      omega
    · rw [count_singleton_of_ne heq]
      exact h.once b'
  · intro b' hb'
    have hlt : pool.next < b' := hb'
    show uses' b' + pool.free.count b' = 0
    rw [huses b', count_singleton_of_ne (Nat.ne_of_gt hlt)]
    exact h.made b' (Nat.le_of_lt hlt)

/-- The buffer that is handed out has no other user. -/
theorem Exclusive.get (h : pool.Exclusive uses) (choice : Option Nat) (a : α) :
    pool.Hands uses a (pool.get choice a).1 (pool.get choice a).2 := by
  rcases pool.get_cases choice a with ⟨b, hb, hget⟩ | hget
  · rw [hget]
    exact h.hands_free hb a
  · rw [hget]
    exact h.hands_new a

end

end Pool

end Gosrt.Lib
