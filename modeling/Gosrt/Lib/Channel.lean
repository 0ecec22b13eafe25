import Mathlib.Data.List.Basic

/-!
# `Gosrt.Lib.Channel`: sending to a buffered channel without waiting

`select { case ch <- a: default: }` puts `a` at the end of the channel, or drops it where the
channel is full. `offer` is this operation on the list of what is in the channel.
-/

set_option autoImplicit false

namespace Gosrt.Lib

variable {α : Type}

/-- The channel after an item was offered to it. -/
def offer (capacity : Nat) (queue : List α) (a : α) : List α :=
  if queue.length < capacity then queue ++ [a] else queue

section
variable {capacity : Nat} {queue : List α}

theorem offer_cases (capacity : Nat) (queue : List α) (a : α) :
    offer capacity queue a = queue ++ [a] ∨ offer capacity queue a = queue := by
  unfold offer
  split
  · exact Or.inl rfl
  · exact Or.inr rfl

theorem mem_offer {a b : α} (h : b ∈ offer capacity queue a) : b ∈ queue ∨ b = a := by
  rcases offer_cases capacity queue a with heq | heq
  · rw [heq] at h
    simpa using h
  · rw [heq] at h
    exact Or.inl h

end

end Gosrt.Lib
