import Mathlib.Data.List.Basic

/-!
# `Gosrt.Lib.Buffer`: a buffer that is emptied in pieces

A Go `bytes.Buffer` is modelled by its unread items. `read` takes up to `n` of them. An empty buffer
is at its end, which is an error unless nothing was asked for.

`drain` empties a buffer through reads of one size into a sink that can refuse a piece. Each turn
is one read and the answer of the sink. The results say what was taken, and what is still there:
everything was taken in order (`flatten_of_emptied`), or the piece that was refused is gone and the
rest is still there (`rest_of_refused`). How many turns it takes is known from the size
(`ne_unfinished`, `eq_unfinished`), and with a size of zero there is no end.
-/

set_option autoImplicit false

namespace Gosrt.Lib.Buffer

variable {α : Type}

/-- `Read` into a slice of `n` items: the items, and what is left. `none` is `io.EOF`. -/
def read (n : Nat) (buffer : List α) : Option (List α × List α) :=
  if buffer.isEmpty then if n = 0 then some ([], []) else none
  else some (buffer.take n, buffer.drop n)

theorem read_of_ne_nil (n : Nat) {buffer : List α} (h : buffer ≠ []) :
    read n buffer = some (buffer.take n, buffer.drop n) := by
  unfold read
  rw [if_neg (by rw [List.isEmpty_iff]; exact h)]

theorem read_nil {n : Nat} (hn : n ≠ 0) : read n ([] : List α) = none :=
  (if_pos rfl).trans (if_neg hn)

/-- A read gives at most as many bytes as it asks for. -/
theorem length_le_of_read {n : Nat} {buffer data rest : List α}
    (h : read n buffer = some (data, rest)) : data.length ≤ n := by
  unfold read at h
  split at h
  · split at h
    · cases h
      exact Nat.zero_le n
    · cases h
  · cases h
    exact List.length_take_le n buffer

@[simp] theorem read_zero (buffer : List α) : read 0 buffer = some ([], buffer) := by
  cases buffer with
  | nil => rfl
  | cons a buffer => rfl

/-- How emptying a buffer ends. -/
inductive Outcome where
  /-- The sink took the last piece. -/
  | emptied
  /-- The sink refused a piece. -/
  | refused
  /-- There was nothing to read. -/
  | ended
  /-- More turns are needed. -/
  | unfinished
  deriving DecidableEq, Repr

/-- Empty a buffer in pieces of `n`. A turn is `true` where the sink takes the piece. The result is
the pieces that were taken, what is left, and how it ended. -/
def drain (n : Nat) : List Bool → List α → List (List α) × List α × Outcome
  | [], buffer => ([], buffer, .unfinished)
  | taken :: turns, buffer =>
    match read n buffer with
    | none => ([], buffer, .ended)
    | some (piece, rest) =>
      if !taken then ([], rest, .refused)
      else if rest.isEmpty then ([piece], rest, .emptied)
      else
        let (pieces, rest, outcome) := drain n turns rest
        (piece :: pieces, rest, outcome)

/-- The same as a relation, with one rule for each way a turn can go. -/
inductive Drains (n : Nat) : List Bool → List α → List (List α) → List α → Outcome → Prop where
  | unfinished (buffer : List α) : Drains n [] buffer [] buffer .unfinished
  | ended (taken : Bool) (turns : List Bool) (hn : 0 < n) :
      Drains n (taken :: turns) [] [] [] .ended
  | refused (turns : List Bool) (buffer : List α) :
      Drains n (false :: turns) buffer [] (buffer.drop n) .refused
  | emptied (turns : List Bool) (buffer : List α) (hread : buffer ≠ [] ∨ n = 0)
      (hlast : buffer.drop n = []) : Drains n (true :: turns) buffer [buffer.take n] [] .emptied
  | next (turns : List Bool) (buffer rest : List α) (pieces : List (List α)) (outcome : Outcome)
      (hmore : buffer.drop n ≠ []) (hdrains : Drains n turns (buffer.drop n) pieces rest outcome) :
      Drains n (true :: turns) buffer (buffer.take n :: pieces) rest outcome

theorem drain_drains (n : Nat) (turns : List Bool) (buffer : List α) :
    Drains n turns buffer (drain n turns buffer).1 (drain n turns buffer).2.1
      (drain n turns buffer).2.2 := by
  induction turns generalizing buffer with
  | nil => exact .unfinished buffer
  | cons taken turns ih =>
    unfold drain
    by_cases hread : buffer ≠ [] ∨ n = 0
    · have hsome : read n buffer = some (buffer.take n, buffer.drop n) := by
        rcases hread with hne | rfl
        · exact read_of_ne_nil n hne
        · rw [read_zero, List.take_zero, List.drop_zero]
      rw [hsome]
      dsimp only
      cases taken with
      | false => exact .refused turns buffer
      | true =>
        rw [if_neg (by decide)]
        by_cases hlast : buffer.drop n = []
        · rw [if_pos (by rw [hlast]; rfl), hlast]
          exact .emptied turns buffer hread hlast
        · rw [if_neg (by rw [List.isEmpty_iff]; exact hlast)]
          exact .next turns buffer _ _ _ hlast (ih (buffer.drop n))
    · obtain ⟨hempty, hn⟩ := not_or.mp hread
      rw [not_not.mp hempty, read_nil hn]
      exact .ended taken turns (Nat.pos_of_ne_zero hn)

section
variable {n : Nat} {turns : List Bool} {buffer rest : List α} {pieces : List (List α)}
  {outcome : Outcome}

/-- No piece is larger than the size. -/
theorem Drains.length_le (h : Drains n turns buffer pieces rest outcome) :
    ∀ piece ∈ pieces, piece.length ≤ n := by
  induction h with
  | unfinished | ended | refused => exact List.forall_mem_nil _
  | emptied turns buffer _ _ => exact List.forall_mem_singleton.mpr (List.length_take_le n buffer)
  | next turns buffer rest pieces outcome _ _ ih =>
    exact List.forall_mem_cons.mpr ⟨List.length_take_le n buffer, ih⟩

/-- With a size of at least one no piece is empty. -/
theorem Drains.ne_nil (hn : 0 < n) (h : Drains n turns buffer pieces rest outcome) :
    ∀ piece ∈ pieces, piece ≠ [] := by
  have hpiece : ∀ buffer : List α, buffer ≠ [] → buffer.take n ≠ [] := by
    intro buffer hne
    simp only [ne_eq, List.take_eq_nil_iff, hne, or_false]
    omega
  induction h with
  | unfinished | ended | refused => exact List.forall_mem_nil _
  | emptied turns buffer hread _ =>
    exact List.forall_mem_singleton.mpr (hpiece buffer (hread.resolve_right (by omega)))
  | next turns buffer rest pieces outcome hmore _ ih =>
    refine List.forall_mem_cons.mpr ⟨hpiece buffer ?_, ih⟩
    rintro rfl
    exact hmore List.drop_nil

/-- An emptied buffer went into the sink as a whole, in order. -/
theorem Drains.flatten_of_emptied (h : Drains n turns buffer pieces rest .emptied) :
    pieces.flatten = buffer := by
  generalize houtcome : Outcome.emptied = outcome at h
  induction h with
  | unfinished | ended | refused => cases houtcome
  | emptied turns buffer _ hlast =>
    rw [List.flatten_singleton]
    exact List.take_of_length_le (List.drop_eq_nil_iff.mp hlast)
  | next turns buffer rest pieces outcome _ _ ih =>
    rw [List.flatten_cons, ih houtcome, List.take_append_drop]

/-- There was nothing to read only at the start. -/
theorem Drains.buffer_of_ended (h : Drains n turns buffer pieces rest .ended) :
    buffer = [] ∧ rest = [] := by
  generalize houtcome : Outcome.ended = outcome at h
  induction h with
  | unfinished | refused | emptied => cases houtcome
  | ended taken turns _ => exact ⟨rfl, rfl⟩
  | next turns buffer rest pieces outcome hmore _ ih => exact absurd (ih houtcome).1 hmore

/-- The first turns take their pieces, and turn `k` does not. -/
def FirstRefusal (turns : List Bool) (k : Nat) : Prop :=
  (∀ taken ∈ turns.take k, taken = true) ∧ turns[k]? = some false

/-- A refused piece is gone, and what comes after it is still there. -/
theorem Drains.rest_of_refused (h : Drains n turns buffer pieces rest .refused) :
    ∃ k, FirstRefusal turns k ∧ rest = buffer.drop ((k + 1) * n) := by
  generalize houtcome : Outcome.refused = outcome at h
  induction h with
  | unfinished | ended | emptied => cases houtcome
  | refused turns buffer => exact ⟨0, ⟨by simp, rfl⟩, by rw [Nat.zero_add, Nat.one_mul]⟩
  | next turns buffer rest pieces outcome _ _ ih =>
    obtain ⟨k, ⟨htaken, hrefused⟩, hrest⟩ := ih houtcome
    refine ⟨k + 1, ⟨?_, hrefused⟩, ?_⟩
    · rw [List.take_succ_cons]
      exact List.forall_mem_cons.mpr ⟨rfl, htaken⟩
    · rw [hrest, List.drop_drop]
      congr 1
      rw [Nat.add_mul (k + 1) 1 n]
      omega

/-- Where a piece is refused while there is more to come, this is how it ends. -/
theorem Drains.refused_of_firstRefusal {k : Nat} (h : Drains n turns buffer pieces rest outcome)
    (hrefusal : FirstRefusal turns k) (hmore : (k + 1) * n < buffer.length) :
    outcome = .refused ∧ rest = buffer.drop ((k + 1) * n) := by
  induction h generalizing k with
  | unfinished buffer => cases hrefusal.2
  | ended taken turns _ => simp at hmore
  | refused turns buffer =>
    cases k with
    | zero => exact ⟨rfl, by rw [Nat.zero_add, Nat.one_mul]⟩
    | succ k =>
      have hfirst := hrefusal.1 false (by simp)
      cases hfirst
  | emptied turns buffer _ hlast =>
    have hlen := List.drop_eq_nil_iff.mp hlast
    rw [Nat.add_mul, Nat.one_mul] at hmore
    omega
  | next turns buffer rest pieces outcome _ _ ih =>
    obtain ⟨htaken, hrefused⟩ := hrefusal
    cases k with
    | zero => cases hrefused
    | succ k =>
      rw [List.take_succ_cons] at htaken
      rw [Nat.add_mul (k + 1) 1 n] at hmore ⊢
      obtain ⟨houtcome, hrest⟩ := ih ⟨(List.forall_mem_cons.mp htaken).2, hrefused⟩
        (by rw [List.length_drop]; omega)
      refine ⟨houtcome, ?_⟩
      rw [hrest, List.drop_drop]
      congr 1
      omega

/-- As many turns as the buffer has pieces are enough. -/
theorem Drains.ne_unfinished (h : Drains n turns buffer pieces rest outcome) (hturns : turns ≠ [])
    (henough : buffer.length ≤ turns.length * n) : outcome ≠ .unfinished := by
  induction h with
  | unfinished buffer => exact absurd rfl hturns
  | ended | refused | emptied => exact nofun
  | next turns buffer rest pieces outcome hmore _ ih =>
    have hlen := List.length_pos_iff.mpr hmore
    rw [List.length_drop] at hlen
    rw [List.length_cons, Nat.add_mul, Nat.one_mul] at henough
    refine ih ?_ (by rw [List.length_drop]; omega)
    rintro rfl
    simp only [List.length_nil, Nat.zero_mul] at henough
    omega

/-- Fewer turns are not, if the sink takes every piece. -/
theorem Drains.eq_unfinished (h : Drains n turns buffer pieces rest outcome)
    (htaken : ∀ taken ∈ turns, taken = true) (hmore : turns.length * n < buffer.length) :
    outcome = .unfinished := by
  induction h with
  | unfinished buffer => rfl
  | ended taken turns _ => simp at hmore
  | refused turns buffer =>
    have hfirst := htaken false List.mem_cons_self
    cases hfirst
  | emptied turns buffer _ hlast =>
    have hlen := List.drop_eq_nil_iff.mp hlast
    rw [List.length_cons, Nat.add_mul, Nat.one_mul] at hmore
    omega
  | next turns buffer rest pieces outcome _ _ ih =>
    rw [List.length_cons, Nat.add_mul, Nat.one_mul] at hmore
    exact ih (List.forall_mem_cons.mp htaken).2 (by rw [List.length_drop]; omega)

end

end Gosrt.Lib.Buffer
