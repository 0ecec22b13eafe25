import Mathlib.Data.Nat.Notation

/-!
# `Gosrt.Lib.Decimal`: numbers as decimal text

A number is written with the bytes of its decimal digits, and a sign in front if it is negative.
The reader takes one sign of either kind and leading zeros, so it accepts more than is written.
`read_text` and `readInt_intText` are the round trips.
-/

set_option autoImplicit false

namespace Gosrt.Lib.Decimal

/-! ### Natural numbers -/

/-- The byte of a digit. -/
def digit (d : Nat) : UInt8 := UInt8.ofNat (48 + d)

theorem toNat_digit {d : Nat} (h : d < 10) : (digit d).toNat = 48 + d := by
  unfold digit
  rw [UInt8.toNat_ofNat']
  omega

/-- The digits of a number, the most significant first. -/
def text (n : Nat) : List UInt8 :=
  if n < 10 then [digit n] else text (n / 10) ++ [digit (n % 10)]

theorem text_of_lt {n : Nat} (h : n < 10) : text n = [digit n] := by
  rw [text, if_pos h]

theorem text_of_le {n : Nat} (h : 10 ≤ n) : text n = text (n / 10) ++ [digit (n % 10)] := by
  rw [text, if_neg (by omega)]

/-- The first byte is a digit. -/
theorem exists_text_eq_cons (n : Nat) : ∃ d rest, d < 10 ∧ text n = digit d :: rest := by
  induction n using Nat.strongRecOn with
  | ind n ih =>
    by_cases h : n < 10
    · exact ⟨n, [], h, text_of_lt h⟩
    · obtain ⟨d, rest, hd, htext⟩ := ih (n / 10) (by omega)
      refine ⟨d, rest ++ [digit (n % 10)], hd, ?_⟩
      rw [text_of_le (by omega), htext, List.cons_append]

theorem text_ne_nil (n : Nat) : text n ≠ [] := by
  obtain ⟨d, rest, -, htext⟩ := exists_text_eq_cons n
  rw [htext]
  exact List.cons_ne_nil _ _

/-- One more digit after a number. -/
def append (n : Nat) (b : UInt8) : Option Nat :=
  if 48 ≤ b ∧ b ≤ 57 then some (n * 10 + (b.toNat - 48)) else none

/-- A digit extends the number that was read. -/
theorem append_digit (n : Nat) {d : Nat} (h : d < 10) : append n (digit d) = some (n * 10 + d) := by
  have hbyte := toNat_digit h
  have hrange : 48 ≤ digit d ∧ digit d ≤ 57 := by
    rw [UInt8.le_iff_toNat_le, UInt8.le_iff_toNat_le, hbyte]
    exact ⟨Nat.le_add_right 48 d, by show 48 + d ≤ 57; omega⟩
  rw [append, if_pos hrange, hbyte, Nat.add_sub_cancel_left]

/-- The number of a text of digits. `none` if another byte is in it, or if it is empty. -/
def read (s : List UInt8) : Option Nat := if s = [] then none else s.foldlM append 0

/-- A number comes back from its text. -/
theorem read_text (n : Nat) : read (text n) = some n := by
  rw [read, if_neg (text_ne_nil n)]
  induction n using Nat.strongRecOn with
  | ind n ih =>
    by_cases h : n < 10
    · rw [text_of_lt h, List.foldlM_cons, append_digit 0 h]
      simp
    · rw [text_of_le (by omega), List.foldlM_append, ih (n / 10) (by omega)]
      simp only [Option.bind_eq_bind, Option.bind_some, List.foldlM_cons, List.foldlM_nil,
        append_digit (n / 10) (Nat.mod_lt n (by decide : 10 > 0))]
      show some (n / 10 * 10 + n % 10) = some n
      rw [Nat.div_add_mod']

/-! ### Integers -/

/-- A number with its sign, where only the minus is written. -/
def intText (i : Int) : List UInt8 := if i < 0 then 45 :: text i.natAbs else text i.natAbs

/-- The number of a text with at most one sign. -/
def readInt : List UInt8 → Option Int
  | [] => none
  | sign :: rest =>
    if sign = 45 then (read rest).map fun n : Nat => -(n : Int)
    else if sign = 43 then (read rest).map Int.ofNat
    else (read (sign :: rest)).map Int.ofNat

theorem intText_natCast (n : Nat) : intText n = text n := by
  rw [intText, if_neg (by omega), Int.natAbs_natCast]

theorem intText_ne_nil (i : Int) : intText i ≠ [] := by
  unfold intText
  split
  · exact List.cons_ne_nil _ _
  · exact text_ne_nil _

/-- A digit is not a sign. -/
theorem digit_ne_sign {d : Nat} (h : d < 10) : digit d ≠ 45 ∧ digit d ≠ 43 := by
  have hbyte := toNat_digit h
  rw [Ne, Ne, ← UInt8.toNat_inj, ← UInt8.toNat_inj, hbyte]
  exact ⟨by show ¬ 48 + d = 45; omega, by show ¬ 48 + d = 43; omega⟩

theorem readInt_text (n : Nat) : readInt (text n) = some (n : Int) := by
  have hread := read_text n
  obtain ⟨d, rest, hd, htext⟩ := exists_text_eq_cons n
  obtain ⟨hminus, hplus⟩ := digit_ne_sign hd
  rw [htext] at hread ⊢
  simp only [readInt, if_neg hminus, if_neg hplus, hread, Option.map_some,
    Int.ofNat_eq_natCast]

/-- An integer comes back from its text. -/
theorem readInt_intText (i : Int) : readInt (intText i) = some i := by
  unfold intText
  by_cases h : i < 0
  · rw [if_pos h]
    simp only [readInt, if_true, read_text, Option.map_some, Option.some.injEq]
    omega
  · rw [if_neg h, readInt_text, Option.some.injEq]
    omega

end Gosrt.Lib.Decimal
