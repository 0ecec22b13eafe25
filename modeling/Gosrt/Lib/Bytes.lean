import Mathlib.Data.UInt
import Mathlib.Data.List.DropRight

/-!
# `Gosrt.Lib.Bytes`: integers in byte slices

The parts of `encoding/binary` that a wire format needs. The writers `be16`, `be32` and
`le32` give the bytes of an integer. The readers take a slice and an offset, and are `none`
where the slice is too short: there the Go functions panic.

A reader is defined on the bytes after the offset, so on a slice that starts with known
bytes it computes. The lemmas say that reading back what was written gives the integer.

`swapWords` reverses the bytes in each group of four. Strings travel in this order.
-/

set_option autoImplicit false

namespace Gosrt.Lib

/-- The 256 bytes are few enough to look at each. -/
@[elab_as_elim] theorem byte_forall {P : UInt8 → Prop} (h : ∀ n : Fin 256, P (UInt8.ofNat n))
    (b : UInt8) : P b := by
  have hb := h ⟨b.toNat, b.toNat_lt⟩
  rwa [UInt8.ofNat_toNat] at hb

/-- `BigEndian.Uint16` of two bytes. -/
def uint16OfBytes (a b : UInt8) : UInt16 := UInt16.ofNat (a.toNat * 2 ^ 8 + b.toNat)

/-- `BigEndian.Uint32` of four bytes. -/
def uint32OfBytes (a b c d : UInt8) : UInt32 :=
  UInt32.ofNat (((a.toNat * 2 ^ 8 + b.toNat) * 2 ^ 8 + c.toNat) * 2 ^ 8 + d.toNat)

/-- `BigEndian.PutUint16`. -/
def be16 (x : UInt16) : List UInt8 := [UInt8.ofNat (x.toNat / 2 ^ 8), UInt8.ofNat x.toNat]

/-- `BigEndian.PutUint32`. -/
def be32 (x : UInt32) : List UInt8 :=
  [UInt8.ofNat (x.toNat / 2 ^ 24), UInt8.ofNat (x.toNat / 2 ^ 16),
    UInt8.ofNat (x.toNat / 2 ^ 8), UInt8.ofNat x.toNat]

/-- `BigEndian.PutUint64`. -/
def be64 (x : UInt64) : List UInt8 :=
  [UInt8.ofNat (x.toNat / 2 ^ 56), UInt8.ofNat (x.toNat / 2 ^ 48),
    UInt8.ofNat (x.toNat / 2 ^ 40), UInt8.ofNat (x.toNat / 2 ^ 32),
    UInt8.ofNat (x.toNat / 2 ^ 24), UInt8.ofNat (x.toNat / 2 ^ 16),
    UInt8.ofNat (x.toNat / 2 ^ 8), UInt8.ofNat x.toNat]

/-- `BigEndian.Uint16(data[i:])`. -/
def uint16 (data : List UInt8) (i : Nat) : Option UInt16 :=
  match data.drop i with
  | a :: b :: _ => some (uint16OfBytes a b)
  | _ => none

/-- `BigEndian.Uint32(data[i:])`. -/
def uint32 (data : List UInt8) (i : Nat) : Option UInt32 :=
  match data.drop i with
  | a :: b :: c :: d :: _ => some (uint32OfBytes a b c d)
  | _ => none

/-- `LittleEndian.Uint32(data[i:])`. -/
def uint32LE (data : List UInt8) (i : Nat) : Option UInt32 :=
  match data.drop i with
  | a :: b :: c :: d :: _ => some (uint32OfBytes d c b a)
  | _ => none

/-- `data[i:]`. -/
def sliceFrom (data : List UInt8) (i : Nat) : Option (List UInt8) :=
  if i ≤ data.length then some (data.drop i) else none

/-- `data[i:j]`, for `i ≤ j`. -/
def slice (data : List UInt8) (i j : Nat) : Option (List UInt8) :=
  if j ≤ data.length then some ((data.take j).drop i) else none

@[simp] theorem length_be16 (x : UInt16) : (be16 x).length = 2 := rfl

@[simp] theorem length_be64 (x : UInt64) : (be64 x).length = 8 := rfl

@[simp] theorem length_be32 (x : UInt32) : (be32 x).length = 4 := rfl

/-- The two bytes of an integer give the integer back. -/
theorem uint16OfBytes_be16 (x : UInt16) :
    uint16OfBytes (UInt8.ofNat (x.toNat / 2 ^ 8)) (UInt8.ofNat x.toNat) = x := by
  have hx := x.toNat_lt
  have h : ∀ n, (UInt8.ofNat n).toNat = n % 2 ^ 8 := fun n => UInt8.toNat_ofNat'
  unfold uint16OfBytes
  rw [h, h, show x.toNat / 2 ^ 8 % 2 ^ 8 * 2 ^ 8 + x.toNat % 2 ^ 8 = x.toNat by omega]
  exact UInt16.ofNat_toNat

/-- The four bytes of an integer give the integer back. -/
theorem uint32OfBytes_be32 (x : UInt32) :
    uint32OfBytes (UInt8.ofNat (x.toNat / 2 ^ 24)) (UInt8.ofNat (x.toNat / 2 ^ 16))
      (UInt8.ofNat (x.toNat / 2 ^ 8)) (UInt8.ofNat x.toNat) = x := by
  have hx := x.toNat_lt
  have h : ∀ n, (UInt8.ofNat n).toNat = n % 2 ^ 8 := fun n => UInt8.toNat_ofNat'
  unfold uint32OfBytes
  rw [h, h, h, h, show ((x.toNat / 2 ^ 24 % 2 ^ 8 * 2 ^ 8 + x.toNat / 2 ^ 16 % 2 ^ 8) * 2 ^ 8
    + x.toNat / 2 ^ 8 % 2 ^ 8) * 2 ^ 8 + x.toNat % 2 ^ 8 = x.toNat by omega]
  exact UInt32.ofNat_toNat

/-- Two bytes as a number. -/
theorem toNat_uint16OfBytes (a b : UInt8) :
    (uint16OfBytes a b).toNat = a.toNat * 2 ^ 8 + b.toNat := by
  have ha := a.toNat_lt
  have hb := b.toNat_lt
  exact UInt16.toNat_ofNat_of_lt' (by simp only [UInt16.size]; omega)

/-- Four bytes as a number. -/
theorem toNat_uint32OfBytes (a b c d : UInt8) :
    (uint32OfBytes a b c d).toNat
      = ((a.toNat * 2 ^ 8 + b.toNat) * 2 ^ 8 + c.toNat) * 2 ^ 8 + d.toNat := by
  have ha := a.toNat_lt
  have hb := b.toNat_lt
  have hc := c.toNat_lt
  have hd := d.toNat_lt
  exact UInt32.toNat_ofNat_of_lt' (by simp only [UInt32.size]; omega)

/-- A number that agrees with a byte in its lowest eight bits is written as that byte. -/
theorem ofNat_eq_of_mod {n : Nat} {a : UInt8} (h : n % 2 ^ 8 = a.toNat) : UInt8.ofNat n = a := by
  refine UInt8.toNat_inj.mp ?_
  rw [← h]
  exact UInt8.toNat_ofNat'

/-- The integer of two bytes is written as those bytes. -/
theorem be16_uint16OfBytes (a b : UInt8) : be16 (uint16OfBytes a b) = [a, b] := by
  have ha := a.toNat_lt
  have hb := b.toNat_lt
  unfold be16
  rw [toNat_uint16OfBytes, ofNat_eq_of_mod (a := a) (by omega), ofNat_eq_of_mod (a := b) (by omega)]

/-- The integer of four bytes is written as those bytes. -/
theorem be32_uint32OfBytes (a b c d : UInt8) :
    be32 (uint32OfBytes a b c d) = [a, b, c, d] := by
  have ha := a.toNat_lt
  have hb := b.toNat_lt
  have hc := c.toNat_lt
  have hd := d.toNat_lt
  unfold be32
  rw [toNat_uint32OfBytes, ofNat_eq_of_mod (a := a) (by omega), ofNat_eq_of_mod (a := b) (by omega),
    ofNat_eq_of_mod (a := c) (by omega), ofNat_eq_of_mod (a := d) (by omega)]

/-- A list with at least two elements starts with two. -/
theorem exists_cons_cons {α : Type} {l : List α} (h : 2 ≤ l.length) :
    ∃ a b rest, l = a :: b :: rest := by
  match l with
  | a :: b :: rest => exact ⟨a, b, rest, rfl⟩

/-- A list with at least four elements starts with four. -/
theorem exists_four_cons {α : Type} {l : List α} (h : 4 ≤ l.length) :
    ∃ a b c d rest, l = a :: b :: c :: d :: rest := by
  match l with
  | a :: b :: c :: d :: rest => exact ⟨a, b, c, d, rest, rfl⟩

/-- A list with at least sixteen elements starts with four times four. -/
theorem exists_sixteen_cons {α : Type} {l : List α} (h : 16 ≤ l.length) :
    ∃ a0 a1 a2 a3 b0 b1 b2 b3 c0 c1 c2 c3 d0 d1 d2 d3 rest,
      l = a0 :: a1 :: a2 :: a3 :: b0 :: b1 :: b2 :: b3 :: c0 :: c1 :: c2 :: c3 ::
        d0 :: d1 :: d2 :: d3 :: rest := by
  obtain ⟨a0, a1, a2, a3, l, rfl⟩ := exists_four_cons (l := l) (by omega)
  simp only [List.length_cons] at h
  obtain ⟨b0, b1, b2, b3, l, rfl⟩ := exists_four_cons (l := l) (by omega)
  simp only [List.length_cons] at h
  obtain ⟨c0, c1, c2, c3, l, rfl⟩ := exists_four_cons (l := l) (by omega)
  simp only [List.length_cons] at h
  obtain ⟨d0, d1, d2, d3, rest, rfl⟩ := exists_four_cons (l := l) (by omega)
  exact ⟨a0, a1, a2, a3, b0, b1, b2, b3, c0, c1, c2, c3, d0, d1, d2, d3, rest, rfl⟩

/-- Reading inside the slice gives a value. -/
theorem uint16_isSome (data : List UInt8) (i : Nat) (h : i + 2 ≤ data.length) :
    (uint16 data i).isSome := by
  obtain ⟨a, b, rest, he⟩ := exists_cons_cons (l := data.drop i) (by rw [List.length_drop]; omega)
  unfold uint16
  rw [he]
  rfl

theorem uint32_isSome (data : List UInt8) (i : Nat) (h : i + 4 ≤ data.length) :
    (uint32 data i).isSome := by
  obtain ⟨a, b, c, d, rest, he⟩ :=
    exists_four_cons (l := data.drop i) (by rw [List.length_drop]; omega)
  unfold uint32
  rw [he]
  rfl

theorem uint32LE_isSome (data : List UInt8) (i : Nat) (h : i + 4 ≤ data.length) :
    (uint32LE data i).isSome := by
  obtain ⟨a, b, c, d, rest, he⟩ :=
    exists_four_cons (l := data.drop i) (by rw [List.length_drop]; omega)
  unfold uint32LE
  rw [he]
  rfl

/-- Slicing up to the end of the data does not panic. -/
theorem sliceFrom_eq {data : List UInt8} {i : Nat} (h : i ≤ data.length) :
    sliceFrom data i = some (data.drop i) := if_pos h

theorem eq_drop_of_sliceFrom {data tail : List UInt8} {i : Nat} (h : sliceFrom data i = some tail) :
    tail = data.drop i := by
  unfold sliceFrom at h
  split at h
  · exact (Option.some_inj.mp h).symm
  · cases h

theorem slice_isSome (data : List UInt8) (i : Nat) {j : Nat} (h : j ≤ data.length) :
    (slice data i j).isSome := by
  unfold slice
  rw [if_pos h]
  rfl

/-! ### Copies, blocks and exclusive or -/

/-- `copy(dst, src)`. -/
def copyBytes (dst src : List UInt8) : List UInt8 := src.take dst.length ++ dst.drop src.length

@[simp] theorem length_copyBytes (dst src : List UInt8) :
    (copyBytes dst src).length = dst.length := by
  simp only [copyBytes, List.length_append, List.length_take, List.length_drop]
  omega

/-- A copy of the same length replaces the slice. -/
theorem copyBytes_of_length_eq {dst src : List UInt8} (h : src.length = dst.length) :
    copyBytes dst src = src := by
  unfold copyBytes
  rw [← h, List.take_length, h, List.drop_length, List.append_nil]

/-- The first `n` blocks of `size` bytes. -/
def blocks (size : Nat) : Nat → List UInt8 → List (List UInt8)
  | 0, _ => []
  | n + 1, data => data.take size :: blocks size n (data.drop size)

@[simp] theorem length_blocks (size n : Nat) (data : List UInt8) :
    (blocks size n data).length = n := by
  induction n generalizing data with
  | zero => rfl
  | succ n ih => rw [blocks, List.length_cons, ih]

/-- Blocks that cover the data give it back. -/
theorem flatten_blocks {size n : Nat} {data : List UInt8} (h : data.length = n * size) :
    (blocks size n data).flatten = data := by
  induction n generalizing data with
  | zero =>
    rw [Nat.zero_mul] at h
    rw [List.eq_nil_of_length_eq_zero h]
    rfl
  | succ n ih =>
    rw [Nat.succ_mul] at h
    rw [blocks, List.flatten_cons, ih (by rw [List.length_drop]; omega), List.take_append_drop]

/-- Each block is full where the data is long enough. -/
theorem length_of_mem_blocks (size : Nat) {n : Nat} {data : List UInt8}
    (h : n * size ≤ data.length) :
    ∀ b ∈ blocks size n data, b.length = size := by
  induction n generalizing data with
  | zero =>
    intro b hb
    cases hb
  | succ n ih =>
    rw [Nat.succ_mul] at h
    intro b hb
    rw [blocks] at hb
    rcases List.mem_cons.mp hb with rfl | hb
    · rw [List.length_take]
      omega
    · exact ih (by rw [List.length_drop]; omega) b hb

/-- Blocks of one size take their number times the size. -/
theorem length_flatten_of_length {size : Nat} {bs : List (List UInt8)}
    (h : ∀ b ∈ bs, b.length = size) : bs.flatten.length = bs.length * size := by
  induction bs with
  | nil => simp
  | cons b bs ih =>
    rw [List.flatten_cons, List.length_append, h b (by simp), ih fun x hx => h x (by simp [hx]),
      List.length_cons, Nat.succ_mul, Nat.add_comm]

/-- Cutting a concatenation of blocks gives the blocks. -/
theorem blocks_flatten {size : Nat} {bs : List (List UInt8)} (h : ∀ b ∈ bs, b.length = size) :
    blocks size bs.length bs.flatten = bs := by
  induction bs with
  | nil => rfl
  | cons b bs ih =>
    have hb := h b (by simp)
    rw [List.length_cons, blocks, List.flatten_cons, ← hb, List.take_left, List.drop_left, hb,
      ih fun x hx => h x (by simp [hx])]

/-- Bytewise exclusive or, on the shorter length. -/
def xorBytes (a b : List UInt8) : List UInt8 := List.zipWith (· ^^^ ·) a b

@[simp] theorem length_xorBytes (a b : List UInt8) :
    (xorBytes a b).length = min a.length b.length :=
  List.length_zipWith

/-- Exclusive or with the same bytes twice changes nothing. -/
theorem xorBytes_xorBytes {a b : List UInt8} (h : a.length ≤ b.length) :
    xorBytes (xorBytes a b) b = a := by
  induction a generalizing b with
  | nil => rfl
  | cons x a ih =>
    cases b with
    | nil => simp at h
    | cons y b =>
      show (x ^^^ y ^^^ y) :: xorBytes (xorBytes a b) b = x :: a
      rw [ih (Nat.le_of_succ_le_succ h), UInt8.xor_assoc, UInt8.xor_self, UInt8.xor_zero]

/-- The value of a big-endian byte string. -/
def natOfBytes (data : List UInt8) : Nat := data.foldl (fun n b => n * 2 ^ 8 + b.toNat) 0

/-- The low `n` bytes of a number, big-endian. -/
def bytesOfNat : Nat → Nat → List UInt8
  | 0, _ => []
  | n + 1, x => bytesOfNat n (x / 2 ^ 8) ++ [UInt8.ofNat x]

@[simp] theorem length_bytesOfNat (n x : Nat) : (bytesOfNat n x).length = n := by
  induction n generalizing x with
  | zero => rfl
  | succ n ih => rw [bytesOfNat, List.length_append, ih, List.length_singleton]

theorem natOfBytes_concat (data : List UInt8) (b : UInt8) :
    natOfBytes (data ++ [b]) = natOfBytes data * 2 ^ 8 + b.toNat := by
  unfold natOfBytes
  rw [List.foldl_append]
  rfl

/-- Bytes come back from their number. -/
theorem bytesOfNat_natOfBytes (data : List UInt8) :
    bytesOfNat data.length (natOfBytes data) = data := by
  induction data using List.reverseRecOn with
  | nil => rfl
  | append_singleton data b ih =>
    have hb := b.toNat_lt
    have hdiv : (natOfBytes data * 2 ^ 8 + b.toNat) / 2 ^ 8 = natOfBytes data := by omega
    have hmod : UInt8.ofNat (natOfBytes data * 2 ^ 8 + b.toNat) = b := by
      rw [← UInt8.toNat_inj, UInt8.toNat_ofNat']
      omega
    rw [List.length_append, List.length_singleton, natOfBytes_concat, bytesOfNat, hdiv, hmod, ih]

/-- A number comes back from its bytes as far as it fits. -/
theorem natOfBytes_bytesOfNat (n x : Nat) : natOfBytes (bytesOfNat n x) = x % 2 ^ (8 * n) := by
  induction n generalizing x with
  | zero => exact (Nat.mod_one x).symm
  | succ n ih =>
    rw [bytesOfNat, natOfBytes_concat, ih, UInt8.toNat_ofNat', Nat.mul_succ, Nat.add_comm (8 * n),
      Nat.pow_add, Nat.mod_mul]
    omega

theorem natOfBytes_lt (data : List UInt8) : natOfBytes data < 2 ^ (8 * data.length) := by
  have hround := natOfBytes_bytesOfNat data.length (natOfBytes data)
  rw [bytesOfNat_natOfBytes] at hround
  rw [hround]
  exact Nat.mod_lt _ (Nat.two_pow_pos _)

/-- Byte strings of the same length are numbers. -/
theorem natOfBytes_inj {a b : List UInt8} (hlen : a.length = b.length)
    (h : natOfBytes a = natOfBytes b) : a = b := by
  rw [← bytesOfNat_natOfBytes a, ← bytesOfNat_natOfBytes b, hlen, h]

/-- Exclusive or with a long enough key can be undone. -/
theorem xorBytes_right_inj {a b key : List UInt8} (ha : a.length ≤ key.length)
    (hb : b.length ≤ key.length) (h : xorBytes a key = xorBytes b key) : a = b := by
  rw [← xorBytes_xorBytes ha, h, xorBytes_xorBytes hb]

theorem be16_inj {x y : UInt16} (h : be16 x = be16 y) : x = y := by
  unfold be16 at h
  injection h with h0 h
  injection h with h1 _
  rw [← uint16OfBytes_be16 x, ← uint16OfBytes_be16 y, h0, h1]

theorem be32_inj {x y : UInt32} (h : be32 x = be32 y) : x = y := by
  have hx := uint32OfBytes_be32 x
  have hy := uint32OfBytes_be32 y
  unfold be32 at h
  simp only [List.cons.injEq, and_true] at h
  obtain ⟨h0, h1, h2, h3⟩ := h
  rw [← hx, h0, h1, h2, h3, hy]

/-! ### Reads at the start of longer data -/

section
variable {data : List UInt8} {i : Nat}

/-- A read ignores what stands behind it. -/
theorem uint16_append (h : i + 2 ≤ data.length) (rest : List UInt8) :
    uint16 (data ++ rest) i = uint16 data i := by
  obtain ⟨a, b, tail, htail⟩ := exists_cons_cons (l := data.drop i)
    (by rw [List.length_drop]; omega)
  unfold uint16
  rw [List.drop_append_of_le_length (by omega), htail]
  rfl

theorem uint32_append (h : i + 4 ≤ data.length) (rest : List UInt8) :
    uint32 (data ++ rest) i = uint32 data i := by
  obtain ⟨a, b, c, d, tail, htail⟩ := exists_four_cons (l := data.drop i)
    (by rw [List.length_drop]; omega)
  unfold uint32
  rw [List.drop_append_of_le_length (by omega), htail]
  rfl

theorem slice_append {j : Nat} (h : j ≤ data.length) (rest : List UInt8) :
    slice (data ++ rest) i j = slice data i j := by
  unfold slice
  rw [if_pos h, if_pos (by rw [List.length_append]; omega), List.take_append_of_le_length h]

end

/-! ### Strings -/

/-- The first `n` groups of four bytes, each one reversed. `none` when the slice is too
short. -/
def swapWords : Nat → List UInt8 → Option (List UInt8)
  | 0, _ => some []
  | n + 1, a :: b :: c :: d :: rest => (swapWords n rest).map fun s => d :: c :: b :: a :: s
  | _ + 1, _ => none

/-- The words of data that is long enough can be swapped. -/
theorem swapWords_isSome (n : Nat) (data : List UInt8) (h : 4 * n ≤ data.length) :
    (swapWords n data).isSome := by
  induction n generalizing data with
  | zero => rfl
  | succ n ih =>
    obtain ⟨a, b, c, d, rest, rfl⟩ := exists_four_cons (l := data) (by omega)
    simp only [List.length_cons] at h
    rw [swapWords, Option.isSome_map]
    exact ih rest (by omega)

/-- Swapping ignores what stands behind the words. -/
theorem swapWords_append (n : Nat) (data rest : List UInt8) (h : 4 * n ≤ data.length) :
    swapWords n (data ++ rest) = swapWords n data := by
  induction n generalizing data with
  | zero => rw [swapWords, swapWords]
  | succ n ih =>
    obtain ⟨a, b, c, d, tail, rfl⟩ := exists_four_cons (l := data) (by omega)
    simp only [List.length_cons] at h
    simp only [List.cons_append, swapWords, ih tail (by omega)]

/-- Reversing the words twice gives them back, whatever comes after them. -/
theorem swapWords_swapWords (n : Nat) (data : List UInt8) (h : data.length = 4 * n) :
    ∃ swapped, swapWords n data = some swapped ∧ swapped.length = 4 * n ∧
      ∀ rest, swapWords n (swapped ++ rest) = some data := by
  induction n generalizing data with
  | zero =>
    have hnil : data = [] := List.length_eq_zero_iff.mp h
    exact ⟨[], rfl, rfl, fun _ => by rw [hnil, swapWords]⟩
  | succ n ih =>
    obtain ⟨a, b, c, d, tail, rfl⟩ := exists_four_cons (l := data) (by omega)
    simp only [List.length_cons] at h
    obtain ⟨swapped, hswap, hlen, hback⟩ := ih tail (by omega)
    refine ⟨d :: c :: b :: a :: swapped, ?_, ?_, fun rest => ?_⟩
    · rw [swapWords, hswap, Option.map_some]
    · simp only [List.length_cons]
      omega
    · simp only [List.cons_append]
      rw [swapWords, hback rest, Option.map_some]

/-- `strings.TrimRight(s, "\x00")`. -/
def trimZeros (s : List UInt8) : List UInt8 := s.rdropWhile (· == 0)

/-- The zero bytes that fill a string up to a multiple of four. -/
def padZeros (s : List UInt8) : List UInt8 :=
  s ++ List.replicate ((4 - s.length % 4) % 4) 0

/-- Padding fills the last word. -/
theorem length_padZeros (s : List UInt8) : (padZeros s).length = 4 * ((s.length + 3) / 4) := by
  unfold padZeros
  rw [List.length_append, List.length_replicate]
  omega

/-- Zeros at the end are trimmed. -/
theorem trimZeros_concat_zero (s : List UInt8) : trimZeros (s ++ [0]) = trimZeros s := by
  unfold trimZeros
  exact List.rdropWhile_concat_pos _ s 0 rfl

/-- The zero bytes that fill a string up are cut off again. -/
theorem trimZeros_padZeros (s : List UInt8) : trimZeros (padZeros s) = trimZeros s := by
  unfold padZeros
  induction (4 - s.length % 4) % 4 with
  | zero => rw [List.replicate_zero, List.append_nil]
  | succ n ih => rw [List.replicate_succ', ← List.append_assoc, trimZeros_concat_zero, ih]

theorem length_trimZeros_le (s : List UInt8) : (trimZeros s).length ≤ s.length :=
  List.IsPrefix.length_le ( List.rdropWhile_prefix _ s)

end Gosrt.Lib
