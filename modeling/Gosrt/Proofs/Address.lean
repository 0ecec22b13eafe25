import Gosrt.Proofs.HandshakeRoundTrip
import Gosrt.Spec.Address

/-!
# `Gosrt.Proofs.Address`: which addresses survive the wire

* `unmarshalText_eq`: `Unmarshal` by way of the text is `IP.unmarshal`.
* `roundTrip_iff`: an address comes back from its 16 bytes exactly if it is not an IPv6 address
  with twelve zero bytes. The decoder takes such an address for IPv4.
-/

set_option autoImplicit false

namespace Gosrt

open Lib

/-! ### Bytes of a word -/

/-- A field of a word: the mask and the shift are a quotient and a remainder. -/
theorem toNat_field (w : UInt32) {mask k : UInt32} (n width : Nat) (hn : n < 32)
    (hk : k.toNat = n) (hmask : mask.toNat = (2 ^ width - 1) <<< n) :
    ((w &&& mask) >>> k).toNat = w.toNat / 2 ^ n % 2 ^ width := by
  rw [UInt32.toNat_shiftRight, UInt32.toNat_and, hk, hmask, Nat.mod_eq_of_lt hn,
    Nat.shiftRight_and_distrib, Nat.shiftLeft_shiftRight, Nat.and_two_pow_sub_one_eq_mod,
    Nat.shiftRight_eq_div_pow]

/-- The lowest field needs no shift. -/
theorem toNat_lowest (w : UInt32) {mask : UInt32} (width : Nat)
    (hmask : mask.toNat = 2 ^ width - 1) : (w &&& mask).toNat = w.toNat % 2 ^ width := by
  rw [UInt32.toNat_and, hmask, Nat.and_two_pow_sub_one_eq_mod]

section
variable (a b c d : UInt8)

/-- The two groups of a word. -/
theorem groups_uint32OfBytes :
    ((uint32OfBytes a b c d &&& 0xffff0000) >>> 16).toNat = (uint16OfBytes a b).toNat ∧
      (uint32OfBytes a b c d &&& 0x0000ffff).toNat = (uint16OfBytes c d).toNat := by
  have ha := a.toNat_lt
  have hb := b.toNat_lt
  have hc := c.toNat_lt
  have hd := d.toNat_lt
  rw [toNat_field _ 16 16 (by decide) rfl rfl, toNat_lowest _ 16 rfl, toNat_uint32OfBytes,
    toNat_uint16OfBytes, toNat_uint16OfBytes]
  omega

theorem uint32OfBytes_eq_zero_iff : uint32OfBytes a b c d = 0 ↔ [a, b, c, d] = [0, 0, 0, 0] := by
  constructor
  · intro h
    rw [← be32_uint32OfBytes, h]
    rfl
  · intro h
    cases h
    rfl

theorem IP.ipv4OfWord_uint32OfBytes :
    IP.ipv4OfWord (uint32OfBytes a b c d) = IP.ipv4 a b c d := by
  have ha := a.toNat_lt
  have hb := b.toNat_lt
  have hc := c.toNat_lt
  have hd := d.toNat_lt
  have hbyte {x : UInt32} {y : UInt8} (h : x.toNat % 2 ^ 8 = y.toNat) : x.toUInt8 = y := by
    rw [← UInt8.toNat_inj, UInt32.toNat_toUInt8]
    exact h
  unfold IP.ipv4OfWord
  rw [hbyte (y := a), hbyte (y := b), hbyte (y := c), hbyte (y := d)]
  · rw [toNat_lowest _ 8 rfl, toNat_uint32OfBytes]
    omega
  · rw [toNat_field _ 8 8 (by decide) rfl rfl, toNat_uint32OfBytes]
    omega
  · rw [toNat_field _ 16 8 (by decide) rfl rfl, toNat_uint32OfBytes]
    omega
  · rw [toNat_field _ 24 8 (by decide) rfl rfl, toNat_uint32OfBytes]
    omega

end

/-! ### `Unmarshal` by way of the text -/

namespace IP

section
variable (parser : AddressParser)

/-- Printing the four words and parsing the text gives back the bytes, the first word first. -/
theorem parseIP_wordsText (b0 b1 b2 b3 b4 b5 b6 b7 b8 b9 b10 b11 b12 b13 b14 b15 : UInt8) :
    parser.parseIP (wordsText (uint32OfBytes b0 b1 b2 b3) (uint32OfBytes b4 b5 b6 b7)
        (uint32OfBytes b8 b9 b10 b11) (uint32OfBytes b12 b13 b14 b15)) =
      some ⟨[b0, b1, b2, b3, b4, b5, b6, b7, b8, b9, b10, b11, b12, b13, b14, b15],
        Or.inr (Or.inr rfl)⟩ := by
  have hfull := parser.parseIP_full
    [uint16OfBytes b0 b1, uint16OfBytes b2 b3, uint16OfBytes b4 b5, uint16OfBytes b6 b7,
      uint16OfBytes b8 b9, uint16OfBytes b10 b11, uint16OfBytes b12 b13, uint16OfBytes b14 b15] rfl
  simp only [List.map_cons, List.map_nil, List.flatMap_cons, List.flatMap_nil,
    be16_uint16OfBytes] at hfull
  simp only [wordsText, groups_uint32OfBytes]
  obtain ⟨i, hi, hbytes⟩ := Option.map_eq_some_iff.mp hfull
  rw [hi, Option.some_inj]
  cases i
  congr 1

theorem unmarshalText_four (b0 b1 b2 b3 : UInt8) :
    unmarshalText parser [b0, b1, b2, b3] = unmarshal [b0, b1, b2, b3] := by
  have hword := ipv4OfWord_uint32OfBytes b3 b2 b1 b0
  show some (if (ipv4OfWord (uint32OfBytes b3 b2 b1 b0)).isValid
      then ipv4OfWord (uint32OfBytes b3 b2 b1 b0) else setDefault) =
    some (if (ipv4 b3 b2 b1 b0).isValid then ipv4 b3 b2 b1 b0 else setDefault)
  rw [hword]

theorem unmarshalText_sixteen
    (b0 b1 b2 b3 b4 b5 b6 b7 b8 b9 b10 b11 b12 b13 b14 b15 : UInt8) :
    unmarshalText parser [b0, b1, b2, b3, b4, b5, b6, b7, b8, b9, b10, b11, b12, b13, b14, b15] =
      unmarshal [b0, b1, b2, b3, b4, b5, b6, b7, b8, b9, b10, b11, b12, b13, b14, b15] := by
  -- The test on three words is the test on their twelve bytes.
  have hzero : (uint32OfBytes b15 b14 b13 b12 == 0 && uint32OfBytes b11 b10 b9 b8 == 0 &&
      uint32OfBytes b7 b6 b5 b4 == 0) = true ↔
      [b4, b5, b6, b7, b8, b9, b10, b11, b12, b13, b14, b15] = List.replicate 12 0 := by
    simp only [Bool.and_eq_true, beq_iff_eq, uint32OfBytes_eq_zero_iff, List.replicate,
      List.cons.injEq]
    tauto
  have hparse := parseIP_wordsText parser b15 b14 b13 b12 b11 b10 b9 b8 b7 b6 b5 b4 b3 b2 b1 b0
  show ((if uint32OfBytes b15 b14 b13 b12 == 0 && uint32OfBytes b11 b10 b9 b8 == 0 &&
      uint32OfBytes b7 b6 b5 b4 == 0 then some (ipv4OfWord (uint32OfBytes b3 b2 b1 b0))
      else parser.parseIP _).bind fun i => some (if i.isValid then i else setDefault)) =
    (if [b4, b5, b6, b7, b8, b9, b10, b11, b12, b13, b14, b15] = List.replicate 12 0
      then some (if (ipv4 b3 b2 b1 b0).isValid then ipv4 b3 b2 b1 b0 else setDefault)
      else some _)
  rw [hparse, ipv4OfWord_uint32OfBytes]
  by_cases h : [b4, b5, b6, b7, b8, b9, b10, b11, b12, b13, b14, b15] = List.replicate 12 0
  · rw [if_pos (hzero.mpr h), if_pos h]
    rfl
  · rw [if_neg (mt hzero.mp h), if_neg h]
    rfl

/-- The detour over the hexadecimal text gives the reversed bytes, for every parser that keeps its
contract. -/
theorem unmarshalText_eq (data : Bytes) : unmarshalText parser data = unmarshal data := by
  by_cases h4 : data.length = 4
  · obtain ⟨b0, b1, b2, b3, rfl⟩ := List.length_eq_four.mp h4
    exact unmarshalText_four parser b0 b1 b2 b3
  by_cases h16 : data.length = 16
  · obtain ⟨b0, b1, b2, b3, b4, b5, b6, b7, b8, b9, b10, b11, b12, b13, b14, b15, rest, rfl⟩ :=
      exists_sixteen_cons (l := data) (by omega)
    obtain rfl : rest = [] := List.eq_nil_of_length_eq_zero (by simpa using h16)
    exact unmarshalText_sixteen parser b0 b1 b2 b3 b4 b5 b6 b7 b8 b9 b10 b11 b12 b13 b14 b15
  · unfold unmarshalText unmarshal
    simp [h4, h16]

end

end IP

/-! ### A parser -/

namespace AddressParser

/-- The value of a digit that `%04x` prints. -/
def hexValue (c : Char) : Option Nat := (List.range 16).find? fun d => d.digitChar == c

theorem hexValue_digitChar {d : Nat} (h : d < 16) : hexValue d.digitChar = some d := by
  revert d
  decide

/-- A group of four digits and what follows it. -/
def readGroup : List Char → Option (UInt16 × List Char)
  | a :: b :: c :: d :: rest => do
    let a ← hexValue a
    let b ← hexValue b
    let c ← hexValue c
    let d ← hexValue d
    return (UInt16.ofNat (((a * 16 + b) * 16 + c) * 16 + d), rest)
  | _ => none

/-- Four hexadecimal digits give their group back. -/
theorem readGroup_fmt04x (group : UInt16) (rest : List Char) :
    readGroup ((fmt04x group.toNat).toList ++ rest) = some (group, rest) := by
  have hlt := group.toNat_lt
  have hvalue : ((group.toNat / 4096 % 16 * 16 + group.toNat / 256 % 16) * 16 +
      group.toNat / 16 % 16) * 16 + group.toNat % 16 = group.toNat := by
    omega
  have hdigit (n : Nat) : hexValue (n % 16).digitChar = some (n % 16) :=
    hexValue_digitChar (Nat.mod_lt n (by decide))
  simp only [fmt04x, String.toList_ofList, List.cons_append, List.nil_append, readGroup, hdigit,
    Option.bind_eq_bind, Option.bind_some, hvalue, UInt16.ofNat_toNat]
  rfl

/-- As many groups as are asked for, with one character between two of them. -/
def readGroups : Nat → List Char → Option (List UInt16)
  | 0, _ => some []
  | count + 1, text => do
    let (group, rest) ← readGroup text
    let groups ← readGroups count (rest.drop 1)
    return group :: groups

/-- The text that `Unmarshal` builds has the groups it was made from. -/
theorem readGroups_addressText (groups : List UInt16) :
    readGroups groups.length (addressText (groups.map UInt16.toNat)).toList = some groups := by
  induction groups with
  | nil => rfl
  | cons group groups ih =>
    cases groups with
    | nil =>
      have hread := readGroup_fmt04x group []
      rw [List.append_nil] at hread
      simp [readGroups, addressText, hread]
    | cons next groups =>
      have htext : (addressText ((group :: next :: groups).map UInt16.toNat)).toList =
          (fmt04x group.toNat).toList ++
            ':' :: (addressText ((next :: groups).map UInt16.toNat)).toList := by
        simp [addressText]
      rw [htext, List.length_cons, readGroups, readGroup_fmt04x]
      simp only [Option.bind_eq_bind, Option.bind_some, List.drop_one, List.tail_cons, ih]
      rfl

/-- A parser of fully written addresses and of nothing else. -/
def full : AddressParser where
  parseIP text := do
    let groups ← readGroups 8 text.toList
    let bytes := groups.flatMap be16
    if h : bytes.length = 16 then some ⟨bytes, Or.inr (Or.inr h)⟩ else none
  parseIP_full groups h := by
    have hread := readGroups_addressText groups
    rw [h] at hread
    simp [hread, h]

end AddressParser

/-! ### The round trip -/

namespace IP

section
variable {i : IP}

theorem mapped_of_sixteen (h : i.ip.length = 16) : i.mapped = i.ip := by
  simp [mapped, h]

/-- An address that `Marshal` does not replace by zeros is one of the two lengths. -/
theorem isValid_of_specified (hlen : i.ip.length = 4 ∨ i.ip.length = 16)
    (hspec : i.isUnspecified = false) : i.isValid = true := by
  have hne : i.ip ≠ [] := by
    intro h
    simp [h] at hlen
  simp [isValid, hspec, hne]

/-- `To16` of a valid address is its sixteen-byte form. -/
theorem to16_of_isValid (h : i.isValid = true) : i.to16 = i.mapped := by
  simp only [to16, mapped, h, if_true]

/-- An address is IPv4 or it has sixteen bytes without the prefix of the mapped form. -/
theorem isHostV4_or_v6 (hlen : i.ip.length = 4 ∨ i.ip.length = 16)
    (hspec : i.isUnspecified = false) :
    i.IsHostV4 ∨ i.ip.length = 16 ∧ i.ip.take 12 ≠ v4InV6Prefix := by
  simp only [isUnspecified, Bool.or_eq_false_iff, beq_eq_false_iff_ne] at hspec
  rcases hlen with h4 | h16
  · obtain ⟨a, b, c, d, hip⟩ := List.length_eq_four.mp h4
    exact Or.inl ⟨a, b, c, d, hip ▸ hspec.1.1, Or.inl hip⟩
  by_cases hfront : i.ip.take 12 = v4InV6Prefix
  · have hlength : (i.ip.drop 12).length = 4 := by simp [h16]
    obtain ⟨a, b, c, d, htail⟩ := List.length_eq_four.mp hlength
    have hip : i.ip = v4InV6Prefix ++ [a, b, c, d] := by
      rw [← hfront, ← htail, List.take_append_drop]
    refine Or.inl ⟨a, b, c, d, fun hzero => ?_, Or.inr hip⟩
    exact hspec.1.2 (hip.trans (congrArg _ hzero))
  · exact Or.inr ⟨h16, hfront⟩

/-- An IPv4 address is written in four bytes and comes back. -/
theorem IsHostV4.roundTrip (h : i.IsHostV4) :
    ∃ j, unmarshal i.marshal = some j ∧ j.Same i := by
  refine ⟨i.afterMarshal, h.unmarshal_marshal, ?_⟩
  obtain ⟨a, b, c, d, hne, hip⟩ := h
  have hto16 : i.afterMarshal.ip = i.mapped := to16_of_isValid (isValid_of_host hne hip)
  have hlength : i.afterMarshal.ip.length = 16 := i.length_to16
  exact (mapped_of_sixteen hlength).trans hto16

/-- A host address of IPv4 is not such an IPv6 address. -/
theorem IsHostV4.not_isSparse (h : i.IsHostV4) : ¬ i.IsSparse := by
  obtain ⟨a, b, c, d, -, hip⟩ := h
  rintro ⟨hlen, hzero⟩
  rcases hip with hip | hip
  · simp [hip] at hlen
  · simp [hip, v4InV6Prefix] at hzero

/-- An address that does not look like IPv4 is written backwards. -/
theorem marshal_of_v6 (hvalid : i.isValid = true) (hlen : i.ip.length = 16)
    (hfront : i.ip.take 12 ≠ v4InV6Prefix) : i.marshal = i.ip.reverse := by
  have hto16 : i.to16 = i.ip := (to16_of_isValid hvalid).trans (mapped_of_sixteen hlen)
  simp only [marshal, hto16, if_neg hfront]

/-- Twelve zero bytes after the first four are what tells the decoder that it reads IPv4. -/
theorem unmarshal_of_v6 (hvalid : i.isValid = true) (hlen : i.ip.length = 16)
    (hsparse : ¬ i.IsSparse) : unmarshal i.ip.reverse = some i := by
  have hdrop : i.ip.reverse.drop 4 ≠ List.replicate 12 0 := by
    intro h
    refine hsparse ⟨hlen, ?_⟩
    rw [List.drop_reverse, hlen] at h
    simpa using congrArg List.reverse h
  unfold unmarshal
  simp only [List.length_reverse, hlen, List.reverse_reverse, if_neg hdrop, hvalid, if_true]
  rfl

/-- Such an address comes back with the prefix of an IPv4 address. -/
theorem take_unmarshal_of_isSparse {j : IP} (h : i.IsSparse)
    (hj : unmarshal i.ip.reverse = some j) :
    j.ip.length = 16 ∧ j.ip.take 12 = v4InV6Prefix := by
  have hdrop : i.ip.reverse.drop 4 = List.replicate 12 0 := by
    rw [List.drop_reverse, h.1, h.2]
    simp
  unfold unmarshal at hj
  simp only [List.length_reverse, h.1, if_pos hdrop] at hj
  obtain rfl := Option.some.inj hj
  split
  · exact ⟨by simp [v4InV6Prefix, h.1], rfl⟩
  · exact ⟨rfl, rfl⟩

/-- Such an address comes back as one of IPv4. -/
theorem IsSparse.not_roundTrip (h : i.IsSparse) :
    ¬ ∃ j, unmarshal i.ip.reverse = some j ∧ j.Same i := by
  rintro ⟨j, hj, hsame⟩
  obtain ⟨hlen, htake⟩ := take_unmarshal_of_isSparse h hj
  unfold Same at hsame
  rw [mapped_of_sixteen hlen, mapped_of_sixteen h.1] at hsame
  rw [hsame, h.2] at htake
  exact absurd htake (by decide)

/-- The addresses that `Unmarshal` gets back from what `Marshal` wrote: all but the IPv6 addresses
with twelve zero bytes in front. -/
theorem roundTrip_iff (parser : AddressParser) (i : IP)
    (hlen : i.ip.length = 4 ∨ i.ip.length = 16) (hspec : i.isUnspecified = false) :
    (∃ j, unmarshalText parser i.marshal = some j ∧ j.Same i) ↔ ¬ i.IsSparse := by
  have hvalid := isValid_of_specified hlen hspec
  simp only [unmarshalText_eq]
  rcases isHostV4_or_v6 hlen hspec with hv4 | ⟨h16, hfront⟩
  · exact iff_of_true hv4.roundTrip hv4.not_isSparse
  · rw [marshal_of_v6 hvalid h16 hfront]
    constructor
    · exact fun h hsparse => hsparse.not_roundTrip h
    · exact fun hsparse => ⟨i, unmarshal_of_v6 hvalid h16 hsparse, rfl⟩

end

/-- 2001:db8::1. -/
def documentation : IP :=
  ⟨[0x20, 0x01, 0x0d, 0xb8, 0, 0, 0, 0, 0, 0, 0, 0, 0, 0, 0, 1], Or.inr (Or.inr rfl)⟩

/-- The bytes of 2001:db8::1 come back. -/
theorem documentation_roundTrip : documentation.isUnspecified = false ∧
    ∃ j, unmarshalText AddressParser.full documentation.marshal = some j ∧ j.Same documentation :=
  ⟨rfl, (roundTrip_iff AddressParser.full documentation (Or.inr rfl) rfl).mpr (by decide)⟩

/-- ::1, the loopback address of IPv6. -/
def loopbackV6 : IP := ⟨List.replicate 15 0 ++ [1], Or.inr (Or.inr rfl)⟩

/-- A peer on ::1 is read as 0.0.0.1. -/
theorem loopbackV6_read_as_v4 : loopbackV6.isUnspecified = false ∧
    (∀ parser : AddressParser,
      unmarshalText parser loopbackV6.marshal = some (ipv4 0 0 0 1)) ∧
    ¬ (ipv4 0 0 0 1).Same loopbackV6 := by
  refine ⟨rfl, fun parser => ?_, by decide⟩
  rw [unmarshalText_eq]
  decide

end IP

end Gosrt
