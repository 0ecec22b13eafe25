import Gosrt.Spec.KeyMaterial

/-!
# `Gosrt.Proofs.KeyMaterial`: key material survives its codec

`WellFormed` lists what `Unmarshal` checks and what `Marshal` relies on. A well-formed message
is decoded to itself, whatever comes after it (`unmarshal_marshalData`). The bytes after it
matter: in a handshake the key material is decoded from the whole rest of the packet.

A message says in its fixed fields how long it is. What is accepted starts with a well-formed
message of this length (`unmarshal_ok_cases`), so later bytes count only for data that is shorter
than it says.
-/

set_option autoImplicit false

namespace Gosrt.CIFKeyMaterialExtension

open Lib

variable {km : CIFKeyMaterialExtension} {data : Bytes}

/-- What `Unmarshal` checks of the fixed fields, and the bits that they have on the wire. -/
structure WellFormedFixed (km : CIFKeyMaterialExtension) : Prop where
  error : km.error = 0
  s : km.s = 0
  version : km.version = 1
  packetType : km.packetType = 2
  sign : km.sign = 0x2029
  resv1 : km.resv1 < 64
  key : km.keyBasedEncryption ≠ .unencryptedPacket
  keki : km.keyEncryptionKeyIndex = 0
  streamEncapsulation : km.streamEncapsulation = 2
  sLen : km.sLen = 0 ∨ km.sLen = 16
  kLen : km.kLen = 16 ∨ km.kLen = 24 ∨ km.kLen = 32

/-- The messages that the codec keeps: the salt and the wrapped keys have their lengths
too. -/
structure WellFormed (km : CIFKeyMaterialExtension) : Prop extends WellFormedFixed km where
  salt : km.sLen = 16 ∧ km.salt.length = 16 ∨ km.sLen = 0 ∧ km.salt = []
  wrap : km.wrap.length = km.keyCount * km.kLen.toNat + 8

/-- The byte of the reserved bits and the key flags gives both back. -/
theorem flags_byte (resv1 : UInt8) (h : resv1 < 64) (key : PacketEncryption) :
    ((resv1 <<< (2 : UInt8) &&& 0xFC) ||| (key.val &&& 3)) &&& 0xFC = resv1 <<< (2 : UInt8) ∧
    (resv1 <<< (2 : UInt8)) >>> (2 : UInt8) = resv1 ∧
    PacketEncryption.ofBits ((resv1 <<< (2 : UInt8) &&& 0xFC) ||| (key.val &&& 3)) = key := by
  revert h
  refine byte_forall ?_ resv1
  cases key with
  | unencryptedPacket => decide +kernel
  | evenKeyEncrypted => decide +kernel
  | oddKeyEncrypted => decide +kernel
  | evenAndOddKey => decide +kernel

theorem resv1_lt (b : UInt8) : (b &&& 0xFC) >>> (2 : UInt8) < 64 := by
  refine byte_forall ?_ b
  decide +kernel

/-- The lengths travel as numbers of words. -/
theorem words_byte {n : UInt16} (h : n = 0 ∨ n = 16 ∨ n = 24 ∨ n = 32) :
    (n / 4).toUInt8.toUInt16 * 4 = n := by
  rcases h with rfl | rfl | rfl | rfl <;> decide

@[simp] theorem length_marshalFixed (km : CIFKeyMaterialExtension) :
    km.marshalFixed.length = 16 := rfl

/-- The end of `Unmarshal` on the wrapped keys and anything after them. -/
theorem unmarshalWrap_append (c : CIFKeyMaterialExtension) (pre wrap rest : Bytes) {offset : Nat}
    (hpre : pre.length = offset) (hwrap : wrap.length = c.keyCount * c.kLen.toNat + 8) :
    c.unmarshalWrap (pre ++ (wrap ++ rest)) offset = .ok { c with wrap := wrap } := by
  unfold unmarshalWrap
  rw [sliceFrom_eq (by rw [List.length_append]; omega), ← hpre, List.drop_left, ← hwrap]
  show (if (wrap ++ rest).length < wrap.length then _ else _) = _
  rw [if_neg (by rw [List.length_append]; omega), List.take_left]
  rfl

/-- Salt and wrapped keys, as `Marshal` writes them after the fixed fields. -/
theorem unmarshalKeys_append (c : CIFKeyMaterialExtension) (fixed salt wrap rest : Bytes)
    (hfixed : fixed.length = 16)
    (hsalt : c.sLen = 16 ∧ salt.length = 16 ∨ c.sLen = 0 ∧ salt = c.salt)
    (hwrap : wrap.length = c.keyCount * c.kLen.toNat + 8) :
    c.unmarshalKeys (fixed ++ ((if c.sLen ≠ 0 then salt else []) ++ (wrap ++ rest)))
      = .ok { c with salt := salt, wrap := wrap } := by
  unfold unmarshalKeys
  rcases hsalt with ⟨hlen, hsalt⟩ | ⟨hlen, hsalt⟩
  · have hne : c.sLen ≠ 0 := by rw [hlen]; decide
    rw [if_pos hne, if_pos hne, if_neg (not_not.mpr hlen),
      sliceFrom_eq (by rw [List.length_append]; omega)]
    rw [List.drop_left' hfixed]
    show (if (salt ++ (wrap ++ rest)).length < 16 then _ else _) = _
    rw [if_neg (by rw [List.length_append]; omega), List.take_left' hsalt, ← List.append_assoc]
    exact unmarshalWrap_append _ (fixed ++ salt) wrap rest (by rw [List.length_append]; omega) hwrap
  · have hne : ¬c.sLen ≠ 0 := not_not.mpr hlen
    rw [if_neg hne, if_neg hne, List.nil_append,
      unmarshalWrap_append c fixed wrap rest hfixed hwrap, hsalt]

/-- The fixed fields decode to what they were, and only the salt and the keys are left. -/
theorem unmarshal_eq_unmarshalKeys (h : km.WellFormedFixed) (rest : Bytes) :
    unmarshal {} (km.marshalData ++ rest)
      = unmarshalKeys { km with salt := [], wrap := [] } (km.marshalData ++ rest) := by
  have hlen : 16 ≤ (km.marshalData ++ rest).length := by
    unfold marshalData
    rw [List.append_assoc, List.length_append, length_marshalFixed]
    omega
  obtain ⟨hflags, hresv1, hkey⟩ := flags_byte km.resv1 h.resv1 km.keyBasedEncryption
  -- The bytes that `Unmarshal` reads, as `Marshal` wrote them.
  have hb0 : (km.marshalData ++ rest)[0]? = some 0x12 := by
    show some ((km.s <<< (7 : UInt8) &&& 0x80) ||| (km.version <<< (4 : UInt8) &&& 0x70) |||
      (km.packetType &&& 0x0F)) = some 0x12
    rw [h.s, h.version, h.packetType]
    rfl
  have hsign : uint16 (km.marshalData ++ rest) 1 = some km.sign :=
    congrArg some (uint16OfBytes_be16 km.sign)
  have hb3 : (km.marshalData ++ rest)[3]?
      = some ((km.resv1 <<< (2 : UInt8) &&& 0xFC) ||| (km.keyBasedEncryption.val &&& 3)) := rfl
  have hkeki : uint32 (km.marshalData ++ rest) 4 = some km.keyEncryptionKeyIndex :=
    congrArg some (uint32OfBytes_be32 km.keyEncryptionKeyIndex)
  have hb8 : (km.marshalData ++ rest)[8]? = some km.cipher := rfl
  have hb9 : (km.marshalData ++ rest)[9]? = some km.authentication := rfl
  have hb10 : (km.marshalData ++ rest)[10]? = some km.streamEncapsulation := rfl
  have hb11 : (km.marshalData ++ rest)[11]? = some km.resv2 := rfl
  have hresv3 : uint16 (km.marshalData ++ rest) 12 = some km.resv3 :=
    congrArg some (uint16OfBytes_be16 km.resv3)
  have hb14 : (km.marshalData ++ rest)[14]? = some (km.sLen / 4).toUInt8 := rfl
  have hb15 : (km.marshalData ++ rest)[15]? = some (km.kLen / 4).toUInt8 := rfl
  have hsLen : (km.sLen / 4).toUInt8.toUInt16 * 4 = km.sLen :=
    words_byte (h.sLen.imp_right Or.inl)
  have hkLen : (km.kLen / 4).toUInt8.toUInt16 * 4 = km.kLen := words_byte (Or.inr h.kLen)
  unfold unmarshal
  rw [if_neg (by omega), if_neg (by omega), hb0, hsign, hb3, hkeki, hb8, hb9, hb10, hb11, hresv3,
    hb14, hb15]
  simp only [orPanic_some, ok_bind, hkey, hsLen, hkLen, hflags, hresv1]
  rw [if_neg (by decide), if_neg (by decide), if_neg (by decide), if_neg (not_not.mpr h.sign),
    if_neg h.key, if_neg (not_not.mpr h.keki), if_neg (not_not.mpr h.streamEncapsulation),
    if_neg (not_not.mpr h.kLen)]
  have hS : ((0x12 : UInt8) &&& 0x80) >>> (7 : UInt8) = km.s := h.s.symm
  have hV : ((0x12 : UInt8) &&& 0x70) >>> (4 : UInt8) = km.version := h.version.symm
  have hP : (0x12 : UInt8) &&& 0x0F = km.packetType := h.packetType.symm
  have hE : (0 : UInt32) = km.error := h.error.symm
  rw [hS, hV, hP, hE]

/-- Decoding what `Marshal` wrote, and anything after it, gives the message back. -/
theorem unmarshal_marshalData (h : km.WellFormed) (rest : Bytes) :
    unmarshal {} (km.marshalData ++ rest) = .ok km := by
  rw [unmarshal_eq_unmarshalKeys h.toWellFormedFixed]
  unfold marshalData
  rw [List.append_assoc, List.append_assoc]
  exact unmarshalKeys_append { km with salt := [], wrap := [] } km.marshalFixed km.salt km.wrap
    rest rfl h.salt h.wrap

/-- A well-formed message is a whole number of words, and fits the buffer of `Marshal`. -/
theorem WellFormed.length_marshalData (h : km.WellFormed) :
    ∃ words ≤ 26, km.marshalData.length = 4 * words := by
  have hkLen : km.kLen.toNat = 16 ∨ km.kLen.toNat = 24 ∨ km.kLen.toNat = 32 :=
    h.kLen.imp (congrArg UInt16.toNat) (Or.imp (congrArg UInt16.toNat) (congrArg UInt16.toNat))
  have hcount : km.keyCount = 1 ∨ km.keyCount = 2 := by
    unfold keyCount PacketEncryption.keyCount
    split
    · exact Or.inr rfl
    · exact Or.inl rfl
  have hsalt : (if km.sLen ≠ 0 then km.salt else []).length = 16 ∨
      (if km.sLen ≠ 0 then km.salt else []).length = 0 := by
    rcases h.salt with ⟨hlen, hsalt⟩ | ⟨hlen, -⟩
    · exact Or.inl (by rw [if_pos (by rw [hlen]; decide), hsalt])
    · exact Or.inr (by rw [if_neg (not_not.mpr hlen), List.length_nil])
  refine ⟨km.marshalData.length / 4, ?_⟩
  unfold marshalData
  rw [List.length_append, List.length_append, length_marshalFixed, h.wrap]
  rcases hkLen with hk | hk | hk <;> rcases hcount with hc | hc <;> rw [hk, hc] <;> omega

/-- What `Marshal` keeps of a message: it does not write the error, and six bits of the reserved
ones. -/
def carried (km : CIFKeyMaterialExtension) : CIFKeyMaterialExtension :=
  { km with error := 0, resv1 := km.resv1 &&& 0x3F }

/-- The six bits are what reaches the wire. -/
theorem resv1_masked (resv1 : UInt8) :
    (resv1 &&& 0x3F) <<< (2 : UInt8) &&& 0xFC = resv1 <<< (2 : UInt8) &&& 0xFC ∧
      resv1 &&& 0x3F < 64 := by
  refine byte_forall ?_ resv1
  decide +kernel

theorem marshalData_carried (km : CIFKeyMaterialExtension) :
    km.carried.marshalData = km.marshalData := by
  unfold marshalData marshalFixed carried
  dsimp only
  rw [(resv1_masked km.resv1).1]

theorem WellFormed.marshal_eq (h : km.WellFormed) :
    km.marshal = .ok km.marshalData := by
  obtain ⟨words, hwords, hlen⟩ := h.length_marshalData
  exact if_pos (by omega)

/-! ### What `Unmarshal` accepts -/

/-- How many bytes the message takes, by its own fixed fields. -/
def announced (data : Bytes) : Nat :=
  match data[3]?, data[14]?, data[15]? with
  | some b3, some b14, some b15 =>
    24 + b14.toNat * 4 + (PacketEncryption.ofBits b3).keyCount * (b15.toNat * 4)
  | _, _, _ => 16

/-- A wrap that was read has the length of its keys. -/
theorem unmarshalWrap_ok {c km : CIFKeyMaterialExtension} {offset : Nat}
    (h : c.unmarshalWrap data offset = .ok km) :
    ∃ wrap rest : Bytes, wrap.length = c.keyCount * c.kLen.toNat + 8 ∧
      km = { c with wrap := wrap } ∧ data.drop offset = wrap ++ rest := by
  obtain ⟨tail, htail, h⟩ := bind_eq_ok_iff.mp h
  obtain ⟨hlen, h⟩ := check_eq_ok_iff.mp h
  cases h
  refine ⟨_, tail.drop (c.keyCount * c.kLen.toNat + 8),
    List.length_take_of_le (Nat.not_lt.mp hlen), rfl, ?_⟩
  rw [List.take_append_drop, eq_drop_of_sliceFrom (orPanic_eq_ok_iff.mp htail)]

/-- The salt and the wrapped keys that are read after the fixed fields. -/
theorem unmarshalKeys_ok {c km : CIFKeyMaterialExtension} (h : c.unmarshalKeys data = .ok km)
    (hsalt : c.salt = []) :
    ∃ salt wrap rest : Bytes, km = { c with salt := salt, wrap := wrap } ∧
      (c.sLen = 16 ∧ salt.length = 16 ∨ c.sLen = 0 ∧ salt = []) ∧
      wrap.length = c.keyCount * c.kLen.toNat + 8 ∧ data.drop 16 = salt ++ (wrap ++ rest) := by
  unfold unmarshalKeys at h
  split at h
  · obtain ⟨hsLen, h⟩ := check_eq_ok_iff.mp h
    obtain ⟨tail, htail, h⟩ := bind_eq_ok_iff.mp h
    obtain ⟨hlen, h⟩ := check_eq_ok_iff.mp h
    obtain ⟨wrap, rest, hwrap, rfl, hdrop⟩ := unmarshalWrap_ok h
    have hsLen := not_not.mp hsLen
    obtain rfl := eq_drop_of_sliceFrom (orPanic_eq_ok_iff.mp htail)
    refine ⟨_, wrap, rest, rfl, Or.inl ⟨hsLen, List.length_take_of_le (Nat.not_lt.mp hlen)⟩, hwrap,
      ?_⟩
    rw [← hdrop, show data.drop 32 = (data.drop 16).drop 16 by rw [List.drop_drop],
      List.take_append_drop]
  · rename_i hsLen
    obtain ⟨wrap, rest, hwrap, rfl, hdrop⟩ := unmarshalWrap_ok h
    have hsLen := not_not.mp hsLen
    refine ⟨[], wrap, rest, ?_, Or.inr ⟨hsLen, rfl⟩, hwrap, hdrop⟩
    rw [← hsalt]

/-- The bytes of the flags, as `Marshal` writes what was read. -/
theorem first_byte_read (b : UInt8) :
    (((b &&& 0x80) >>> (7 : UInt8)) <<< (7 : UInt8) &&& 0x80) |||
      (((b &&& 0x70) >>> (4 : UInt8)) <<< (4 : UInt8) &&& 0x70) ||| (b &&& 0x0F &&& 0x0F) = b := by
  refine byte_forall ?_ b
  decide +kernel

theorem flags_byte_read (b : UInt8) :
    (((b &&& 0xFC) >>> (2 : UInt8)) <<< (2 : UInt8) &&& 0xFC) |||
      ((PacketEncryption.ofBits b).val &&& 3) = b := by
  refine byte_forall ?_ b
  decide +kernel

theorem words_byte_read (b : UInt8) :
    (b.toUInt16 * 4 / 4).toUInt8 = b ∧ (b.toUInt16 * 4).toNat = b.toNat * 4 := by
  refine byte_forall ?_ b
  decide +kernel

/-- What the fixed fields of an accepted message are. Only the salt and the keys are left. -/
theorem unmarshal_fixed_ok (h : unmarshal {} data = .ok km) (hlen : data.length ≠ 4) :
    ∃ c : CIFKeyMaterialExtension, c.unmarshalKeys data = .ok km ∧ c.salt = [] ∧
      (c.sLen = 0 ∨ c.sLen = 16 → c.WellFormedFixed) ∧ c.marshalFixed = data.take 16 ∧
      announced data = 24 + c.sLen.toNat + c.keyCount * c.kLen.toNat := by
  unfold unmarshal at h
  rw [if_neg hlen] at h
  obtain ⟨hshort, h⟩ := check_eq_ok_iff.mp h
  -- The sixteen bytes by name, so that all that is read of them computes.
  obtain ⟨a0, a1, a2, a3, a4, a5, a6, a7, a8, a9, a10, a11, a12, a13, a14, a15, data, rfl⟩ :=
    exists_sixteen_cons (l := data) (by omega)
  obtain ⟨_, ⟨⟩, h⟩ := bind_eq_ok_iff.mp h
  obtain ⟨hs, h⟩ := check_eq_ok_iff.mp h
  obtain ⟨hversion, h⟩ := check_eq_ok_iff.mp h
  obtain ⟨htype, h⟩ := check_eq_ok_iff.mp h
  obtain ⟨_, ⟨⟩, h⟩ := bind_eq_ok_iff.mp h
  obtain ⟨hsign, h⟩ := check_eq_ok_iff.mp h
  obtain ⟨_, ⟨⟩, h⟩ := bind_eq_ok_iff.mp h
  obtain ⟨hkey, h⟩ := check_eq_ok_iff.mp h
  obtain ⟨_, ⟨⟩, h⟩ := bind_eq_ok_iff.mp h
  obtain ⟨hkeki, h⟩ := check_eq_ok_iff.mp h
  obtain ⟨_, ⟨⟩, h⟩ := bind_eq_ok_iff.mp h
  obtain ⟨_, ⟨⟩, h⟩ := bind_eq_ok_iff.mp h
  obtain ⟨_, ⟨⟩, h⟩ := bind_eq_ok_iff.mp h
  obtain ⟨hencapsulation, h⟩ := check_eq_ok_iff.mp h
  obtain ⟨_, ⟨⟩, h⟩ := bind_eq_ok_iff.mp h
  obtain ⟨_, ⟨⟩, h⟩ := bind_eq_ok_iff.mp h
  obtain ⟨_, ⟨⟩, h⟩ := bind_eq_ok_iff.mp h
  obtain ⟨_, ⟨⟩, h⟩ := bind_eq_ok_iff.mp h
  obtain ⟨hkLen, h⟩ := check_eq_ok_iff.mp h
  refine ⟨_, h, rfl, fun hsLen => ?_, ?_, ?_⟩
  · exact
      { error := rfl
        s := not_not.mp hs
        version := not_not.mp hversion
        packetType := not_not.mp htype
        sign := not_not.mp hsign
        resv1 := resv1_lt a3
        key := hkey
        keki := not_not.mp hkeki
        streamEncapsulation := not_not.mp hencapsulation
        sLen := hsLen
        kLen := not_not.mp hkLen }
  · unfold marshalFixed
    dsimp only
    rw [first_byte_read, flags_byte_read, be16_uint16OfBytes, be32_uint32OfBytes,
      be16_uint16OfBytes, (words_byte_read a14).1, (words_byte_read a15).1]
    rfl
  · dsimp only [keyCount]
    rw [(words_byte_read a14).2, (words_byte_read a15).2]
    rfl

/-- What `Unmarshal` accepts. The error message of four bytes sets nothing but the error. Any other
one is well formed, it is at the start of the data, and it is as long as it says. -/
theorem unmarshal_ok_cases (h : unmarshal {} data = .ok km) :
    (data.length = 4 ∧ ∃ error, km = { error := error }) ∨
      (km.WellFormed ∧ km.marshalData <+: data ∧ announced data = km.marshalData.length) := by
  by_cases hlen : data.length = 4
  · unfold unmarshal at h
    rw [if_pos hlen] at h
    obtain ⟨error, -, h⟩ := bind_eq_ok_iff.mp h
    obtain ⟨-, h⟩ := check_eq_ok_iff.mp h
    cases h
    exact Or.inl ⟨hlen, error, rfl⟩
  obtain ⟨c, hkeys, hempty, hwell, hfixed, hannounced⟩ := unmarshal_fixed_ok h hlen
  obtain ⟨salt, wrap, rest, rfl, hsalt, hwrap, hdrop⟩ := unmarshalKeys_ok hkeys hempty
  -- The salt is written where there is one.
  have hwritten : (if c.sLen ≠ 0 then salt else []) = salt ∧ salt.length = c.sLen.toNat := by
    rcases hsalt with ⟨hsLen, hsalt⟩ | ⟨hsLen, rfl⟩
    · rw [hsLen]
      exact ⟨if_pos (by decide), hsalt⟩
    · rw [hsLen]
      exact ⟨if_neg (by decide), rfl⟩
  have hdata : marshalData { c with salt := salt, wrap := wrap }
      = data.take 16 ++ (salt ++ wrap) := by
    show c.marshalFixed ++ ((if c.sLen ≠ 0 then salt else []) ++ wrap) = _
    rw [hfixed, hwritten.1]
  refine Or.inr ⟨?_, ?_, ?_⟩
  · exact
      { hwell (hsalt.symm.imp And.left And.left) with
        salt := hsalt
        wrap := hwrap }
  · refine ⟨rest, ?_⟩
    rw [hdata, List.append_assoc, List.append_assoc, ← hdrop, List.take_append_drop]
  · rw [hdata, hannounced, ← hfixed]
    simp only [List.length_append, length_marshalFixed, hwritten.2, hwrap]
    omega

theorem sixteen_le_announced (data : Bytes) : 16 ≤ announced data := by
  unfold announced
  split
  · omega
  · exact Nat.le_refl 16

/-- The announced size is in the first sixteen bytes. -/
theorem announced_append (h : 16 ≤ data.length) (rest : Bytes) :
    announced (data ++ rest) = announced data := by
  unfold announced
  rw [List.getElem?_append_left (by omega), List.getElem?_append_left (by omega),
    List.getElem?_append_left (by omega)]

/-- What comes after a message that is there as a whole does not matter. -/
theorem unmarshal_append_of_announced {data rest : Bytes} (h : unmarshal {} (data ++ rest) = .ok km)
    (hlen : announced data ≤ data.length) (rest' : Bytes) :
    unmarshal {} (data ++ rest') = .ok km := by
  have h16 := Nat.le_trans (sixteen_le_announced data) hlen
  rcases unmarshal_ok_cases h with ⟨h4, -⟩ | ⟨hwell, hstart, hannounced⟩
  · rw [List.length_append] at h4
    omega
  · rw [announced_append h16] at hannounced
    obtain ⟨tail, rfl⟩ := List.prefix_of_prefix_length_le hstart (List.prefix_append data rest)
      (by omega)
    rw [List.append_assoc]
    exact unmarshal_marshalData hwell _

/-- What `Unmarshal` accepts is well formed. The exception is the error message of four bytes, which
sets nothing but the error. -/
theorem wellFormed_of_unmarshal (h : unmarshal {} data = .ok km) :
    (∃ error, km = { error := error }) ∨ km.WellFormed :=
  (unmarshal_ok_cases h).imp And.right And.left

/-- The message fits the buffer of `Marshal`. -/
theorem marshal_of_unmarshal (h : unmarshal {} data = .ok km) :
    km.marshal = .ok km.marshalData := by
  rcases wellFormed_of_unmarshal h with ⟨error, rfl⟩ | hwell
  · rfl
  · exact hwell.marshal_eq

/-! ### Any receiver -/

/-- How many bytes a message with these fields takes. -/
def size (km : CIFKeyMaterialExtension) : Nat :=
  16 + km.sLen.toNat + km.keyCount * km.kLen.toNat + 8

theorem WellFormed.length_eq_size (h : km.WellFormed) :
    km.marshalData.length = km.size := by
  unfold marshalData size
  rcases h.salt with ⟨hsLen, hsalt⟩ | ⟨hsLen, -⟩
  · rw [hsLen, if_pos (by decide)]
    simp only [List.length_append, length_marshalFixed, hsalt, h.wrap, UInt16.reduceToNat]
    omega
  · rw [hsLen, if_neg (by decide)]
    simp only [List.length_append, length_marshalFixed, List.length_nil, h.wrap,
      UInt16.reduceToNat]
    omega

/-- What decoding leaves of the receiver: the error, and the salt where the message has none. -/
def onto (c km : CIFKeyMaterialExtension) : CIFKeyMaterialExtension :=
  { km with error := c.error, salt := if km.sLen = 0 then c.salt else km.salt }

/-- `Marshal` writes neither of the two. -/
theorem marshalData_onto (c km : CIFKeyMaterialExtension) :
    (c.onto km).marshalData = km.marshalData := by
  unfold marshalData onto
  dsimp only
  by_cases hsLen : km.sLen = 0
  · rw [if_neg (not_not.mpr hsLen), if_neg (not_not.mpr hsLen)]
    rfl
  · rw [if_neg hsLen]
    rfl

theorem unmarshalWrap_map_onto (c km : CIFKeyMaterialExtension) (data : Bytes) (offset : Nat) :
    (km.unmarshalWrap data offset).map c.onto = (c.onto km).unmarshalWrap data offset := by
  unfold unmarshalWrap
  rw [map_bind]
  simp only [map_check]
  rfl

theorem unmarshalKeys_map_onto (c km : CIFKeyMaterialExtension) (data : Bytes) :
    (km.unmarshalKeys data).map c.onto
      = unmarshalKeys { km with error := c.error, salt := c.salt, wrap := c.wrap } data := by
  unfold unmarshalKeys
  dsimp only
  by_cases hsLen : km.sLen = 0
  · rw [if_neg (not_not.mpr hsLen), if_neg (not_not.mpr hsLen), unmarshalWrap_map_onto]
    unfold onto
    rw [if_pos hsLen]
    rfl
  · have honto : ∀ salt, c.onto { km with salt := salt }
        = { km with error := c.error, salt := salt } := by
      intro salt
      unfold onto
      dsimp only
      rw [if_neg hsLen]
    rw [if_pos hsLen, if_pos hsLen, map_check, map_bind]
    simp only [map_check, unmarshalWrap_map_onto, honto]
    rfl

/-- Decoding into any receiver. -/
theorem unmarshal_eq_onto (c : CIFKeyMaterialExtension) (hlen : data.length ≠ 4) :
    unmarshal c data = (unmarshal {} data).map c.onto := by
  unfold unmarshal
  rw [if_neg hlen, if_neg hlen]
  simp only [map_bind, map_check, unmarshalKeys_map_onto]

/-- Key material that is accepted starts with as many bytes as its fields say. They decode to the
same message, and `Marshal` writes them again. -/
theorem unmarshal_take_size {c km : CIFKeyMaterialExtension} (h : c.unmarshal data = .ok km)
    (hlen : data.length ≠ 4) :
    km.size ≤ data.length ∧ c.unmarshal (data.take km.size) = .ok km ∧
      km.marshal = .ok (data.take km.size) := by
  rw [unmarshal_eq_onto c hlen] at h
  cases hplain : unmarshal {} data with
  | error e =>
    rw [hplain] at h
    cases h
  | ok plain =>
    rw [hplain] at h
    cases h
    obtain ⟨h4, -⟩ | ⟨hwell, hstart, -⟩ := unmarshal_ok_cases hplain
    · exact absurd h4 hlen
    have hsize := hwell.length_eq_size
    have htake : data.take (c.onto plain).size = plain.marshalData := by
      rw [show (c.onto plain).size = plain.marshalData.length from hsize.symm]
      exact (List.prefix_iff_eq_take.mp hstart).symm
    refine ⟨?_, ?_, ?_⟩
    · exact hsize ▸ hstart.length_le
    · -- At least the fixed fields and a key are there, so this is no error message.
      have hne : plain.marshalData.length ≠ 4 := by
        rw [hsize]
        unfold size
        omega
      rw [htake, unmarshal_eq_onto c hne, ← List.append_nil plain.marshalData,
        unmarshal_marshalData hwell]
      rfl
    · have hmarshal := hwell.marshal_eq
      unfold marshal at hmarshal ⊢
      rw [marshalData_onto, htake]
      exact hmarshal

end Gosrt.CIFKeyMaterialExtension
