import Gosrt.Proofs.Circular
import Gosrt.Spec.Wire

/-!
# `Gosrt.Proofs.Wire`: the packet header survives its codec

The 16 bytes of a header are four words. The last two are plain integers. The first two
depend on the kind of the packet, and the second word of a data packet is the difficult one:
six flag bits above the 26 bits of the message number. `flags_of_byte` and `byte_of_flags` are
the two directions for the flag bits. The other bits are arithmetic.

`header_codec` is the result: every 16 bytes are a header that `Marshal` writes back, and every
header in range is decoded to itself.

At the end is the codec of loss reports. The first bit of a word says that a range starts there,
so a sequence number of 31 bits has room for it. What is decoded are the ranges that were written
(`unmarshalLoop_marshalLoop`).
-/

set_option autoImplicit false

namespace Gosrt

open Lib

/-! ### The words of the header -/

namespace PacketHeader

/-- The flags that are decoded from a byte are its upper six bits. -/
theorem flags_of_byte (h : PacketHeader) (b : UInt8)
    (hposition : h.packetPositionFlag
      = PacketPosition.ofBits ((b &&& 0b11000000) >>> (6 : UInt8)))
    (horder : h.orderFlag = (b &&& 0b00100000 != 0))
    (hkey : h.keyBaseEncryptionFlag
      = PacketEncryption.ofBits ((b &&& 0b00011000) >>> (3 : UInt8)))
    (hretransmitted : h.retransmittedPacketFlag = (b &&& 0b00000100 != 0)) :
    h.flags.toNat = b.toNat / 4 * 4 := by
  unfold flags
  rw [hposition, horder, hkey, hretransmitted]
  refine byte_forall ?_ b
  decide +kernel

/-- The byte of the flags and the two upper bits of the message number gives the flags
back. -/
theorem byte_of_flags (h : PacketHeader) {m : Nat} (hm : m < 4) :
    h.flags.toNat < 256 ∧ h.flags.toNat % 4 = 0 ∧
    PacketPosition.ofBits ((UInt8.ofNat (h.flags.toNat + m) &&& 0b11000000) >>> (6 : UInt8))
      = h.packetPositionFlag ∧
    (UInt8.ofNat (h.flags.toNat + m) &&& 0b00100000 != 0) = h.orderFlag ∧
    PacketEncryption.ofBits ((UInt8.ofNat (h.flags.toNat + m) &&& 0b00011000) >>> (3 : UInt8))
      = h.keyBaseEncryptionFlag ∧
    (UInt8.ofNat (h.flags.toNat + m) &&& 0b00000100 != 0) = h.retransmittedPacketFlag := by
  have hbits : m = 0 ∨ m = 1 ∨ m = 2 ∨ m = 3 := by omega
  unfold flags
  cases h.packetPositionFlag <;> cases h.orderFlag <;> cases h.keyBaseEncryptionFlag <;>
    cases h.retransmittedPacketFlag <;> rcases hbits with rfl | rfl | rfl | rfl <;> decide

end PacketHeader

/-- The mask of the message number is a remainder. -/
theorem toNat_messageNumber (x : UInt32) : (x &&& 0x03FFFFFF).toNat = x.toNat % 2 ^ 26 := by
  rw [UInt32.toNat_and]
  exact Nat.and_two_pow_sub_one_eq_mod x.toNat 26

/-- The second word of a data packet as a number. -/
theorem PacketHeader.toNat_field (h : PacketHeader) :
    ((h.flags <<< (24 : UInt32)) + (h.messageNumber &&& 0x03FFFFFF)).toNat
      = h.flags.toNat * 2 ^ 24 + h.messageNumber.toNat % 2 ^ 26 := by
  obtain ⟨hlt, hmod, -⟩ := h.byte_of_flags (m := 0) (by omega)
  have hshift : (h.flags <<< (24 : UInt32)).toNat = h.flags.toNat * 2 ^ 24 := by
    rw [UInt32.toNat_shiftLeft]
    show h.flags.toNat <<< 24 % 2 ^ 32 = _
    rw [Nat.shiftLeft_eq]
    exact Nat.mod_eq_of_lt (by omega)
  rw [UInt32.toNat_add, hshift, toNat_messageNumber]
  exact Nat.mod_eq_of_lt (by omega)

/-- The mask of the control type is a remainder. -/
theorem toNat_controlType (x : UInt16) : (x &&& 0x7FFF).toNat = x.toNat % 2 ^ 15 := by
  rw [UInt16.toNat_and]
  exact Nat.and_two_pow_sub_one_eq_mod x.toNat 15

/-- The first bit of a byte. -/
theorem and_first_bit (b : UInt8) : b &&& 0x80 ≠ 0 ↔ 128 ≤ b.toNat := by
  refine byte_forall ?_ b
  decide +kernel

/-- Setting the first bit of a byte. -/
theorem toNat_or_first_bit (b : UInt8) : (b ||| 0x80).toNat = b.toNat % 128 + 128 := by
  refine byte_forall ?_ b
  decide +kernel

namespace Packet

/-! ### Headers of given bytes -/

section
variable {b0 b1 b2 b3 b4 b5 b6 b7 b8 b9 b10 b11 b12 b13 b14 b15 : UInt8} {rest : Bytes}

/-- `Unmarshal`, byte by byte. The first bit tells a control packet from a data packet. -/
theorem unmarshal_cons (p : Packet) :
    p.unmarshal (b0 :: b1 :: b2 :: b3 :: b4 :: b5 :: b6 :: b7 :: b8 :: b9 :: b10 :: b11 :: b12 ::
        b13 :: b14 :: b15 :: rest) =
      if b0 &&& 0x80 ≠ 0 then
        .ok {
          header := { p.header with
            isControlPacket := true
            controlType := uint16OfBytes b0 b1 &&& 0x7FFF
            subType := uint16OfBytes b2 b3
            typeSpecific := uint32OfBytes b4 b5 b6 b7
            timestamp := uint32OfBytes b8 b9 b10 b11
            destinationSocketId := uint32OfBytes b12 b13 b14 b15 }
          payload := rest }
      else
        .ok {
          header := { p.header with
            isControlPacket := false
            packetSequenceNumber := Number.new (uint32OfBytes b0 b1 b2 b3) maxSequenceNumber
            packetPositionFlag := PacketPosition.ofBits ((b4 &&& 0b11000000) >>> (6 : UInt8))
            orderFlag := b4 &&& 0b00100000 != 0
            keyBaseEncryptionFlag := PacketEncryption.ofBits ((b4 &&& 0b00011000) >>> (3 : UInt8))
            retransmittedPacketFlag := b4 &&& 0b00000100 != 0
            messageNumber := uint32OfBytes b4 b5 b6 b7 &&& 0x03FFFFFF
            timestamp := uint32OfBytes b8 b9 b10 b11
            destinationSocketId := uint32OfBytes b12 b13 b14 b15 }
          payload := rest } := by
  unfold unmarshal
  rw [if_neg (by simp only [List.length_cons]; omega),
    sliceFrom_eq (by simp only [List.length_cons]; omega)]
  rfl

/-- `Marshal` writes the bytes of a control packet back. -/
theorem marshal_control (p : Packet) (hkind : b0 &&& 0x80 ≠ 0)
    (hcontrol : p.header.isControlPacket = true)
    (htype : p.header.controlType = uint16OfBytes b0 b1 &&& 0x7FFF)
    (hsub : p.header.subType = uint16OfBytes b2 b3)
    (hspecific : p.header.typeSpecific = uint32OfBytes b4 b5 b6 b7)
    (htimestamp : p.header.timestamp = uint32OfBytes b8 b9 b10 b11)
    (hsocket : p.header.destinationSocketId = uint32OfBytes b12 b13 b14 b15)
    (hpayload : p.payload = rest) :
    p.marshal = b0 :: b1 :: b2 :: b3 :: b4 :: b5 :: b6 :: b7 :: b8 :: b9 :: b10 :: b11 :: b12 ::
      b13 :: b14 :: b15 :: rest := by
  have h0 := b0.toNat_lt
  have h1 := b1.toNat_lt
  have hfirst := (and_first_bit b0).mp hkind
  have hval : p.header.controlType.toNat = (b0.toNat * 2 ^ 8 + b1.toNat) % 2 ^ 15 := by
    rw [htype, toNat_controlType, toNat_uint16OfBytes]
  have hb1 : UInt8.ofNat p.header.controlType.toNat = b1 := by
    rw [hval]
    exact ofNat_eq_of_mod (by omega)
  have hb0 : UInt8.ofNat (p.header.controlType.toNat / 2 ^ 8) ||| 0x80 = b0 := by
    refine UInt8.toNat_inj.mp ?_
    rw [toNat_or_first_bit, UInt8.toNat_ofNat', hval]
    omega
  unfold marshal PacketHeader.marshalControl
  rw [if_pos hcontrol]
  show (UInt8.ofNat (p.header.controlType.toNat / 2 ^ 8) ||| 0x80) ::
    UInt8.ofNat p.header.controlType.toNat :: (be16 p.header.subType ++
      (be32 p.header.typeSpecific ++ (be32 p.header.timestamp ++
        (be32 p.header.destinationSocketId ++ p.payload)))) = _
  rw [hb0, hb1, hsub, hspecific, htimestamp, hsocket, hpayload, be16_uint16OfBytes,
    be32_uint32OfBytes, be32_uint32OfBytes, be32_uint32OfBytes]
  rfl

/-- `Marshal` writes the bytes of a data packet back. -/
theorem marshal_data (p : Packet) (hcontrol : p.header.isControlPacket = false)
    (hseq : p.seq.val = uint32OfBytes b0 b1 b2 b3)
    (hflags : p.header.flags.toNat = b4.toNat / 4 * 4)
    (hnumber : p.header.messageNumber = uint32OfBytes b4 b5 b6 b7 &&& 0x03FFFFFF)
    (htimestamp : p.header.timestamp = uint32OfBytes b8 b9 b10 b11)
    (hsocket : p.header.destinationSocketId = uint32OfBytes b12 b13 b14 b15)
    (hpayload : p.payload = rest) :
    p.marshal = b0 :: b1 :: b2 :: b3 :: b4 :: b5 :: b6 :: b7 :: b8 :: b9 :: b10 :: b11 :: b12 ::
      b13 :: b14 :: b15 :: rest := by
  have h5 := b5.toNat_lt
  have h6 := b6.toNat_lt
  have h7 := b7.toNat_lt
  -- The flags and the message number share the byte `b4`: six bits and two bits.
  have hfield : (p.header.flags <<< (24 : UInt32)) + (p.header.messageNumber &&& 0x03FFFFFF)
      = uint32OfBytes b4 b5 b6 b7 := by
    refine UInt32.toNat_inj.mp ?_
    rw [p.header.toNat_field, hflags, hnumber, toNat_messageNumber, toNat_uint32OfBytes]
    omega
  have hseq' : p.header.packetSequenceNumber.val = uint32OfBytes b0 b1 b2 b3 := hseq
  unfold marshal PacketHeader.marshalData
  rw [if_neg (by rw [hcontrol]; exact Bool.false_ne_true), hseq', hfield, htimestamp, hsocket,
    hpayload]
  simp only [be32_uint32OfBytes]
  rfl

end

/-! ### The codec -/

/-- Sixteen bytes and more are a packet, and `Marshal` writes them back. -/
theorem marshal_unmarshal (q : Packet) (data : Bytes) (hlen : 16 ≤ data.length) :
    ∃ p, q.unmarshal data = .ok p ∧ p.marshal = data := by
  obtain ⟨b0, b1, b2, b3, b4, b5, b6, b7, b8, b9, b10, b11, b12, b13, b14, b15, rest, rfl⟩ :=
    exists_sixteen_cons hlen
  by_cases hkind : b0 &&& 0x80 ≠ 0
  · exact ⟨_, (unmarshal_cons q).trans (if_pos hkind),
      marshal_control _ hkind rfl rfl rfl rfl rfl rfl rfl⟩
  · have hfirst := mt (and_first_bit b0).mpr hkind
    have h1 := b1.toNat_lt
    have h2 := b2.toNat_lt
    have h3 := b3.toNat_lt
    -- The first bit is clear, so the number is in range and `New` takes it as it is.
    have hle : uint32OfBytes b0 b1 b2 b3 ≤ maxSequenceNumber := by
      rw [UInt32.le_iff_toNat_le, toNat_uint32OfBytes]
      show _ ≤ 2147483647
      omega
    refine ⟨_, (unmarshal_cons q).trans (if_neg hkind), marshal_data _ rfl ?_ ?_ rfl rfl rfl rfl⟩
    · show (Number.new (uint32OfBytes b0 b1 b2 b3) maxSequenceNumber).val = _
      rw [Number.new_of_le hle]
      rfl
    · exact PacketHeader.flags_of_byte _ b4 rfl rfl rfl rfl

/-- The bytes of a control packet in range are decoded to its fields. -/
theorem restores_control (q p : Packet) (hcontrol : p.header.isControlPacket = true)
    (hrange : p.header.controlType < 0x8000) :
    ∃ r, q.unmarshal p.marshal = .ok r ∧ Restores p r := by
  have hlt : p.header.controlType.toNat < 2 ^ 15 := UInt16.lt_iff_toNat_lt.mp hrange
  have hkind : (UInt8.ofNat (p.header.controlType.toNat / 2 ^ 8) ||| 0x80) &&& 0x80 ≠ 0 := by
    rw [and_first_bit, toNat_or_first_bit]
    omega
  have htype : uint16OfBytes (UInt8.ofNat (p.header.controlType.toNat / 2 ^ 8) ||| 0x80)
      (UInt8.ofNat p.header.controlType.toNat) &&& 0x7FFF = p.header.controlType := by
    refine UInt16.toNat_inj.mp ?_
    rw [toNat_controlType, toNat_uint16OfBytes, toNat_or_first_bit, UInt8.toNat_ofNat',
      UInt8.toNat_ofNat']
    omega
  have hbytes : p.marshal = (UInt8.ofNat (p.header.controlType.toNat / 2 ^ 8) ||| 0x80) ::
      UInt8.ofNat p.header.controlType.toNat :: (be16 p.header.subType ++
        (be32 p.header.typeSpecific ++ (be32 p.header.timestamp ++
          (be32 p.header.destinationSocketId ++ p.payload)))) := by
    unfold marshal PacketHeader.marshalControl
    rw [if_pos hcontrol]
    rfl
  rw [hbytes]
  refine ⟨_, (unmarshal_cons q).trans (if_pos hkind), ?_⟩
  exact
    { kind := hcontrol.symm
      control := fun _ => ⟨htype, uint16OfBytes_be16 _, uint32OfBytes_be32 _⟩
      data := fun hdata => absurd (hcontrol.symm.trans hdata) Bool.noConfusion
      timestamp := uint32OfBytes_be32 _
      destinationSocketId := uint32OfBytes_be32 _
      payload := rfl }

/-- The bytes of a data packet in range are decoded to its fields. -/
theorem restores_data (q p : Packet) (hcontrol : p.header.isControlPacket = false)
    (hseq : p.seq.val ≤ maxSequenceNumber) (hrange : p.header.messageNumber < 0x04000000) :
    ∃ r, q.unmarshal p.marshal = .ok r ∧ Restores p r := by
  have hnumber : p.header.messageNumber.toNat < 2 ^ 26 := UInt32.lt_iff_toNat_lt.mp hrange
  have hle : p.seq.val.toNat ≤ 2147483647 := UInt32.le_iff_toNat_le.mp hseq
  obtain ⟨hlt, hmod, hposition, horder, hkey, hretransmitted⟩ :=
    p.header.byte_of_flags (m := p.header.messageNumber.toNat / 2 ^ 24) (by omega)
  have hfield := p.header.toNat_field
  rw [Nat.mod_eq_of_lt hnumber] at hfield
  -- The first byte of the second word has the flags and two bits of the message number.
  have hbyte : ((p.header.flags <<< (24 : UInt32)) + (p.header.messageNumber &&& 0x03FFFFFF)).toNat
      / 2 ^ 24 = p.header.flags.toNat + p.header.messageNumber.toNat / 2 ^ 24 := by
    rw [hfield]
    omega
  have hmessage : ((p.header.flags <<< (24 : UInt32)) + (p.header.messageNumber &&& 0x03FFFFFF))
      &&& 0x03FFFFFF = p.header.messageNumber := by
    refine UInt32.toNat_inj.mp ?_
    rw [toNat_messageNumber, hfield]
    omega
  have hkind : ¬UInt8.ofNat (p.seq.val.toNat / 2 ^ 24) &&& 0x80 ≠ 0 := by
    rw [and_first_bit, UInt8.toNat_ofNat']
    omega
  have hbytes : p.marshal = be32 p.seq.val ++
      (be32 ((p.header.flags <<< (24 : UInt32)) + (p.header.messageNumber &&& 0x03FFFFFF)) ++
        (be32 p.header.timestamp ++ (be32 p.header.destinationSocketId ++ p.payload))) := by
    unfold marshal PacketHeader.marshalData
    rw [if_neg (by rw [hcontrol]; exact Bool.false_ne_true)]
    rfl
  rw [hbytes]
  refine ⟨_, (unmarshal_cons q).trans (if_neg hkind), ?_⟩
  rw [hbyte]
  exact
    { kind := hcontrol.symm
      control := fun hc => absurd (hcontrol.symm.trans hc) Bool.noConfusion
      data := fun _ => by
        have hnew : Number.new (uint32OfBytes (UInt8.ofNat (p.seq.val.toNat / 2 ^ 24))
            (UInt8.ofNat (p.seq.val.toNat / 2 ^ 16)) (UInt8.ofNat (p.seq.val.toNat / 2 ^ 8))
            (UInt8.ofNat p.seq.val.toNat)) maxSequenceNumber
            = Number.new p.seq.val maxSequenceNumber := by
          rw [uint32OfBytes_be32]
        have hval : (Number.new p.seq.val maxSequenceNumber).val = p.seq.val := by
          rw [Number.new_of_le hseq]
          rfl
        refine ⟨hnew, ?_, hposition, horder, hkey, hretransmitted, ?_⟩
        · exact (congrArg Number.val hnew).trans hval
        · refine Eq.trans ?_ hmessage
          rw [← hbyte]
          exact congrArg (· &&& 0x03FFFFFF) (uint32OfBytes_be32 _)
      timestamp := uint32OfBytes_be32 _
      destinationSocketId := uint32OfBytes_be32 _
      payload := rfl }

/-- The header codec, in both directions. -/
theorem header_codec :
    (∀ (q : Packet) (data : Bytes), 16 ≤ data.length →
      ∃ p, q.unmarshal data = .ok p ∧ p.marshal = data) ∧
    ∀ q p : Packet, p.InRange → ∃ r, q.unmarshal p.marshal = .ok r ∧ Restores p r := by
  refine ⟨marshal_unmarshal, fun q p h => ?_⟩
  cases hcontrol : p.header.isControlPacket with
  | true => exact restores_control q p hcontrol (h.control hcontrol)
  | false => exact restores_data q p hcontrol (h.data hcontrol).1 (h.data hcontrol).2

/-- A retransmitted data packet under the odd key. -/
def sampleData : Bytes :=
  [0x7F, 0xFF, 0xFF, 0xFF, 0xF7, 0x00, 0x00, 0x01, 0, 0, 0x27, 0x10, 0, 0, 0, 7, 0xAB]

/-- A key material request. -/
def sampleControl : Packet where
  header := { (newPacket none).header with
    isControlPacket := true
    controlType := CtrlType.user
    subType := CtrlSubType.kmreq
    timestamp := 10000
    destinationSocketId := 7 }
  payload := [0x12, 0x20, 0x29]

/-- A data packet and a control packet come back. -/
theorem header_codec_sample :
    (∃ p, (newPacket none).unmarshal sampleData = .ok p ∧ p.marshal = sampleData) ∧
    ∃ r, (newPacket none).unmarshal sampleControl.marshal = .ok r ∧ Restores sampleControl r :=
  ⟨header_codec.1 (newPacket none) sampleData (by decide),
    header_codec.2 (newPacket none) sampleControl ⟨by decide, by decide⟩⟩

end Packet

/-! ### Loss reports -/

namespace CIFNAK

/-- Induction over a list of ranges. -/
theorem rangeInduct {motive : List Number → Prop} (nil : motive [])
    (single : ∀ n, motive [n])
    (range : ∀ lo hi rest, motive rest → motive (lo :: hi :: rest)) : ∀ ns, motive ns
  | [] => nil
  | [n] => single n
  | lo :: hi :: rest => range lo hi rest (rangeInduct nil single range rest)

/-- The first byte of a word has the first bit of the word. -/
theorem first_byte (x : UInt32) :
    ∃ a b c d, be32 x = [a, b, c, d] ∧ uint32OfBytes a b c d = x ∧
      (a &&& 0b10000000 = 0 ↔ x.toNat < 2 ^ 31) := by
  refine ⟨_, _, _, _, rfl, uint32OfBytes_be32 x, ?_⟩
  have hx := x.toNat_lt
  have hfirst : (UInt8.ofNat (x.toNat / 2 ^ 24)).toNat = x.toNat / 2 ^ 24 := by
    rw [UInt8.toNat_ofNat']
    omega
  have hbit := and_first_bit (UInt8.ofNat (x.toNat / 2 ^ 24))
  rw [hfirst] at hbit
  constructor
  · intro h
    have hsmall := mt hbit.mpr (not_not.mpr h)
    omega
  · intro h
    exact not_not.mp fun hne => absurd (hbit.mp hne) (by omega)

/-- The mark of a range does not touch the number. -/
theorem marked_word (x : UInt32) (hx : x.toNat < 2 ^ 31) :
    (x ||| 0x80000000) &&& maxSequenceNumber = x ∧ ¬(x ||| 0x80000000).toNat < 2 ^ 31 := by
  have hor : (x ||| 0x80000000).toNat = 2 ^ 31 + x.toNat := by
    rw [UInt32.toNat_or, Nat.or_comm]
    exact (Nat.two_pow_add_eq_or_of_lt hx 1).symm
  refine ⟨?_, by omega⟩
  rw [← UInt32.toNat_inj, UInt32.toNat_and, hor]
  show (2 ^ 31 + x.toNat) &&& (2 ^ 31 - 1) = x.toNat
  rw [Nat.and_two_pow_sub_one_eq_mod]
  omega

/-- Decoding goes on after a single number. -/
theorem unmarshalLoop_single {n : Number} (hn : n.IsSequenceNumber) (rest : Bytes) :
    unmarshalLoop false (be32 n.val ++ rest) = n :: n :: unmarshalLoop false rest := by
  obtain ⟨a, b, c, d, hbytes, hword, hbit⟩ := first_byte n.val
  rw [hbytes]
  show (if a &&& 0b10000000 = 0 then _ else _) = _
  rw [if_pos (hbit.mpr hn.val_lt), hword, hn]
  rfl

/-- Decoding goes on after a range. -/
theorem unmarshalLoop_range {lo hi : Number} (hlo : lo.IsSequenceNumber)
    (hhi : hi.IsSequenceNumber) (rest : Bytes) :
    unmarshalLoop false (be32 (lo.val ||| 0x80000000) ++ be32 hi.val ++ rest)
      = lo :: hi :: unmarshalLoop false rest := by
  obtain ⟨hmask, hmark⟩ := marked_word lo.val hlo.val_lt
  obtain ⟨a, b, c, d, hbytes, hword, hbit⟩ := first_byte (lo.val ||| 0x80000000)
  obtain ⟨a', b', c', d', hbytes', hword', hbit'⟩ := first_byte hi.val
  rw [hbytes, hbytes']
  show (if a &&& 0b10000000 = 0 then _ else _) = _
  rw [if_neg (mt hbit.mp hmark), hword, hmask, hlo.new_val]
  show lo :: (if a' &&& 0b10000000 = 0 then _ else _) = _
  rw [if_pos (hbit'.mpr hhi.val_lt), hword', hhi]
  rfl

/-- Decoding goes on after a range that was written. -/
theorem unmarshalLoop_entry {lo hi : Number} (hlo : lo.IsSequenceNumber)
    (hhi : hi.IsSequenceNumber) (rest : Bytes) :
    unmarshalLoop false (entry lo hi ++ rest) = lo :: hi :: unmarshalLoop false rest := by
  unfold entry
  by_cases heq : lo = hi
  · subst heq
    rw [if_pos rfl, unmarshalLoop_single hlo]
  · rw [if_neg heq, unmarshalLoop_range hlo hhi]

/-- What is decoded are the ranges that were written. -/
theorem unmarshalLoop_marshalLoop (ns : List Number) :
    ∀ bytesWritten, (∀ n ∈ ns, n.IsSequenceNumber) →
      unmarshalLoop false (marshalLoop bytesWritten ns) = written bytesWritten ns := by
  induction ns using rangeInduct with
  | nil => exact fun _ _ => rfl
  | single n => exact fun _ _ => rfl
  | range lo hi rest ih =>
    intro bytesWritten hnumbers
    have hlo := hnumbers lo List.mem_cons_self
    have hhi := hnumbers hi (List.mem_cons_of_mem _ List.mem_cons_self)
    unfold marshalLoop written
    dsimp only
    split
    · have hlast := unmarshalLoop_entry hlo hhi []
      rw [List.append_nil] at hlast
      exact hlast
    · rw [unmarshalLoop_entry hlo hhi, ih _ fun n hn =>
        hnumbers n (List.mem_cons_of_mem _ (List.mem_cons_of_mem _ hn))]

theorem length_entry (lo hi : Number) : (entry lo hi).length = if lo = hi then 4 else 8 := by
  unfold entry
  split
  · rw [length_be32]
  · rw [List.length_append, length_be32, length_be32]

/-- `Marshal` writes whole words. -/
theorem length_marshalLoop (ns : List Number) :
    ∀ bytesWritten, (marshalLoop bytesWritten ns).length % 4 = 0 := by
  induction ns using rangeInduct with
  | nil => exact fun _ => rfl
  | single n => exact fun _ => rfl
  | range lo hi rest ih =>
    intro bytesWritten
    have hlen : (entry lo hi).length % 4 = 0 := by
      rw [length_entry]
      split
      · rfl
      · rfl
    unfold marshalLoop
    dsimp only
    split
    · exact hlen
    · have hrest := ih (bytesWritten + (entry lo hi).length)
      rw [List.length_append]
      omega

/-- Whole words that give whole ranges are accepted. -/
theorem unmarshal_eq_ok (sort : SortSlice) {data : Bytes} {ns : List Number}
    (hdata : data.length % 4 = 0) (hloop : unmarshalLoop false data = ns)
    (heven : ns.length % 2 = 0) :
    unmarshal sort data = .ok { lostPacketSequenceNumber := sort.sort Number.lt ns } := by
  subst hloop
  unfold unmarshal
  rw [if_neg (not_not.mpr hdata)]
  dsimp only
  rw [if_neg (not_not.mpr heven)]

end CIFNAK

end Gosrt
