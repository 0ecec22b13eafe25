import Gosrt.Proofs.Handshake
import Gosrt.Proofs.KeyMaterial

/-!
# `Gosrt.Proofs.HandshakeCodec`: what the peer decodes from a handshake message

`Marshal` overwrites some fields of the message before it writes them, and the wire drops
others, so a message is not decoded to itself. `received` is what the peer gets: the fixed
fields, and those extensions that were written.

The fixed fields come first (`unmarshalHeader_append`). They are all that is decoded from a
message that is not a CONCLUSION. The loop over the extensions takes them off the rest of
the bytes one by one (`decodeRest_append`), so there is one lemma for each of the four
extensions. `unmarshal_marshal` puts them together.
-/

set_option autoImplicit false

namespace Gosrt

open Lib

/-! ### The handshake extension -/

theorem CIFHandshakeExtensionFlags.ofWord_word (f : CIFHandshakeExtensionFlags) :
    ofWord f.word = f := by
  have hall : ∀ b0 b1 b2 b3 b4 b5 b6 b7 : Bool,
      ofWord (word ⟨b0, b1, b2, b3, b4, b5, b6, b7⟩) = ⟨b0, b1, b2, b3, b4, b5, b6, b7⟩ := by
    decide +kernel
  exact hall _ _ _ _ _ _ _ _

theorem CIFHandshakeExtension.length_marshal (hs : CIFHandshakeExtension) :
    hs.marshal.length = 12 := rfl

theorem CIFHandshakeExtension.unmarshal_append (hs : CIFHandshakeExtension) (rest : Bytes) :
    unmarshal (hs.marshal ++ rest) = .ok hs := by
  have hversion : uint32 (hs.marshal ++ rest) 0 = some hs.srtVersion :=
    congrArg some (uint32OfBytes_be32 hs.srtVersion)
  have hflags : uint32 (hs.marshal ++ rest) 4 = some hs.srtFlags.word :=
    congrArg some (uint32OfBytes_be32 hs.srtFlags.word)
  have hrecv : uint16 (hs.marshal ++ rest) 8 = some hs.recvTSBPDDelay :=
    congrArg some (uint16OfBytes_be16 hs.recvTSBPDDelay)
  have hsend : uint16 (hs.marshal ++ rest) 10 = some hs.sendTSBPDDelay :=
    congrArg some (uint16OfBytes_be16 hs.sendTSBPDDelay)
  unfold unmarshal
  rw [if_neg (by rw [List.length_append, length_marshal]; omega), hversion, hflags, hrecv, hsend]
  simp only [orPanic_some, ok_bind, CIFHandshakeExtensionFlags.ofWord_word]
  rfl

/-! ### The fixed fields -/

/-- An address takes 16 bytes. -/
theorem IP.length_to16 (i : IP) : i.to16.length = 16 := by
  have hdefault : setDefault.ip.length = 16 := rfl
  have hlen : (if i.isValid then i else setDefault).ip.length = 4 ∨
      (if i.isValid then i else setDefault).ip.length = 16 := by
    split
    · rename_i hvalid
      refine i.length_eq.resolve_left fun h0 => ?_
      have hnil := List.length_eq_zero_iff.mp h0
      unfold isValid at hvalid
      rw [hnil] at hvalid
      exact absurd hvalid Bool.false_ne_true
    · exact Or.inr hdefault
  unfold to16
  dsimp only
  rcases hlen with h4 | h16
  · rw [if_pos h4, List.length_append, h4]
    rfl
  · rw [if_neg (by omega), h16]

theorem IP.length_marshal (i : IP) : i.marshal.length = 16 := by
  unfold marshal
  split
  · rw [List.length_append, List.length_reverse, List.length_drop, length_to16]
    rfl
  · rw [List.length_reverse, length_to16]

namespace CIFHandshake

/-- The fixed fields as the peer decodes them. -/
def fixed (c : CIFHandshake) : CIFHandshake where
  version := c.version
  encryptionField := c.encryptionField
  extensionField := c.extensionField
  initialPacketSequenceNumber :=
    Number.new (c.initialPacketSequenceNumber.val &&& maxSequenceNumber) maxSequenceNumber
  maxTransmissionUnitSize := c.maxTransmissionUnitSize
  maxFlowWindowSize := c.maxFlowWindowSize
  handshakeType := c.handshakeType
  srtSocketId := c.srtSocketId
  synCookie := c.synCookie
  peerIP := (IP.unmarshal c.peerIP.marshal).getD IP.nil

theorem length_marshalHeader (c : CIFHandshake) : c.marshalHeader.length = 48 := by
  unfold marshalHeader
  simp only [List.length_append, length_be32, length_be16, IP.length_marshal]

/-- Where the address is written. -/
theorem slice_peerIP (c : CIFHandshake) (rest : Bytes) :
    slice (c.marshalHeader ++ rest) 32 48 = some c.peerIP.marshal := by
  have hlen : 48 ≤ (c.marshalHeader ++ rest).length := by
    rw [List.length_append, length_marshalHeader]
    omega
  unfold slice
  rw [if_pos hlen, List.take_left' (length_marshalHeader c)]
  rfl

/-- The fixed part is read back. -/
theorem unmarshalHeader_append (c : CIFHandshake) (rest : Bytes) :
    unmarshalHeader {} (c.marshalHeader ++ rest) = .ok c.fixed := by
  have hversion : uint32 (c.marshalHeader ++ rest) 0 = some c.version :=
    congrArg some (uint32OfBytes_be32 c.version)
  have hencryption : uint16 (c.marshalHeader ++ rest) 4 = some c.encryptionField :=
    congrArg some (uint16OfBytes_be16 c.encryptionField)
  have hextension : uint16 (c.marshalHeader ++ rest) 6 = some c.extensionField :=
    congrArg some (uint16OfBytes_be16 c.extensionField)
  have hnumber : uint32 (c.marshalHeader ++ rest) 8
      = some c.initialPacketSequenceNumber.val :=
    congrArg some (uint32OfBytes_be32 c.initialPacketSequenceNumber.val)
  have hmtu : uint32 (c.marshalHeader ++ rest) 12 = some c.maxTransmissionUnitSize :=
    congrArg some (uint32OfBytes_be32 c.maxTransmissionUnitSize)
  have hwindow : uint32 (c.marshalHeader ++ rest) 16 = some c.maxFlowWindowSize :=
    congrArg some (uint32OfBytes_be32 c.maxFlowWindowSize)
  have htype : uint32 (c.marshalHeader ++ rest) 20 = some c.handshakeType :=
    congrArg some (uint32OfBytes_be32 c.handshakeType)
  have hsocket : uint32 (c.marshalHeader ++ rest) 24 = some c.srtSocketId :=
    congrArg some (uint32OfBytes_be32 c.srtSocketId)
  have hcookie : uint32 (c.marshalHeader ++ rest) 28 = some c.synCookie :=
    congrArg some (uint32OfBytes_be32 c.synCookie)
  unfold unmarshalHeader
  rw [hversion, hencryption, hextension, hnumber, hmtu, hwindow, htype, hsocket, hcookie,
    slice_peerIP c rest]
  rfl

/-- Only a CONCLUSION has extensions. -/
theorem unmarshal_append_of_ne (c : CIFHandshake) (rest : Bytes)
    (htype : c.handshakeType ≠ HandshakeType.conclusion) :
    unmarshal {} (c.marshalHeader ++ rest) = .ok c.fixed := by
  have hlen : ¬(c.marshalHeader ++ rest).length < 48 := by
    rw [List.length_append, length_marshalHeader]
    omega
  unfold unmarshal
  rw [if_neg hlen, unmarshalHeader_append, ok_bind]
  show (if c.handshakeType = HandshakeType.induction then _ else _) = _
  by_cases hind : c.handshakeType = HandshakeType.induction
  · exact if_pos hind
  · rw [if_neg hind]
    exact if_pos htype

/-! ### The extensions -/

/-- The loop over the extensions, if anything is left for it. -/
def decodeRest (c : CIFHandshake) (rest : Bytes) : Go CIFHandshake :=
  if rest = [] then .ok c else c.unmarshalExtensions rest

@[simp] theorem decodeRest_nil (c : CIFHandshake) : c.decodeRest [] = .ok c := if_pos rfl

/-- One round of the loop takes off one extension. -/
theorem decodeRest_append (c : CIFHandshake) (extensionType : CtrlSubType) (data rest : Bytes)
    {words : Nat} (hlen : data.length = 4 * words) (hwords : words < 2 ^ 16) :
    c.decodeRest (marshalExtension extensionType data ++ rest) =
      c.unmarshalExtension extensionType data.length (data ++ rest) >>= (decodeRest · rest) := by
  have hlength : (uint16OfBytes
      (UInt8.ofNat ((UInt16.ofNat (data.length / 4)).toNat / 2 ^ 8))
      (UInt8.ofNat (UInt16.ofNat (data.length / 4)).toNat)).toNat * 4 = data.length := by
    rw [uint16OfBytes_be16, UInt16.toNat_ofNat']
    omega
  have hbytes : marshalExtension extensionType data ++ rest =
      UInt8.ofNat (extensionType.toNat / 2 ^ 8) :: UInt8.ofNat extensionType.toNat ::
        UInt8.ofNat ((UInt16.ofNat (data.length / 4)).toNat / 2 ^ 8) ::
        UInt8.ofNat (UInt16.ofNat (data.length / 4)).toNat :: (data ++ rest) := rfl
  unfold decodeRest
  rw [hbytes, if_neg (List.cons_ne_nil _ _), unmarshalExtensions, hlength, uint16OfBytes_be16]
  cases c.unmarshalExtension extensionType data.length (data ++ rest) with
  | error e => rfl
  | ok c' =>
    rw [ok_bind, List.drop_left]
    dsimp only
    by_cases hnil : rest = []
    · rw [if_neg (by rw [hnil, List.append_nil]; omega), if_pos hnil]
    · have hpos := List.length_pos_iff.mpr hnil
      rw [if_pos (by rw [List.length_append]; omega), if_neg hnil]

section
variable (c : CIFHandshake) (isRequest : Bool) (rest : Bytes)

theorem decodeRest_hs (hs : CIFHandshakeExtension) :
    c.decodeRest (marshalExtension (if isRequest then CtrlSubType.hsreq else CtrlSubType.hsrsp)
        hs.marshal ++ rest) =
      { c with hasHS := true, srtHS := some hs }.decodeRest rest := by
  have htype : (if isRequest then CtrlSubType.hsreq else CtrlSubType.hsrsp) = CtrlSubType.hsreq ∨
      (if isRequest then CtrlSubType.hsreq else CtrlSubType.hsrsp) = CtrlSubType.hsrsp := by
    cases isRequest with
    | true => exact Or.inl rfl
    | false => exact Or.inr rfl
  have hlen : hs.marshal.length = 4 * 3 := rfl
  rw [decodeRest_append c _ hs.marshal rest hlen (by decide)]
  unfold unmarshalExtension unmarshalHS
  rw [if_pos htype, if_neg (by rw [List.length_append]; omega),
    CIFHandshakeExtension.unmarshal_append]
  rfl

/-- Key material is decoded from the whole rest, and the encryption field is that of its key
length. -/
theorem decodeRest_km {km : CIFKeyMaterialExtension} (h : km.WellFormed)
    (hfield : c.encryptionField = km.kLen / 8) :
    c.decodeRest (marshalExtension (if isRequest then CtrlSubType.kmreq else CtrlSubType.kmrsp)
        km.marshalData ++ rest) =
      { c with hasKM := true, srtKM := some km }.decodeRest rest := by
  have htype : (if isRequest then CtrlSubType.kmreq else CtrlSubType.kmrsp) = CtrlSubType.kmreq ∨
      (if isRequest then CtrlSubType.kmreq else CtrlSubType.kmrsp) = CtrlSubType.kmrsp := by
    cases isRequest with
    | true => exact Or.inl rfl
    | false => exact Or.inr rfl
  have hnot : ¬((if isRequest then CtrlSubType.kmreq else CtrlSubType.kmrsp) = CtrlSubType.hsreq ∨
      (if isRequest then CtrlSubType.kmreq else CtrlSubType.kmrsp) = CtrlSubType.hsrsp) := by
    cases isRequest <;> decide
  have hknown : c.encryptionField ≠ 0 ∧ checkKeyLength c.encryptionField km.kLen = .ok () := by
    rw [hfield]
    rcases h.kLen with hk | hk | hk <;> rw [hk] <;> exact ⟨by decide, rfl⟩
  obtain ⟨words, hwords, hlen⟩ := h.length_marshalData
  rw [decodeRest_append c _ km.marshalData rest hlen (by omega)]
  unfold unmarshalExtension unmarshalKM
  rw [if_neg hnot, if_pos htype, if_neg (by rw [List.length_append]; omega),
    CIFKeyMaterialExtension.unmarshal_marshalData h rest]
  show (do checkKeyLength (if c.encryptionField = 0 then 2 else c.encryptionField) km.kLen; _) >>=
    _ = _
  rw [if_neg hknown.1, hknown.2]
  rfl

/-- A string extension: the bytes that `Marshal` writes, and what is decoded from them. -/
theorem unmarshalString_marshalString {limit : Nat} (extensionType : CtrlSubType) {s : Bytes}
    (hlimit : s.length ≤ limit) (h4 : limit % 4 = 0) :
    ∃ data, marshalString extensionType s = .ok (marshalExtension extensionType data) ∧
      data.length = 4 * ((s.length + 3) / 4) ∧
      ∀ (rest : Bytes) (store : Bytes → CIFHandshake),
        unmarshalString limit extensionType data.length (data ++ rest) store
          = .ok (store (trimZeros s)) := by
  have hpad := length_padZeros s
  obtain ⟨data, hswap, hlen, hback⟩ := swapWords_swapWords ((s.length + 3) / 4) (padZeros s) hpad
  have hdiv : 4 * ((s.length + 3) / 4) / 4 = (s.length + 3) / 4 := by omega
  refine ⟨data, ?_, hlen, fun rest store => ?_⟩
  · unfold marshalString
    rw [hpad, hdiv, hswap]
    rfl
  · unfold unmarshalString
    rw [if_neg (by rw [List.length_append]; omega), hlen, hdiv, hback rest, orPanic_some, ok_bind,
      trimZeros_padZeros]
    rfl

end

/-! ### The message -/

/-- Whether the stream id is written. -/
def writesSID (c : CIFHandshake) : Bool := c.hasSID && !c.streamId.isEmpty

/-- Whether the congestion control is written. -/
def writesCongestion (c : CIFHandshake) : Bool := c.hasCongestionCtl && c.congestionCtl != live

/-- What `Marshal` relies on, and `Unmarshal` checks, in a version 5 message. -/
structure WellFormed (c : CIFHandshake) : Prop where
  version : c.version = 5
  encryptionField : knownEncryptionField c.encryptionField = true
  srtHS : c.hasHS = true → c.srtHS.isSome = true
  srtKM : c.hasKM = true → ∃ km, c.srtKM = some km ∧ km.WellFormed
  streamId : c.streamId.length ≤ 512
  congestionCtl : c.congestionCtl.length ≤ 4

/-- A version 5 message as `Marshal` leaves it. -/
def prepared (c : CIFHandshake) : CIFHandshake :=
  { c with
    hasSID := c.writesSID
    encryptionField :=
      if c.hasKM then (c.srtKM.map (·.kLen / 8)).getD c.encryptionField else c.encryptionField
    extensionField :=
      (if c.handshakeType = HandshakeType.conclusion then 0 else c.extensionField) |||
        (if c.hasHS then 1 else 0) ||| (if c.hasKM then 2 else 0) |||
        (if c.writesSID then 4 else 0) ||| (if c.hasCongestionCtl then 4 else 0) }

/-- A version 5 CONCLUSION as the peer decodes it. -/
def received (c : CIFHandshake) : CIFHandshake :=
  { c.prepared.fixed with
    hasHS := c.hasHS
    srtHS := if c.hasHS then c.srtHS else none
    hasKM := c.hasKM
    srtKM := if c.hasKM then c.srtKM else none
    hasSID := c.writesSID
    streamId := if c.writesSID then trimZeros c.streamId else []
    hasCongestionCtl := c.writesCongestion
    congestionCtl := if c.writesCongestion then trimZeros c.congestionCtl else [] }

section
variable {c : CIFHandshake}

theorem prepare_eq_prepared (hversion : c.version = 5)
    (hsrtKM : c.hasKM = true → c.srtKM.isSome = true) : c.prepare = .ok c.prepared := by
  have hsid : (if c.streamId.isEmpty then { c with hasSID := false } else c)
      = { c with hasSID := c.writesSID } := by
    unfold writesSID
    cases c.streamId.isEmpty with
    | true => rw [if_pos rfl, Bool.not_true, Bool.and_false]
    | false => rw [if_neg Bool.false_ne_true, Bool.not_false, Bool.and_true]
  unfold prepare prepared
  dsimp only
  rw [hsid, if_pos hversion]
  cases hkm : c.hasKM with
  | true =>
    obtain ⟨km, hsome⟩ := Option.isSome_iff_exists.mp (hsrtKM hkm)
    rw [hsome]
    rfl
  | false => rfl

/-- A well-formed message can be prepared. -/
theorem WellFormed.prepare_eq (h : c.WellFormed) : c.prepare = .ok c.prepared := by
  refine prepare_eq_prepared h.version fun hkm => ?_
  obtain ⟨km, hsome, -⟩ := h.srtKM hkm
  exact Option.isSome_iff_exists.mpr ⟨km, hsome⟩

/-- The encryption field that is written is one that `Unmarshal` accepts. -/
theorem WellFormed.known_encryptionField (h : c.WellFormed) :
    knownEncryptionField c.prepared.encryptionField = true := by
  show knownEncryptionField (if c.hasKM then _ else _) = true
  cases hkm : c.hasKM with
  | true =>
    obtain ⟨km, hsome, hwf⟩ := h.srtKM hkm
    rw [if_pos rfl, hsome]
    show knownEncryptionField (km.kLen / 8) = true
    rcases hwf.kLen with hk | hk | hk <;> rw [hk] <;> rfl
  | false =>
    rw [if_neg Bool.false_ne_true]
    exact h.encryptionField

theorem WellFormed.decode_hs (h : c.WellFormed) :
    ∃ data, c.prepared.marshalHS = .ok data ∧ (c.hasHS = false → data = []) ∧
      ∀ (d : CIFHandshake) (rest : Bytes), d.decodeRest (data ++ rest) =
        (if c.hasHS then { d with hasHS := true, srtHS := c.srtHS } else d).decodeRest rest := by
  unfold marshalHS
  show ∃ data, (if c.hasHS then _ else _) = _ ∧ _
  cases hhs : c.hasHS with
  | true =>
    obtain ⟨hs, hsome⟩ := Option.isSome_iff_exists.mp (h.srtHS hhs)
    have hprep : c.prepared.srtHS = some hs := hsome
    rw [if_pos rfl, hprep, hsome]
    exact ⟨_, rfl, nofun, fun d rest => decodeRest_hs d c.isRequest rest hs⟩
  | false => exact ⟨[], rfl, fun _ => rfl, fun d rest => rfl⟩

theorem WellFormed.decode_km (h : c.WellFormed) :
    ∃ data, c.prepared.marshalKM = .ok data ∧ (c.hasKM = false → data = []) ∧
      ∀ (d : CIFHandshake) (rest : Bytes),
        d.encryptionField = c.prepared.encryptionField →
        d.decodeRest (data ++ rest) =
          (if c.hasKM then { d with hasKM := true, srtKM := c.srtKM } else d).decodeRest rest := by
  unfold marshalKM
  show ∃ data, (if c.hasKM then _ else _) = _ ∧ _
  cases hkm : c.hasKM with
  | true =>
    obtain ⟨km, hsome, hwf⟩ := h.srtKM hkm
    have hprep : c.prepared.srtKM = some km := hsome
    have hfield : c.prepared.encryptionField = km.kLen / 8 := by
      show (if c.hasKM then _ else _) = _
      rw [if_pos hkm, hsome]
      rfl
    rw [if_pos rfl, hprep, hsome, orPanic_some, ok_bind, hwf.marshal_eq]
    exact ⟨_, rfl, nofun, fun d rest hd => decodeRest_km d c.isRequest rest hwf (hd.trans hfield)⟩
  | false => exact ⟨[], rfl, fun _ => rfl, fun d rest _ => rfl⟩

theorem WellFormed.decode_sid (h : c.WellFormed) :
    ∃ data, c.prepared.marshalSID = .ok data ∧ (c.writesSID = false → data = []) ∧
      ∀ (d : CIFHandshake) (rest : Bytes), d.decodeRest (data ++ rest) =
        (if c.writesSID then { d with hasSID := true, streamId := trimZeros c.streamId }
          else d).decodeRest rest := by
  unfold marshalSID
  show ∃ data, (if c.writesSID then _ else _) = _ ∧ _
  cases c.writesSID with
  | true =>
    obtain ⟨data, hdata, hlen, hdecode⟩ :=
      unmarshalString_marshalString CtrlSubType.sid h.streamId rfl
    refine ⟨_, hdata, nofun, fun d rest => ?_⟩
    rw [decodeRest_append d _ data rest hlen (by have := h.streamId; omega)]
    unfold unmarshalExtension
    rw [if_neg (by decide), if_neg (by decide), if_pos rfl, hdecode]
    rfl
  | false => exact ⟨[], rfl, fun _ => rfl, fun d rest => rfl⟩

theorem WellFormed.decode_congestion (h : c.WellFormed) :
    ∃ data, c.prepared.marshalCongestion = .ok data ∧ (c.writesCongestion = false → data = []) ∧
      ∀ d : CIFHandshake, d.decodeRest data =
        .ok (if c.writesCongestion then
          { d with hasCongestionCtl := true, congestionCtl := trimZeros c.congestionCtl }
          else d) := by
  have hiff : c.writesCongestion = true ↔ c.hasCongestionCtl = true ∧ c.congestionCtl ≠ live := by
    simp [writesCongestion]
  unfold marshalCongestion
  show ∃ data, (if c.hasCongestionCtl ∧ c.congestionCtl ≠ live then _ else _) = _ ∧ _
  rw [if_congr hiff.symm rfl rfl]
  cases c.writesCongestion with
  | true =>
    obtain ⟨data, hdata, hlen, hdecode⟩ :=
      unmarshalString_marshalString CtrlSubType.congestion h.congestionCtl rfl
    refine ⟨_, hdata, nofun, fun d => ?_⟩
    have hround := decodeRest_append d CtrlSubType.congestion data [] hlen
      (by have := h.congestionCtl; omega)
    rw [List.append_nil] at hround
    rw [hround]
    unfold unmarshalExtension
    rw [if_neg (by decide), if_neg (by decide), if_neg (by decide), if_pos rfl, hdecode]
    rfl
  | false => exact ⟨[], rfl, fun _ => rfl, fun d => rfl⟩

/-- The extension field of a CONCLUSION is not zero where an extension is written. -/
theorem extensionField_prepared_ne_zero (htype : c.handshakeType = HandshakeType.conclusion)
    (h : c.hasHS = true ∨ c.hasKM = true ∨ c.writesSID = true ∨ c.writesCongestion = true) :
    c.prepared.extensionField ≠ 0 := by
  have hcongestion : c.writesCongestion = true → c.hasCongestionCtl = true := by
    unfold writesCongestion
    rw [Bool.and_eq_true]
    exact And.left
  have hall : ∀ b0 b1 b2 b3 : Bool, b0 = true ∨ b1 = true ∨ b2 = true ∨ b3 = true →
      (0 : UInt16) ||| (if b0 then 1 else 0) ||| (if b1 then 2 else 0) |||
        (if b2 then 4 else 0) ||| (if b3 then 4 else 0) ≠ 0 := by decide
  show (if c.handshakeType = HandshakeType.conclusion then _ else _) ||| _ ||| _ ||| _ ||| _ ≠ _
  rw [if_pos htype]
  exact hall _ _ _ _ (h.imp_right (Or.imp_right (Or.imp_right hcongestion)))

/-- A CONCLUSION: the fixed fields, then the loop. -/
theorem unmarshal_append_conclusion (d : CIFHandshake) (rest : Bytes)
    (htype : d.handshakeType = HandshakeType.conclusion)
    (hknown : knownEncryptionField d.encryptionField = true)
    (hfield : rest ≠ [] → d.extensionField ≠ 0) :
    unmarshal {} (d.marshalHeader ++ rest) = d.fixed.decodeRest rest := by
  have hlen := length_marshalHeader d
  have hind : d.handshakeType ≠ HandshakeType.induction := by
    rw [htype]
    decide
  unfold unmarshal
  rw [if_neg (by rw [List.length_append]; omega), unmarshalHeader_append, ok_bind]
  show (if d.handshakeType = HandshakeType.induction then _
    else if d.handshakeType ≠ HandshakeType.conclusion then _
    else if d.extensionField = 0 then _ else _) = _
  rw [if_neg hind, if_neg (not_not.mpr htype)]
  by_cases hnil : rest = []
  · rw [hnil, decodeRest_nil, List.append_nil, if_pos (Nat.le_of_eq hlen)]
    exact ite_self _
  · have hpos := List.length_pos_iff.mpr hnil
    rw [if_neg (hfield hnil), if_neg (by rw [List.length_append]; omega)]
    show (if (!knownEncryptionField d.encryptionField) = true then _ else _) = _
    rw [if_neg (by rw [hknown]; decide), sliceFrom_eq (by rw [List.length_append]; omega),
      List.drop_left' hlen]
    exact (if_neg hnil).symm

/-- What the peer decodes from a version 5 CONCLUSION. -/
theorem unmarshal_marshal (h : c.WellFormed)
    (htype : c.handshakeType = HandshakeType.conclusion) :
    ∃ data, c.marshal = .ok data ∧ unmarshal {} data = .ok c.received := by
  obtain ⟨hs, hmarshalHS, hnoHS, hdecodeHS⟩ := h.decode_hs
  obtain ⟨km, hmarshalKM, hnoKM, hdecodeKM⟩ := h.decode_km
  obtain ⟨sid, hmarshalSID, hnoSID, hdecodeSID⟩ := h.decode_sid
  obtain ⟨congestion, hmarshalC, hnoC, hdecodeC⟩ := h.decode_congestion
  refine ⟨c.prepared.marshalHeader ++ (hs ++ (km ++ (sid ++ congestion))), ?_, ?_⟩
  · unfold marshal
    rw [h.prepare_eq, ok_bind, hmarshalHS, hmarshalKM, hmarshalSID, hmarshalC]
    rfl
  have hfield : hs ++ (km ++ (sid ++ congestion)) ≠ [] → c.prepared.extensionField ≠ 0 := by
    intro hne
    refine extensionField_prepared_ne_zero htype ?_
    by_contra hnone
    simp only [not_or, Bool.not_eq_true] at hnone
    obtain ⟨h0, h1, h2, h3⟩ := hnone
    rw [hnoHS h0, hnoKM h1, hnoSID h2, hnoC h3] at hne
    exact hne rfl
  rw [unmarshal_append_conclusion c.prepared _ htype h.known_encryptionField hfield,
    hdecodeHS, hdecodeKM _ _ (by split <;> rfl), hdecodeSID, hdecodeC]
  unfold received
  cases c.hasHS <;> cases c.hasKM <;> cases c.writesSID <;> cases c.writesCongestion <;> rfl

/-- A well-formed message stays so when `Marshal` overwrites it. -/
theorem WellFormed.prepared (h : c.WellFormed) : c.prepared.WellFormed :=
  { h with encryptionField := h.known_encryptionField }

/-- A well-formed message is well-formed for the peer. -/
theorem WellFormed.received (h : c.WellFormed) : c.received.WellFormed where
  version := h.version
  encryptionField := h.known_encryptionField
  srtHS := by
    intro (hhs : c.hasHS = true)
    show (if c.hasHS then c.srtHS else none).isSome = true
    rw [if_pos hhs]
    exact h.srtHS hhs
  srtKM := by
    intro (hkm : c.hasKM = true)
    show ∃ km, (if c.hasKM then c.srtKM else none) = some km ∧ km.WellFormed
    rw [if_pos hkm]
    exact h.srtKM hkm
  streamId := by
    show (if c.writesSID then trimZeros c.streamId else []).length ≤ 512
    split
    · exact (length_trimZeros_le c.streamId).trans h.streamId
    · exact Nat.zero_le 512
  congestionCtl := by
    show (if c.writesCongestion then trimZeros c.congestionCtl else []).length ≤ 4
    split
    · exact (length_trimZeros_le c.congestionCtl).trans h.congestionCtl
    · exact Nat.zero_le 4

/-- `Marshal` says that an empty stream id is not there. -/
theorem withoutEmptySID (c : CIFHandshake) :
    ∃ hasSID, (if c.streamId.isEmpty then { c with hasSID := false } else c)
      = { c with hasSID := hasSID } := by
  split
  · exact ⟨false, rfl⟩
  · exact ⟨c.hasSID, rfl⟩

theorem prepare_of_version_ne (hversion : c.version ≠ 5) :
    ∃ hasSID, c.prepare
      = .ok { c with hasSID := hasSID, encryptionField := 0, extensionField := 2 } := by
  obtain ⟨hasSID, hsid⟩ := c.withoutEmptySID
  refine ⟨hasSID, ?_⟩
  unfold prepare
  rw [hsid]
  exact if_neg hversion

/-- What `Marshal` overwrites, in any message. -/
theorem prepare_fields {c' : CIFHandshake} (h : c.prepare = .ok c') :
    ∃ hasSID encryptionField extensionField,
      c' = { c with
        hasSID := hasSID, encryptionField := encryptionField,
        extensionField := extensionField } := by
  obtain ⟨hasSID, hsid⟩ := c.withoutEmptySID
  unfold prepare at h
  dsimp only at h
  rw [hsid] at h
  split at h
  · split at h
    · obtain ⟨km, -, hret⟩ := bind_eq_ok_iff.mp h
      cases hret
      exact ⟨_, _, _, rfl⟩
    · cases h
      exact ⟨_, _, _, rfl⟩
  · cases h
    exact ⟨_, _, _, rfl⟩

/-- `prepare` keeps the MTU size. -/
theorem mtu_prepare {c' : CIFHandshake} (h : c.prepare = .ok c') :
    c'.maxTransmissionUnitSize = c.maxTransmissionUnitSize := by
  obtain ⟨_, _, _, rfl⟩ := prepare_fields h
  rfl

/-- What the peer decodes from any other message: the fixed fields. -/
theorem unmarshal_marshal_of_ne {data : Bytes} (hdata : c.marshal = .ok data)
    (htype : c.handshakeType ≠ HandshakeType.conclusion) :
    ∃ c', c.prepare = .ok c' ∧ unmarshal {} data = .ok c'.fixed := by
  unfold marshal at hdata
  obtain ⟨c', hprepare, hdata⟩ := bind_eq_ok_iff.mp hdata
  obtain ⟨hs, -, hdata⟩ := bind_eq_ok_iff.mp hdata
  obtain ⟨km, -, hdata⟩ := bind_eq_ok_iff.mp hdata
  obtain ⟨sid, -, hdata⟩ := bind_eq_ok_iff.mp hdata
  obtain ⟨congestion, -, hdata⟩ := bind_eq_ok_iff.mp hdata
  cases hdata
  have htype' : c'.handshakeType = c.handshakeType := by
    obtain ⟨_, _, _, rfl⟩ := prepare_fields hprepare
    rfl
  exact ⟨c', hprepare, unmarshal_append_of_ne c' _ (htype'.trans_ne htype)⟩

/-- A message without extensions. -/
structure Plain (c : CIFHandshake) : Prop where
  hasHS : c.hasHS = false
  hasKM : c.hasKM = false
  hasSID : c.hasSID = false
  hasCongestionCtl : c.hasCongestionCtl = false
  congestionCtl : c.congestionCtl = []

/-- Only a CONCLUSION brings extensions. -/
theorem plain_fixed (c : CIFHandshake) : c.fixed.Plain := ⟨rfl, rfl, rfl, rfl, rfl⟩

/-- `Marshal` leaves a plain message alone, other than a CONCLUSION. -/
theorem Plain.prepare_eq (h : c.Plain) (hversion : c.version = 5)
    (htype : c.handshakeType ≠ HandshakeType.conclusion) : c.prepare = .ok c := by
  have hsid : (if c.streamId.isEmpty then { c with hasSID := false } else c) = c := by
    split
    · rw [← h.hasSID]
    · rfl
  have hfields : c.extensionField ||| (if c.hasHS then 1 else 0) ||| (if c.hasKM then 2 else 0) |||
      (if c.hasSID then 4 else 0) ||| (if c.hasCongestionCtl then 4 else 0) = c.extensionField := by
    simp [h.hasHS, h.hasKM, h.hasSID, h.hasCongestionCtl]
  unfold prepare
  dsimp only
  rw [hsid, if_pos hversion, if_neg htype, hfields, if_neg (Bool.eq_false_iff.mp h.hasKM)]
  rfl

end

end CIFHandshake

end Gosrt
