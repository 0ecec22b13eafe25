import Gosrt.Proofs.Circular
import Gosrt.Proofs.HandshakeCodec

/-!
# `Gosrt.Proofs.HandshakeRoundTrip`: a CONCLUSION is decoded to itself

`received` of `Proofs.HandshakeCodec` says what the peer decodes from any version 5
CONCLUSION. Here the message is `Complete`: its extensions are those that its flags name, its
strings do not end in a zero byte, and its address is an IPv4 address. `received` is then the
message that `Marshal` leaves behind in its receiver, up to `IsRequest`, which is not on the
wire, and up to two fields of the key material.

These two are `Error`, which only the message of four bytes has, and `Resv1`, which has six
bits on the wire and eight in the source. `CIFKeyMaterialExtension.carried` drops both. A
message whose key material it changes is not decoded to itself (`wideResv1`).
-/

set_option autoImplicit false

namespace Gosrt

open Lib

/-! ### Strings -/

/-- A string that does not end in a zero byte keeps all of its bytes. -/
theorem trimZeros_eq_self {s : Bytes} (h : s.getLast? ≠ some 0) : trimZeros s = s := by
  unfold trimZeros
  rw [List.rdropWhile_eq_self_iff]
  intro hne hzero
  rw [List.getLast?_eq_some_getLast hne] at h
  exact h (congrArg some (beq_iff_eq.mp hzero))

/-! ### The address -/

namespace IP

/-- `Marshal` works on its receiver: it leaves the 16-byte form of the address there. -/
def afterMarshal (i : IP) : IP := ⟨i.to16, Or.inr (Or.inr i.length_to16)⟩

/-- An IPv4 address other than 0.0.0.0, in one of the two forms of a `net.IP`. -/
def IsHostV4 (i : IP) : Prop :=
  ∃ a b c d : UInt8, [a, b, c, d] ≠ [0, 0, 0, 0] ∧
    (i.ip = [a, b, c, d] ∨ i.ip = v4InV6Prefix ++ [a, b, c, d])

section
variable {i : IP} {a b c d : UInt8}

theorem isValid_of_host (hne : [a, b, c, d] ≠ [0, 0, 0, 0])
    (hip : i.ip = [a, b, c, d] ∨ i.ip = v4InV6Prefix ++ [a, b, c, d]) : i.isValid = true := by
  have hprefix : v4InV6Prefix ++ [a, b, c, d] ≠ v4InV6Prefix ++ [0, 0, 0, 0] :=
    fun heq => hne (List.append_cancel_left heq)
  unfold isValid isUnspecified
  rcases hip with hip | hip
  · rw [hip]
    simp only [beq_eq_false_iff_ne.mpr hne, Bool.false_or]
    simp [v4InV6Prefix]
  · rw [hip]
    simp only [beq_eq_false_iff_ne.mpr hprefix, Bool.or_false]
    simp [v4InV6Prefix]

theorem to16_of_host (hne : [a, b, c, d] ≠ [0, 0, 0, 0])
    (hip : i.ip = [a, b, c, d] ∨ i.ip = v4InV6Prefix ++ [a, b, c, d]) :
    i.to16 = v4InV6Prefix ++ [a, b, c, d] := by
  unfold to16
  dsimp only
  rw [if_pos (isValid_of_host hne hip)]
  rcases hip with hip | hip <;> rw [hip] <;> rfl

/-- The four bytes of an IPv4 address come back in the 16-byte form. -/
theorem IsHostV4.unmarshal_marshal (h : i.IsHostV4) :
    IP.unmarshal i.marshal = some i.afterMarshal := by
  obtain ⟨a, b, c, d, hne, hip⟩ := h
  have hto16 := to16_of_host hne hip
  have hmarshal : i.marshal = [d, c, b, a] ++ List.replicate 12 0 := by
    unfold marshal
    rw [hto16]
    rfl
  have hafter : i.afterMarshal = ipv4 a b c d := by
    unfold afterMarshal ipv4
    congr 1
  have hvalid : (ipv4 a b c d).isValid = true := isValid_of_host hne (Or.inr rfl)
  rw [hmarshal, hafter]
  show some (if (ipv4 a b c d).isValid then ipv4 a b c d else setDefault) = some (ipv4 a b c d)
  rw [if_pos hvalid]

end

end IP

/-! ### Key material -/

namespace CIFKeyMaterialExtension

/-- Key material that `Unmarshal` accepts. The reserved fields, the cipher and the
authentication are not restricted. -/
structure Valid (km : CIFKeyMaterialExtension) : Prop where
  s : km.s = 0
  version : km.version = 1
  packetType : km.packetType = 2
  sign : km.sign = 0x2029
  key : km.keyBasedEncryption ≠ .unencryptedPacket
  keki : km.keyEncryptionKeyIndex = 0
  streamEncapsulation : km.streamEncapsulation = 2
  kLen : km.kLen = 16 ∨ km.kLen = 24 ∨ km.kLen = 32
  salt : km.sLen = 16 ∧ km.salt.length = 16 ∨ km.sLen = 0 ∧ km.salt = []
  wrap : km.wrap.length = km.keyCount * km.kLen.toNat + 8

variable {km : CIFKeyMaterialExtension}

theorem Valid.wellFormed_carried (h : km.Valid) : km.carried.WellFormed where
  error := rfl
  s := h.s
  version := h.version
  packetType := h.packetType
  sign := h.sign
  resv1 := (resv1_masked km.resv1).2
  key := h.key
  keki := h.keki
  streamEncapsulation := h.streamEncapsulation
  sLen := h.salt.symm.imp And.left And.left
  kLen := h.kLen
  salt := h.salt
  wrap := h.wrap

/-- Key material that the wire carries whole. -/
theorem carried_eq_self_iff : km.carried = km ↔ km.error = 0 ∧ km.resv1 < 64 := by
  have hmask : ∀ b : UInt8, b < 64 → b &&& 0x3F = b := by
    intro b
    refine byte_forall ?_ b
    decide +kernel
  constructor
  · intro heq
    have herror := congrArg CIFKeyMaterialExtension.error heq
    have hresv1 := congrArg CIFKeyMaterialExtension.resv1 heq
    refine ⟨herror.symm, ?_⟩
    rw [← hresv1]
    exact (resv1_masked km.resv1).2
  · rintro ⟨herror, hresv1⟩
    unfold carried
    rw [hmask km.resv1 hresv1, ← herror]

end CIFKeyMaterialExtension

/-! ### The message -/

namespace CIFHandshake

/-- The receiver of `Marshal` after the call: the fields that `prepare` overwrites, and the
address. -/
def afterMarshal (c : CIFHandshake) : Go CIFHandshake := do
  let c ← c.prepare
  return { c with peerIP := c.peerIP.afterMarshal }

/-- A version 5 CONCLUSION with any of the four extensions. The fields of an extension that it
does not have are empty. -/
structure Complete (c : CIFHandshake) : Prop where
  version : c.version = 5
  handshakeType : c.handshakeType = HandshakeType.conclusion
  encryptionField : c.encryptionField = 0 ∨ c.encryptionField = 2 ∨ c.encryptionField = 3 ∨
    c.encryptionField = 4
  initialPacketSequenceNumber : ∃ x ≤ maxSequenceNumber,
    c.initialPacketSequenceNumber = Number.new x maxSequenceNumber
  peerIP : c.peerIP.IsHostV4
  srtHS : c.srtHS.isSome = c.hasHS
  hasKM : c.srtKM.isSome = c.hasKM
  srtKM : ∀ km, c.srtKM = some km → km.Valid
  streamId : if c.hasSID then
      c.streamId ≠ [] ∧ c.streamId.length ≤ 512 ∧ c.streamId.getLast? ≠ some 0
    else c.streamId = []
  congestionCtl : if c.hasCongestionCtl then
      c.congestionCtl.length ≤ 4 ∧ c.congestionCtl ≠ live ∧ c.congestionCtl.getLast? ≠ some 0
    else c.congestionCtl = []

/-- The message with the part of its key material that is on the wire. -/
def carried (c : CIFHandshake) : CIFHandshake :=
  { c with srtKM := c.srtKM.map CIFKeyMaterialExtension.carried }

section
variable {c : CIFHandshake}

/-- Preparing commutes with what the wire carries. -/
theorem prepare_carried (c : CIFHandshake) :
    c.carried.prepare = c.prepare >>= fun left => .ok left.carried := by
  obtain ⟨isRequest, version, encryptionField, extensionField, number, mtu, window, type, socketId,
    cookie, peerIP, hasHS, hasKM, hasSID, hasCongestionCtl, srtHS, srtKM, streamId,
    congestionCtl⟩ := c
  unfold prepare
  by_cases hversion : version = 5
  · subst hversion
    cases hasKM <;> cases srtKM <;> cases streamId <;> rfl
  · cases streamId with
    | nil =>
      show (if version = 5 then _ else _) = (if version = 5 then _ else _) >>= _
      rw [if_neg hversion, if_neg hversion]
      rfl
    | cons b s =>
      show (if version = 5 then _ else _) = (if version = 5 then _ else _) >>= _
      rw [if_neg hversion, if_neg hversion]
      rfl

theorem marshalKM_carried (c : CIFHandshake) : c.carried.marshalKM = c.marshalKM := by
  have hmarshal : ∀ km : CIFKeyMaterialExtension, km.carried.marshal = km.marshal := by
    intro km
    unfold CIFKeyMaterialExtension.marshal
    rw [km.marshalData_carried]
  unfold marshalKM
  show (if c.hasKM then orPanic (c.srtKM.map _) >>= _ else _) = _
  cases c.srtKM with
  | none => rfl
  | some km =>
    simp only [Option.map_some, orPanic_some, ok_bind, hmarshal]
    rfl

/-- `Marshal` writes the same bytes for both. -/
theorem marshal_carried (c : CIFHandshake) : c.carried.marshal = c.marshal := by
  unfold marshal
  rw [prepare_carried]
  cases c.prepare with
  | error e => rfl
  | ok left =>
    simp only [ok_bind]
    rw [marshalKM_carried left]
    rfl

namespace Complete

theorem streamId_le (h : c.Complete) : c.streamId.length ≤ 512 := by
  have hsid := h.streamId
  split at hsid
  · exact hsid.2.1
  · rw [hsid]
    exact Nat.zero_le 512

theorem congestionCtl_le (h : c.Complete) : c.congestionCtl.length ≤ 4 := by
  have hcongestion := h.congestionCtl
  split at hcongestion
  · exact hcongestion.1
  · rw [hcongestion]
    exact Nat.zero_le 4

theorem writesSID_eq (h : c.Complete) : c.writesSID = c.hasSID := by
  have hsid := h.streamId
  unfold writesSID
  cases hhas : c.hasSID with
  | true =>
    rw [hhas, if_pos rfl] at hsid
    rw [List.isEmpty_eq_false_iff.mpr hsid.1]
    rfl
  | false => rfl

theorem writesCongestion_eq (h : c.Complete) : c.writesCongestion = c.hasCongestionCtl := by
  have hcongestion := h.congestionCtl
  unfold writesCongestion
  cases hhas : c.hasCongestionCtl with
  | true =>
    rw [hhas, if_pos rfl] at hcongestion
    rw [bne_iff_ne.mpr hcongestion.2.1]
    rfl
  | false => rfl

/-- The strings come back as they are, and empty where they are not sent. -/
theorem streamId_received (h : c.Complete) :
    (if c.writesSID then trimZeros c.streamId else []) = c.streamId := by
  have hsid := h.streamId
  rw [h.writesSID_eq]
  split at hsid
  · rename_i hhas
    rw [if_pos hhas, trimZeros_eq_self hsid.2.2]
  · rename_i hhas
    rw [if_neg hhas, hsid]

theorem congestionCtl_received (h : c.Complete) :
    (if c.writesCongestion then trimZeros c.congestionCtl else []) = c.congestionCtl := by
  have hcongestion := h.congestionCtl
  rw [h.writesCongestion_eq]
  split at hcongestion
  · rename_i hhas
    rw [if_pos hhas, trimZeros_eq_self hcongestion.2.2]
  · rename_i hhas
    rw [if_neg hhas, hcongestion]

theorem initialPacketSequenceNumber_received (h : c.Complete) :
    Number.new (c.initialPacketSequenceNumber.val &&& maxSequenceNumber) maxSequenceNumber
      = c.initialPacketSequenceNumber := by
  obtain ⟨x, hx, hnumber⟩ := h.initialPacketSequenceNumber
  rw [hnumber]
  refine Number.isSequenceNumber_of_wf (Number.wf_new_of_le hx) ?_
  rw [Number.new_of_le hx]

/-- A complete message is well formed as far as the wire carries it. -/
theorem wellFormed_carried (h : c.Complete) : c.carried.WellFormed where
  version := h.version
  encryptionField := by
    show knownEncryptionField c.encryptionField = true
    rcases h.encryptionField with hf | hf | hf | hf <;> rw [hf] <;> rfl
  srtHS := by
    intro (hhs : c.hasHS = true)
    exact h.srtHS.trans hhs
  srtKM := by
    intro (hkm : c.hasKM = true)
    obtain ⟨km, hsome⟩ := Option.isSome_iff_exists.mp (h.hasKM.trans hkm)
    refine ⟨km.carried, ?_, (h.srtKM km hsome).wellFormed_carried⟩
    show c.srtKM.map _ = _
    rw [hsome]
    rfl
  streamId := h.streamId_le
  congestionCtl := h.congestionCtl_le

/-- What the peer decodes: the receiver of `Marshal` after the call, with the key material of
the wire. -/
theorem received_carried (h : c.Complete) :
    c.carried.received =
      { c.prepared with
        isRequest := false
        peerIP := c.peerIP.afterMarshal
        srtKM := c.srtKM.map CIFKeyMaterialExtension.carried } := by
  have hhs : (if c.hasHS then c.srtHS else none) = c.srtHS := by
    cases hsome : c.srtHS with
    | none => simp
    | some hs => simp [← h.srtHS, hsome]
  have hkm : (if c.hasKM then c.srtKM.map CIFKeyMaterialExtension.carried else none)
      = c.srtKM.map CIFKeyMaterialExtension.carried := by
    cases hsome : c.srtKM with
    | none => simp
    | some km => simp [← h.hasKM, hsome]
  have hkLen : ((c.srtKM.map CIFKeyMaterialExtension.carried).map (·.kLen / 8))
      = c.srtKM.map (·.kLen / 8) := by
    cases c.srtKM with
    | none => rfl
    | some km => rfl
  have haddress : (IP.unmarshal c.peerIP.marshal).getD IP.nil = c.peerIP.afterMarshal := by
    rw [h.peerIP.unmarshal_marshal]
    rfl
  have hnumber := h.initialPacketSequenceNumber_received
  have hsid := h.streamId_received
  have hcongestion := h.congestionCtl_received
  have hwrites := h.writesCongestion_eq
  simp only [received, prepared, fixed, carried, hkLen, haddress, hnumber, CIFHandshake.mk.injEq,
    true_and]
  exact ⟨rfl, rfl, hwrites, hhs, hkm, hsid, hcongestion⟩

/-- A complete message is read back as it was prepared. -/
theorem unmarshal_marshal (h : c.Complete) :
    ∃ data, c.marshal = .ok data ∧
      unmarshal {} data =
        .ok { c.prepared with
          isRequest := false
          peerIP := c.peerIP.afterMarshal
          srtKM := c.srtKM.map CIFKeyMaterialExtension.carried } := by
  obtain ⟨data, hmarshal, hunmarshal⟩ :=
    CIFHandshake.unmarshal_marshal h.wellFormed_carried h.handshakeType
  rw [marshal_carried] at hmarshal
  rw [h.received_carried] at hunmarshal
  exact ⟨data, hmarshal, hunmarshal⟩

theorem afterMarshal_eq (h : c.Complete) :
    c.afterMarshal = .ok { c.prepared with peerIP := c.peerIP.afterMarshal } := by
  unfold afterMarshal
  rw [prepare_eq_prepared h.version fun hkm => h.hasKM.trans hkm]
  rfl

end Complete

/-- Every complete CONCLUSION is encoded, and decoded into a fresh value as `Marshal` leaves it
in its receiver, up to `IsRequest` and what the wire does not carry of the key material. That is
the whole of the key material when its `Error` is zero and its `Resv1` has six bits. -/
theorem conclusion_roundTrip (h : c.Complete) :
    ∃ left data,
      c.afterMarshal = .ok left ∧
      left =
        { c with
          encryptionField := left.encryptionField
          extensionField := left.extensionField
          peerIP := c.peerIP.afterMarshal } ∧
      c.marshal = .ok data ∧
      unmarshal {} data =
        .ok { left with
          isRequest := false
          srtKM := c.srtKM.map CIFKeyMaterialExtension.carried } ∧
      (c.srtKM.map CIFKeyMaterialExtension.carried = c.srtKM ↔
        ∀ km, c.srtKM = some km → km.error = 0 ∧ km.resv1 < 64) := by
  obtain ⟨data, hmarshal, hunmarshal⟩ := h.unmarshal_marshal
  refine ⟨_, data, h.afterMarshal_eq, ?_, hmarshal, hunmarshal, ?_⟩
  · simp only [prepared, h.writesSID_eq]
  · cases c.srtKM with
    | none => simp
    | some km => simp [CIFKeyMaterialExtension.carried_eq_self_iff]

end

end CIFHandshake

/-! ### A message of each kind -/

namespace Sample

/-- A CONCLUSION with all four extensions. -/
def conclusion (resv1 : UInt8) : CIFHandshake where
  version := 5
  initialPacketSequenceNumber := Number.new 42 maxSequenceNumber
  maxTransmissionUnitSize := 1500
  maxFlowWindowSize := 100
  handshakeType := HandshakeType.conclusion
  srtSocketId := 0x274921
  synCookie := 0x123456
  peerIP := IP.ipv4 127 0 0 1
  hasHS := true
  hasKM := true
  hasSID := true
  hasCongestionCtl := true
  srtHS := some {
    srtVersion := 0x010402
    srtFlags := CIFHandshakeExtensionFlags.own
    recvTSBPDDelay := 100
    sendTSBPDDelay := 100 }
  srtKM := some {
    version := 1
    packetType := 2
    sign := 0x2029
    resv1 := resv1
    keyBasedEncryption := .evenKeyEncrypted
    cipher := 2
    streamEncapsulation := 2
    sLen := 16
    kLen := 16
    salt := List.replicate 16 1
    wrap := List.replicate 24 2 }
  streamId := [0x2F, 0x6C, 0x69, 0x76, 0x65, 0x2F, 0x73]
  congestionCtl := [0x66, 0x6F, 0x6F, 0x62]

theorem conclusion_complete (resv1 : UInt8) : (conclusion resv1).Complete where
  version := rfl
  handshakeType := rfl
  encryptionField := Or.inl rfl
  initialPacketSequenceNumber := ⟨42, by decide, rfl⟩
  peerIP := ⟨127, 0, 0, 1, by decide, Or.inr rfl⟩
  srtHS := rfl
  hasKM := rfl
  srtKM := by
    rintro km ⟨⟩
    exact ⟨rfl, rfl, rfl, rfl, by simp, rfl, rfl, Or.inl rfl, Or.inl ⟨rfl, rfl⟩, rfl⟩
  streamId := by simp [conclusion]
  congestionCtl := by simp [conclusion, CIFHandshake.live]

end Sample

namespace CIFHandshake

/-- A CONCLUSION with all four extensions comes back. -/
theorem conclusion_roundTrip_sample :
    (Sample.conclusion 0).Complete ∧
    ∃ left data,
      (Sample.conclusion 0).afterMarshal = .ok left ∧ (Sample.conclusion 0).marshal = .ok data ∧
      left.encryptionField = 2 ∧ left.extensionField = 7 ∧
      unmarshal {} data = .ok { left with isRequest := false } := by
  have hcomplete := Sample.conclusion_complete 0
  obtain ⟨left, data, hleft, -, hdata, hdecoded, -⟩ := conclusion_roundTrip hcomplete
  have hfields : left = { (Sample.conclusion 0).prepared with
      peerIP := (Sample.conclusion 0).peerIP.afterMarshal } :=
    Except.ok.inj (hleft.symm.trans hcomplete.afterMarshal_eq)
  refine ⟨hcomplete, left, data, hleft, hdata, ?_, ?_, ?_⟩
  · rw [hfields]
    rfl
  · rw [hfields]
    rfl
  · rw [hdecoded, hfields]
    rfl

/-- The two upper bits of `Resv1` are lost, although `Resv1` is not among the fields that
`Unmarshal` checks. -/
theorem wideResv1 :
    (Sample.conclusion 64).Complete ∧
    ¬∃ left data,
      (Sample.conclusion 64).afterMarshal = .ok left ∧ (Sample.conclusion 64).marshal = .ok data ∧
      unmarshal {} data = .ok { left with isRequest := false } := by
  have hcomplete := Sample.conclusion_complete 64
  refine ⟨hcomplete, ?_⟩
  rintro ⟨left, data, hleft, hdata, hdecoded⟩
  obtain ⟨data', hdata', hdecoded'⟩ := hcomplete.unmarshal_marshal
  rw [hdata] at hdata'
  cases hdata'
  rw [hcomplete.afterMarshal_eq] at hleft
  cases hleft
  rw [hdecoded] at hdecoded'
  exact absurd (congrArg CIFHandshake.srtKM (Except.ok.inj hdecoded')) (by decide)

end CIFHandshake

end Gosrt
