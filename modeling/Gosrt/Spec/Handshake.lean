import Gosrt.Spec.IP
import Gosrt.Spec.KeyMaterial

/-!
# `Gosrt.Spec.Handshake`: handshake messages (`packet/packet.go`)

A handshake message is 48 bytes of fixed fields. A CONCLUSION can carry extensions after
them: the handshake extension, key material, a stream id, a congestion control name, and
others that are skipped. `unmarshalExtensions` is the loop over them. Each round reads a
header of four bytes, so it recurses on a shorter slice, and a round that finds fewer than
four bytes is the panic of the source.

Strings are byte lists, as in Go.
-/

set_option autoImplicit false

namespace Gosrt

open Lib

/-- `HandshakeType`. Any other value is a rejection. -/
abbrev HandshakeType := UInt32

namespace HandshakeType

def done : HandshakeType := 0xFFFFFFFD
def agreement : HandshakeType := 0xFFFFFFFE
def conclusion : HandshakeType := 0xFFFFFFFF
def wavehand : HandshakeType := 0x00000000
def induction : HandshakeType := 0x00000001

/-- `strconv.FormatUint` in base 32. Seven digits hold a `uint32`. -/
def formatBase32 (n : Nat) : String :=
  let digit (d : Nat) : Char := if d < 10 then Char.ofNat (48 + d) else Char.ofNat (87 + d)
  let rec digits : Nat → Nat → List Char
    | 0, _ => []
    | count + 1, n =>
      if n < 32 then [digit n] else digits count (n / 32) ++ [digit (n % 32)]
  String.ofList (digits 7 n)

/-- `HandshakeType.String`. -/
def string (h : HandshakeType) : String :=
  if h = done then "DONE"
  else if h = agreement then "AGREEMENT"
  else if h = conclusion then "CONCLUSION"
  else if h = wavehand then "WAVEHAND"
  else if h = induction then "INDUCTION"
  else "REJECT (" ++ formatBase32 h.toNat ++ ")"

/-- `HandshakeType.IsHandshake`. -/
def isHandshake (h : HandshakeType) : Bool :=
  h == done || h == agreement || h == conclusion || h == wavehand || h == induction

/-- `HandshakeType.IsRejection`. -/
def isRejection (h : HandshakeType) : Bool := !isHandshake h

end HandshakeType

/-! ### The handshake extension -/

/-- `CIFHandshakeExtensionFlags`. -/
structure CIFHandshakeExtensionFlags where
  tsbpdsnd : Bool := false
  tsbpdrcv : Bool := false
  crypt : Bool := false
  tlpktdrop : Bool := false
  periodicnak : Bool := false
  rexmitflg : Bool := false
  stream : Bool := false
  packetFilter : Bool := false
  deriving DecidableEq, Repr, Inhabited

namespace CIFHandshakeExtensionFlags

/-- The flags in a word. Flag number `i` is bit `i`. -/
def ofWord (w : UInt32) : CIFHandshakeExtensionFlags where
  tsbpdsnd := w &&& 0x01 ≠ 0
  tsbpdrcv := w &&& 0x02 ≠ 0
  crypt := w &&& 0x04 ≠ 0
  tlpktdrop := w &&& 0x08 ≠ 0
  periodicnak := w &&& 0x10 ≠ 0
  rexmitflg := w &&& 0x20 ≠ 0
  stream := w &&& 0x40 ≠ 0
  packetFilter := w &&& 0x80 ≠ 0

/-- The word of the flags. -/
def word (f : CIFHandshakeExtensionFlags) : UInt32 :=
  (if f.tsbpdsnd then 0x01 else 0) ||| (if f.tsbpdrcv then 0x02 else 0) |||
    (if f.crypt then 0x04 else 0) ||| (if f.tlpktdrop then 0x08 else 0) |||
    (if f.periodicnak then 0x10 else 0) ||| (if f.rexmitflg then 0x20 else 0) |||
    (if f.stream then 0x40 else 0) ||| (if f.packetFilter then 0x80 else 0)

/-- The flags that both ends ask of their peer. -/
def agrees (f : CIFHandshakeExtensionFlags) : Bool :=
  f.tsbpdsnd && f.tsbpdrcv && f.tlpktdrop && f.periodicnak && f.rexmitflg

/-- The flags that both ends send. -/
def own : CIFHandshakeExtensionFlags where
  tsbpdsnd := true
  tsbpdrcv := true
  crypt := true
  tlpktdrop := true
  periodicnak := true
  rexmitflg := true
  stream := false
  packetFilter := false

end CIFHandshakeExtensionFlags

/-- `CIFHandshakeExtension`. The delays are in milliseconds. -/
structure CIFHandshakeExtension where
  srtVersion : UInt32 := 0
  srtFlags : CIFHandshakeExtensionFlags := {}
  recvTSBPDDelay : UInt16 := 0
  sendTSBPDDelay : UInt16 := 0
  deriving DecidableEq, Repr, Inhabited

namespace CIFHandshakeExtension

/-- `Unmarshal`. It assigns every field. -/
def unmarshal (data : Bytes) : Go CIFHandshakeExtension :=
  if data.length < 12 then Go.err "data too short to unmarshal"
  else do
    let srtVersion ← orPanic (uint32 data 0)
    let srtFlags ← orPanic (uint32 data 4)
    let recvTSBPDDelay ← orPanic (uint16 data 8)
    let sendTSBPDDelay ← orPanic (uint16 data 10)
    return {
      srtVersion := srtVersion
      srtFlags := CIFHandshakeExtensionFlags.ofWord srtFlags
      recvTSBPDDelay := recvTSBPDDelay
      sendTSBPDDelay := sendTSBPDDelay }

/-- `Marshal`. -/
def marshal (c : CIFHandshakeExtension) : Bytes :=
  be32 c.srtVersion ++ (be32 c.srtFlags.word ++
    (be16 c.recvTSBPDDelay ++ be16 c.sendTSBPDDelay))

end CIFHandshakeExtension

/-! ### The message -/

/-- `CIFHandshake`. -/
structure CIFHandshake where
  isRequest : Bool := false
  version : UInt32 := 0
  encryptionField : UInt16 := 0
  extensionField : UInt16 := 0
  initialPacketSequenceNumber : Number := { max := 0, threshold := 0, value := 0 }
  maxTransmissionUnitSize : UInt32 := 0
  maxFlowWindowSize : UInt32 := 0
  handshakeType : HandshakeType := 0
  srtSocketId : UInt32 := 0
  synCookie : UInt32 := 0
  peerIP : IP := IP.nil
  hasHS : Bool := false
  hasKM : Bool := false
  hasSID : Bool := false
  hasCongestionCtl : Bool := false
  srtHS : Option CIFHandshakeExtension := none
  srtKM : Option CIFKeyMaterialExtension := none
  streamId : Bytes := []
  congestionCtl : Bytes := []
  deriving DecidableEq, Repr, Inhabited

namespace CIFHandshake

/-- The fixed fields of `Unmarshal`. -/
def unmarshalHeader (c : CIFHandshake) (data : Bytes) : Go CIFHandshake := do
  let version ← orPanic (uint32 data 0)
  let encryptionField ← orPanic (uint16 data 4)
  let extensionField ← orPanic (uint16 data 6)
  let sequenceNumber ← orPanic (uint32 data 8)
  let maxTransmissionUnitSize ← orPanic (uint32 data 12)
  let maxFlowWindowSize ← orPanic (uint32 data 16)
  let handshakeType ← orPanic (uint32 data 20)
  let srtSocketId ← orPanic (uint32 data 24)
  let synCookie ← orPanic (uint32 data 28)
  let peerIP ← orPanic (slice data 32 48)
  return { c with
    version := version
    encryptionField := encryptionField
    extensionField := extensionField
    initialPacketSequenceNumber :=
      Number.new (sequenceNumber &&& maxSequenceNumber) maxSequenceNumber
    maxTransmissionUnitSize := maxTransmissionUnitSize
    maxFlowWindowSize := maxFlowWindowSize
    handshakeType := handshakeType
    srtSocketId := srtSocketId
    synCookie := synCookie
    -- The source ignores the error of the address.
    peerIP := (IP.unmarshal peerIP).getD c.peerIP }

/-- The error for an extension whose length does not fit. -/
def invalidLength (extensionType : CtrlSubType) (extensionLength : Nat) : Go CIFHandshake :=
  Go.err ("invalid extension length of " ++ toString extensionLength ++ " bytes (" ++
    extensionType.string ++ ")")

/-- The key length has to match the encryption field. -/
def checkKeyLength (encryptionField kLen : UInt16) : Go Unit :=
  let invalid (cipher : String) : Go Unit :=
    Go.err ("invalid key length for " ++ cipher ++ " (" ++ toString (kLen * 8) ++ " bit)")
  if encryptionField = 2 ∧ kLen ≠ 16 then invalid "AES-128"
  else if encryptionField = 3 ∧ kLen ≠ 24 then invalid "AES-192"
  else if encryptionField = 4 ∧ kLen ≠ 32 then invalid "AES-256"
  else .ok ()

/-- The handshake extension. -/
def unmarshalHS (c : CIFHandshake) (extensionType : CtrlSubType) (extensionLength : Nat)
    (pivot : Bytes) : Go CIFHandshake :=
  if extensionLength ≠ 12 ∨ pivot.length < extensionLength then
    invalidLength extensionType extensionLength
  else do
    let hs ← (CIFHandshakeExtension.unmarshal pivot).wrap "CIFHandshakeExtension"
    return { c with hasHS := true, srtHS := some hs }

/-- The key material extension. It is decoded from the whole rest of the message, not from
its own length. -/
def unmarshalKM (c : CIFHandshake) (extensionType : CtrlSubType) (extensionLength : Nat)
    (pivot : Bytes) : Go CIFHandshake :=
  if pivot.length < extensionLength then invalidLength extensionType extensionLength
  else do
    let km ← (CIFKeyMaterialExtension.unmarshal {} pivot).wrap "CIFKeyMaterialExtension"
    -- The default is AES-128.
    let encryptionField := if c.encryptionField = 0 then 2 else c.encryptionField
    checkKeyLength encryptionField km.kLen
    return { c with hasKM := true, srtKM := some km, encryptionField := encryptionField }

/-- A string extension: its words have their bytes reversed, and trailing zero bytes are
cut off. -/
def unmarshalString (limit : Nat) (extensionType : CtrlSubType) (extensionLength : Nat)
    (pivot : Bytes) (store : Bytes → CIFHandshake) : Go CIFHandshake :=
  if extensionLength > limit ∨ pivot.length < extensionLength then
    invalidLength extensionType extensionLength
  else do
    let s ← orPanic (swapWords (extensionLength / 4) pivot)
    return store (trimZeros s)

/-- One round of the extension loop, after the header of the extension. -/
def unmarshalExtension (c : CIFHandshake) (extensionType : CtrlSubType) (extensionLength : Nat)
    (pivot : Bytes) : Go CIFHandshake :=
  if extensionType = CtrlSubType.hsreq ∨ extensionType = CtrlSubType.hsrsp then
    c.unmarshalHS extensionType extensionLength pivot
  else if extensionType = CtrlSubType.kmreq ∨ extensionType = CtrlSubType.kmrsp then
    c.unmarshalKM extensionType extensionLength pivot
  else if extensionType = CtrlSubType.sid then
    unmarshalString 512 extensionType extensionLength pivot
      fun s => { c with hasSID := true, streamId := s }
  else if extensionType = CtrlSubType.congestion then
    unmarshalString 4 extensionType extensionLength pivot
      fun s => { c with hasCongestionCtl := true, congestionCtl := s }
  else if pivot.length < extensionLength then
    -- Unimplemented and unknown extensions are skipped.
    invalidLength extensionType extensionLength
  else .ok c

/-- The loop over the extensions. -/
def unmarshalExtensions (c : CIFHandshake) (pivot : Bytes) : Go CIFHandshake :=
  match pivot with
  | t0 :: t1 :: l0 :: l1 :: pivot =>
    let extensionLength := (uint16OfBytes l0 l1).toNat * 4
    match c.unmarshalExtension (uint16OfBytes t0 t1) extensionLength pivot with
    | .error e => .error e
    | .ok c =>
      if pivot.length > extensionLength then
        unmarshalExtensions c (pivot.drop extensionLength)
      else .ok c
  | _ =>
    -- The four bytes of the header are out of range.
    .error .panic
termination_by pivot.length
decreasing_by simp only [List.length_drop, List.length_cons]; omega

/-- The encryption fields that `Unmarshal` accepts. -/
def knownEncryptionField (encryptionField : UInt16) : Bool :=
  encryptionField == 0 || encryptionField == 2 || encryptionField == 3 || encryptionField == 4

/-- `Unmarshal`. -/
def unmarshal (c : CIFHandshake) (data : Bytes) : Go CIFHandshake :=
  if data.length < 48 then Go.err "data too short to unmarshal"
  else do
    let c ← c.unmarshalHeader data
    if c.handshakeType = HandshakeType.induction then return c
    else if c.handshakeType ≠ HandshakeType.conclusion then return c
    else if c.extensionField = 0 then return c
    else if data.length ≤ 48 then return c
    else if !knownEncryptionField c.encryptionField then
      Go.err ("invalid encryption field value (" ++ toString c.encryptionField ++ ")")
    else do
      let pivot ← orPanic (sliceFrom data 48)
      c.unmarshalExtensions pivot

/-- The fields that `Marshal` overwrites before it writes anything. -/
def prepare (c : CIFHandshake) : Go CIFHandshake :=
  let c := if c.streamId.isEmpty then { c with hasSID := false } else c
  if c.version = 5 then do
    let encryptionField ←
      if c.hasKM then do
        let km ← orPanic c.srtKM
        pure (km.kLen / 8)
      else pure c.encryptionField
    let extensionField :=
      (if c.handshakeType = HandshakeType.conclusion then 0 else c.extensionField) |||
        (if c.hasHS then 1 else 0) ||| (if c.hasKM then 2 else 0) |||
        (if c.hasSID then 4 else 0) ||| (if c.hasCongestionCtl then 4 else 0)
    return { c with encryptionField := encryptionField, extensionField := extensionField }
  else return { c with encryptionField := 0, extensionField := 2 }

/-- The 48 bytes of the fixed fields. -/
def marshalHeader (c : CIFHandshake) : Bytes :=
  be32 c.version ++ (be16 c.encryptionField ++ (be16 c.extensionField ++
    (be32 c.initialPacketSequenceNumber.val ++ (be32 c.maxTransmissionUnitSize ++
      (be32 c.maxFlowWindowSize ++ (be32 c.handshakeType ++ (be32 c.srtSocketId ++
        (be32 c.synCookie ++ c.peerIP.marshal))))))))

/-- The header of an extension and its bytes. The length is a `uint16` number of words. -/
def marshalExtension (extensionType : CtrlSubType) (data : Bytes) : Bytes :=
  be16 extensionType ++ (be16 (UInt16.ofNat (data.length / 4)) ++ data)

/-- A string extension: filled up with zero bytes, and the bytes of each word reversed. -/
def marshalString (extensionType : CtrlSubType) (s : Bytes) : Go Bytes := do
  let data ← orPanic (swapWords ((padZeros s).length / 4) (padZeros s))
  return marshalExtension extensionType data

/-- The name of the congestion control that is never sent. -/
def live : Bytes := [0x6C, 0x69, 0x76, 0x65]

/-- The handshake extension, if the message has it. -/
def marshalHS (c : CIFHandshake) : Go Bytes :=
  if c.hasHS then do
    let hs ← orPanic c.srtHS
    return marshalExtension (if c.isRequest then CtrlSubType.hsreq else CtrlSubType.hsrsp)
      hs.marshal
  else return []

/-- The key material, if the message has it. -/
def marshalKM (c : CIFHandshake) : Go Bytes :=
  if c.hasKM then do
    let km ← orPanic c.srtKM
    let data ← km.marshal
    return marshalExtension (if c.isRequest then CtrlSubType.kmreq else CtrlSubType.kmrsp) data
  else return []

/-- The stream id, if the message has it. -/
def marshalSID (c : CIFHandshake) : Go Bytes :=
  if c.hasSID then marshalString CtrlSubType.sid c.streamId else return []

/-- The congestion control, if the message has it. -/
def marshalCongestion (c : CIFHandshake) : Go Bytes :=
  if c.hasCongestionCtl ∧ c.congestionCtl ≠ live then
    marshalString CtrlSubType.congestion c.congestionCtl
  else return []

/-- `Marshal`. -/
def marshal (c : CIFHandshake) : Go Bytes := do
  let c ← c.prepare
  let hs ← c.marshalHS
  let km ← c.marshalKM
  let sid ← c.marshalSID
  let congestion ← c.marshalCongestion
  return c.marshalHeader ++ (hs ++ (km ++ (sid ++ congestion)))

/-- `p.UnmarshalCIF(cif)` into a fresh value: nothing happens for a packet that is not a
control packet. -/
def ofPacket (p : Packet) : Go CIFHandshake :=
  if p.header.isControlPacket then unmarshal {} p.payload else .ok {}

end CIFHandshake

end Gosrt
