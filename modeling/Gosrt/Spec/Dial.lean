import Gosrt.Spec.Connection
import Gosrt.Spec.Handshake

/-!
# `Gosrt.Spec.Dial`: the caller's side of the handshake (`dial.go`)

A dialer sends an INDUCTION, answers the listener's INDUCTION with a CONCLUSION, and makes a
connection from the listener's CONCLUSION. `handleHandshake` is the handler for all of them.
It keeps no record of what it handled before, apart from the crypto context that an INDUCTION
creates and a CONCLUSION uses.

The handler sends packets and writes to `connChan`. Both are outputs, in their order.
`DialWithContext` reads the channel once. A write to a full channel blocks the reader; the
model lets the handler go on, so the outputs are all the writes that it tries.

The clock and the random draws are inputs. Left out are the goroutines with their queues and
deadlines.
-/

set_option autoImplicit false

namespace Gosrt

open Lib

/-- The part of `dialer` that the handshake uses. `localIP` is the address in `localAddr`, as
`FromNetAddr` finds it. -/
structure Dialer where
  version : UInt32
  localAddr : Option String
  localIP : IP
  remoteAddr : Option String
  config : Config
  socketId : UInt32
  initialPacketSequenceNumber : Number
  crypto : Option Crypto
  deriving DecidableEq, Repr

namespace Dialer

/-- What the dialer does besides changing its state. -/
inductive Output where
  /-- A packet for the wire. -/
  | send (p : Packet)
  /-- A `connResponse` on `connChan`: a connection, or the text of an error. -/
  | respond (response : Except String SrtConn)
  deriving DecidableEq, Repr

/-- An error on `connChan`. -/
def fail (message : String) : Output := .respond (.error message)

/-- The state of a dialer when `DialWithContext` has its socket and its random numbers. -/
def new (config : Config) (localAddr remoteAddr : Option String) (localIP : IP)
    (socketId seqNum : UInt32) : Dialer where
  version := 0
  localAddr := localAddr
  localIP := localIP
  remoteAddr := remoteAddr
  config := config
  socketId := socketId
  initialPacketSequenceNumber := Number.new (seqNum &&& maxSequenceNumber) maxSequenceNumber
  crypto := none

/-! ### Packets -/

/-- A handshake packet made by `NewPacket`. -/
def handshakePacket (dl : Dialer) (timestamp : UInt32) : Packet :=
  let p := newPacket dl.remoteAddr
  { p with header := { p.header with
      isControlPacket := true
      controlType := CtrlType.handshake
      subType := 0
      typeSpecific := 0
      timestamp := timestamp
      destinationSocketId := 0 } }

/-- The message that `sendInduction` sends. -/
def inductionCIF (dl : Dialer) : CIFHandshake where
  isRequest := true
  version := 4
  encryptionField := 0
  extensionField := 2
  initialPacketSequenceNumber := Number.new 0 maxSequenceNumber
  maxTransmissionUnitSize := dl.config.mss
  maxFlowWindowSize := dl.config.fc
  handshakeType := HandshakeType.induction
  srtSocketId := dl.socketId
  synCookie := 0
  peerIP := dl.localIP

/-- `sendInduction`. -/
def sendInduction (dl : Dialer) (timestamp : UInt32) : Go Packet := do
  let data ← dl.inductionCIF.marshal
  return { dl.handshakePacket timestamp with payload := data }

/-- `sendShutdown`. -/
def sendShutdown (dl : Dialer) (peerSocketId timestamp : UInt32) : Output :=
  let p := newPacket dl.remoteAddr
  .send
    { header := { p.header with
        isControlPacket := true
        controlType := CtrlType.shutdown
        typeSpecific := 0
        timestamp := timestamp
        destinationSocketId := peerSocketId }
      payload := be32 0 }

/-- The received packet with the header of an answer. -/
def answer (p : Packet) (timestamp : UInt32) : Packet :=
  { p with header := { p.header with
      controlType := CtrlType.handshake
      subType := 0
      typeSpecific := 0
      timestamp := timestamp
      destinationSocketId := 0 } }

/-! ### INDUCTION -/

/-- The error for a handshake version other than 4 and 5. -/
def unsupportedVersion (version : UInt32) : String :=
  "peer responded with unsupported handshake version (" ++ toString version ++ ")"

/-- The key length: the one that the listener advertises, or else the configured one. -/
def keylen (pbKeylen : Int) (encryptionField : UInt16) : Int :=
  if encryptionField = 2 then 16
  else if encryptionField = 3 then 24
  else if encryptionField = 4 then 32
  else pbKeylen

/-- `crypto.New` for an INDUCTION. -/
def newCrypto (pbKeylen : Int) (encryptionField : UInt16) (draws : Draws) : Go Crypto :=
  Crypto.new (keylen pbKeylen encryptionField) draws.salt draws.even draws.odd

/-- The crypto context of a dialer with a passphrase. After an error of `crypto.New` the
source goes on, without a context. -/
def setupCrypto (dl : Dialer) (encryptionField : UInt16) (draws : Draws) :
    Dialer × List Output :=
  if dl.config.passphrase.isEmpty then (dl, [])
  else
    match newCrypto dl.config.pbKeylen encryptionField draws with
    | .ok cr => ({ dl with crypto := some cr }, [])
    | .error e =>
      ({ dl with crypto := none }, [fail ("failed creating crypto context: " ++ e.text)])

/-- The fields of the CONCLUSION that replace those of the received INDUCTION. -/
def conclusionCIF (dl : Dialer) (cif : CIFHandshake) : CIFHandshake :=
  { cif with
    isRequest := true
    handshakeType := HandshakeType.conclusion
    initialPacketSequenceNumber := dl.initialPacketSequenceNumber
    maxTransmissionUnitSize := dl.config.mss
    maxFlowWindowSize := dl.config.fc
    srtSocketId := dl.socketId
    peerIP := dl.localIP }

/-- The handshake extension and the stream id of a version 5 CONCLUSION. -/
def withExtensions (dl : Dialer) (cif : CIFHandshake) : CIFHandshake :=
  { cif with
    hasHS := true
    srtHS := some
      { srtVersion := srtVersion
        srtFlags := CIFHandshakeExtensionFlags.own
        recvTSBPDDelay := dl.config.receiverLatency.ms16
        sendTSBPDDelay := dl.config.peerLatency.ms16 }
    hasSID := true
    streamId := dl.config.streamId }

/-- The key material of a version 5 CONCLUSION. -/
def withKeyMaterial (prim : Primitives) (dl : Dialer) (cif : CIFHandshake) : Go CIFHandshake :=
  match dl.crypto with
  | none => .ok cif
  | some cr =>
    match cr.marshalKM prim {} dl.config.passphrase .evenKeyEncrypted with
    | (km, .ok ()) => .ok { cif with hasKM := true, srtKM := some km }
    | (_, .error e) => .error e

/-- A version 4 CONCLUSION has no extensions. -/
def withoutExtensions (cif : CIFHandshake) : CIFHandshake :=
  { cif with
    encryptionField := 0
    extensionField := 2
    hasHS := false
    hasKM := false
    hasSID := false }

/-- `p.MarshalCIF(cif)` and `dl.send(p)`. -/
def sendCIF (dl : Dialer) (outputs : List Output) (p : Packet) (cif : CIFHandshake) :
    Go (Dialer × List Output) := do
  let data ← cif.marshal
  return (dl, outputs ++ [.send { p with payload := data }])

/-- `handleHandshake` of an INDUCTION. -/
def handleInduction (prim : Primitives) (dl : Dialer) (p : Packet) (cif : CIFHandshake)
    (draws : Draws) : Go (Dialer × List Output) :=
  if cif.version < 4 ∨ cif.version > 5 then
    .ok (dl, [fail (unsupportedVersion cif.version)])
  else
    let concluding := dl.conclusionCIF cif
    let (dl, outputs) := dl.setupCrypto cif.encryptionField draws
    if cif.version = 5 then
      let dl := { dl with version := 5 }
      if cif.extensionField ≠ 0x4A17 then
        .ok (dl, outputs ++ [fail "peer sent the wrong magic number"])
      else
        match dl.withKeyMaterial prim (dl.withExtensions concluding) with
        | .ok cif => dl.sendCIF outputs p cif
        | .error .panic => .error .panic
        | .error (.error message) => .ok (dl, outputs ++ [fail message])
    else { dl with version := 4 }.sendCIF outputs p (withoutExtensions concluding)

/-! ### CONCLUSION -/

/-- What is wrong with the handshake extension of a CONCLUSION, and whether the peer is told
with a shutdown. -/
def checkExtension (config : Config) (cif : CIFHandshake) : Option (Bool × String) :=
  if cif.version = 5 then
    match cif.srtHS with
    | none => some (false, "missing handshake extension")
    | some hs =>
      if hs.srtVersion < config.minVersion then some (true, "peer SRT version is not sufficient")
      else if !hs.srtFlags.agrees then some (true, "peer doesn't agree on SRT flags")
      else if hs.srtFlags.stream then some (true, "peer doesn't support live streaming")
      else none
  else none

/-- The error for an MTU size that leaves too little for the payload. -/
def effectiveMSSTooSmall (mss : UInt32) : String :=
  "effective MSS too small (" ++ toString mss ++ " bytes) to fit the minimal payload size (" ++
    toString minPayloadSize ++ " bytes)"

/-- The receive and the send delay: the larger one of the configured delay and the one that
the listener advertises for the other direction. -/
def delays (config : Config) (cif : CIFHandshake) : UInt16 × UInt16 :=
  let recv := config.receiverLatency.ms16
  let send := config.peerLatency.ms16
  match cif.srtHS with
  | some hs =>
    if cif.version = 5 then
      (if hs.sendTSBPDDelay > recv then hs.sendTSBPDDelay else recv,
        if hs.recvTSBPDDelay > send then hs.recvTSBPDDelay else send)
    else (recv, send)
  | none => (recv, send)

/-- The connection that a CONCLUSION makes. -/
def newConn (dl : Dialer) (cif : CIFHandshake) (now : UInt64) : SrtConn :=
  let (recvTsbpdDelay, sendTsbpdDelay) := delays dl.config cif
  newSRTConn
    { version := cif.version
      isCaller := true
      localAddr := dl.localAddr
      remoteAddr := dl.remoteAddr
      config := dl.config
      socketId := dl.socketId
      peerSocketId := cif.srtSocketId
      tsbpdTimeBase := now
      tsbpdDelay := recvTsbpdDelay.toUInt64 * 1000
      peerTsbpdDelay := sendTsbpdDelay.toUInt64 * 1000
      initialPacketSequenceNumber := cif.initialPacketSequenceNumber
      crypto := dl.crypto
      keyBaseEncryption := .evenKeyEncrypted }

/-- `handleHandshake` of a CONCLUSION. -/
def handleConclusion (dl : Dialer) (cif : CIFHandshake) (now : UInt64) :
    Dialer × List Output :=
  if cif.version < 4 ∨ cif.version > 5 then (dl, [fail (unsupportedVersion cif.version)])
  else
    match checkExtension dl.config cif with
    | some (true, message) =>
      (dl, [dl.sendShutdown cif.srtSocketId now.toUInt32, fail message])
    | some (false, message) => (dl, [fail message])
    | none =>
      let tooSmall := dl.config.mssTooSmall cif.maxTransmissionUnitSize
      let dl := { dl with config := dl.config.adjustMSS cif.maxTransmissionUnitSize }
      if tooSmall then
        (dl, [dl.sendShutdown cif.srtSocketId now.toUInt32,
          fail (effectiveMSSTooSmall dl.config.mss)])
      else (dl, [.respond (.ok (dl.newConn cif now))])

/-! ### The handler -/

/-- The answer to any other handshake. -/
def unexpected (handshakeType : HandshakeType) : String :=
  (if handshakeType.isRejection then "connection rejected: " else "unsupported handshake: ") ++
    handshakeType.string

/-- `handleHandshake`. -/
def handleHandshake (prim : Primitives) (dl : Dialer) (p : Packet) (draws : Draws)
    (now : UInt64) : Go (Dialer × List Output) :=
  match CIFHandshake.ofPacket p with
  | .error .panic => .error .panic
  | .error (.error _) => .ok (dl, [])
  | .ok cif =>
    if cif.handshakeType = HandshakeType.induction then
      dl.handleInduction prim (answer p now.toUInt32) cif draws
    else if cif.handshakeType = HandshakeType.conclusion then .ok (dl.handleConclusion cif now)
    else .ok (dl, [fail (unexpected cif.handshakeType)])

/-- The handshake packets that `reader` gives to the handler. -/
def reads (dl : Dialer) (p : Packet) : Bool :=
  p.header.isControlPacket && p.header.controlType == CtrlType.handshake &&
    (p.header.destinationSocketId == dl.socketId || p.header.destinationSocketId == 0)

end Dialer

/-! ### Runs of a dialer -/

/-- A dialer, the handshake packets that it handled, and what it wrote to `connChan`. -/
structure Dialing where
  dialer : Dialer
  heard : List (Packet × Draws)
  responses : List (Except String SrtConn)
  deriving DecidableEq, Repr

namespace Dialing

/-- A handshake packet arrives. -/
structure Event where
  packet : Packet
  draws : Draws
  now : UInt64
  deriving DecidableEq, Repr

def init (dl : Dialer) : Dialing where
  dialer := dl
  heard := []
  responses := []

/-- What an output writes to `connChan`. -/
def response : Dialer.Output → Option (Except String SrtConn)
  | .respond r => some r
  | .send _ => none

/-- One packet is handled. A panic ends the run. -/
def step (prim : Primitives) (s : Dialing) (e : Event) : Option Dialing :=
  match s.dialer.handleHandshake prim e.packet e.draws e.now with
  | .ok (dl, outputs) =>
    some
      { dialer := dl
        heard := s.heard ++ [(e.packet, e.draws)]
        responses := s.responses ++ outputs.filterMap response }
  | .error _ => none

/-- The connections that were created. -/
def conns (s : Dialing) : List SrtConn := s.responses.filterMap Except.toOption

/-- The version 4 and 5 INDUCTION in a packet. -/
def induction? (p : Packet) : Option CIFHandshake :=
  match CIFHandshake.ofPacket p with
  | .ok cif =>
    if cif.handshakeType = HandshakeType.induction ∧ (cif.version = 4 ∨ cif.version = 5) then
      some cif
    else none
  | .error _ => none

/-- The last version 4 or 5 INDUCTION among the packets is one for which `crypto.New`
succeeded. -/
def keyed (pbKeylen : Int) (heard : List (Packet × Draws)) : Bool :=
  heard.foldl
    (fun before e =>
      match induction? e.1 with
      | some cif => (Dialer.newCrypto pbKeylen cif.encryptionField e.2).toOption.isSome
      | none => before)
    false

/-- The packet is a CONCLUSION that passes the checks. -/
def Concludes (config : Config) (p : Packet) : Prop :=
  ∃ cif, CIFHandshake.ofPacket p = .ok cif ∧
    cif.handshakeType = HandshakeType.conclusion ∧ (cif.version = 4 ∨ cif.version = 5) ∧
    Dialer.checkExtension config cif = none ∧
    config.mssTooSmall cif.maxTransmissionUnitSize = false

/-- A CONCLUSION comes after an INDUCTION that created a crypto context. -/
def InOrder (s : Dialing) (e : Event) : Prop :=
  Concludes s.dialer.config e.packet → keyed s.dialer.config.pbKeylen s.heard = true

/-- An INDUCTION that the dialer answers with a CONCLUSION. -/
def Answerable (cif : CIFHandshake) : Prop :=
  cif.handshakeType = HandshakeType.induction ∧
    (cif.version = 4 ∨ (cif.version = 5 ∧ cif.extensionField = 0x4A17))

instance (cif : CIFHandshake) : Decidable (Answerable cif) :=
  inferInstanceAs (Decidable (_ ∧ _))

/-- `crypto.New` fails for a version 4 or 5 INDUCTION, or `MarshalKM` fails for the CONCLUSION
that answers it. -/
def cryptoFails (prim : Primitives) (config : Config) (cif : CIFHandshake) (draws : Draws) :
    Bool :=
  cif.handshakeType == HandshakeType.induction && (cif.version == 4 || cif.version == 5) &&
    !config.passphrase.isEmpty &&
    match Dialer.newCrypto config.pbKeylen cif.encryptionField draws with
    | .error _ => true
    | .ok cr =>
      cif.version == 5 && cif.extensionField == 0x4A17 &&
        (cr.marshalKM prim {} config.passphrase .evenKeyEncrypted).2 != .ok ()

/-- How many reasons a packet gives to write to `connChan`: it decodes and is not an INDUCTION
that the dialer answers, and the crypto context of the dialer fails. -/
def reasons (prim : Primitives) (config : Config) (p : Packet) (draws : Draws) : Nat :=
  match CIFHandshake.ofPacket p with
  | .error _ => 0
  | .ok cif =>
    (if Answerable cif then 0 else 1) + (if cryptoFails prim config cif draws then 1 else 0)

end Dialing

end Gosrt
