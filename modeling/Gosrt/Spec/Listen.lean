import Mathlib.Data.List.AList
import Gosrt.Spec.Connection
import Gosrt.Spec.Handshake

/-!
# `Gosrt.Spec.Listen`: the listener's side (`listen.go`, `conn_request.go`, `net/syncookie.go`)

A listener answers an INDUCTION with a cookie. A CONCLUSION that brings the cookie back
becomes a request, which the application accepts or rejects. The two maps of the listener
hold the connections by their own and by their peer's socket id. A socket id without a
connection belongs to a request that is not resolved.

The maps are association lists. `lookup` gives `some none` for a reserved id, which is the
`nil` connection in the map of the source.

A request is a pointer in the source, so the operations return the request as they leave it.
The packets handed to `ln.send` are outputs. The clock and the random draws are inputs.
-/

set_option autoImplicit false

namespace Gosrt

open Lib

/-! ### The cookie -/

/-- `SYNCookie`, less its clock. -/
structure SYNCookie where
  secret1 : Bytes
  secret2 : Bytes
  daddr : Bytes
  deriving DecidableEq, Repr

namespace SYNCookie

/-- `calculate`: the first word of an MD5 sum. -/
def calculate (prim : Primitives) (s : SYNCookie) (counter : Int) (saddr : String) : UInt32 :=
  let data := s.secret1 ++ s.daddr ++ saddr.toUTF8.toList ++ s.secret2 ++
    (toString counter).toUTF8.toList
  (uint32 (prim.md5 data) 0).getD 0

/-- `Get`, at the time `counter`. -/
def get (prim : Primitives) (s : SYNCookie) (counter : Int) (saddr : String) : UInt32 :=
  s.calculate prim counter saddr

/-- `Verify`: the cookie is the current one or the one before. -/
def verify (prim : Primitives) (s : SYNCookie) (counter : Int) (cookie : UInt32)
    (saddr : String) : Bool :=
  s.calculate prim counter saddr == cookie || s.calculate prim (counter - 1) saddr == cookie

end SYNCookie

/-! ### Rejection reasons -/

/-- `RejectionReason`. It becomes the handshake type of the answer. -/
abbrev RejectionReason := UInt32

namespace RejectionReason

def rogue : RejectionReason := 1004
def version : RejectionReason := 1008
def badSecret : RejectionReason := 1010
def messageAPI : RejectionReason := 1012
def congestion : RejectionReason := 1013

end RejectionReason

/-! ### The listener -/

/-- A map from socket ids to connections. -/
abbrev ConnMap := AList fun _ : UInt32 => Option SrtConn

/-- The part of `listener` that the handshake uses. `ip` is the address in `addr`, as
`FromNetAddr` finds it. -/
structure Listener where
  addr : String
  ip : IP
  config : Config
  syncookie : SYNCookie
  conns : ConnMap
  connsByPeer : ConnMap

/-- `connRequest`, less the listener and the start time. -/
structure ConnRequest where
  addr : Option String
  localAddr : Option String
  socketId : UInt32
  peerSocketId : UInt32
  timestamp : UInt32
  config : Config
  handshake : CIFHandshake
  crypto : Option Crypto
  passphrase : Bytes
  deriving DecidableEq, Repr

/-- The inputs of `newConnRequest` besides the packet. -/
structure Arrival where
  /-- The time since the start of the listener, in microseconds. -/
  timestamp : UInt32
  /-- The clock of the cookie. -/
  counter : Int
  draws : Draws
  /-- The draws of the socket id. -/
  socketIds : List (Option UInt32)
  deriving DecidableEq, Repr

namespace Listener

/-- The state of a listener after `Listen`. -/
def new (config : Config) (addr : String) (ip : IP) (secret1 secret2 : Bytes) : Listener where
  addr := addr
  ip := ip
  config := config
  syncookie := { secret1 := secret1, secret2 := secret2, daddr := addr.toUTF8.toList }
  conns := ∅
  connsByPeer := ∅

/-- The received packet with the header of an answer. -/
def answer (p : Packet) (peerSocketId timestamp : UInt32) : Packet :=
  { p with header := { p.header with
      controlType := CtrlType.handshake
      subType := 0
      typeSpecific := 0
      timestamp := timestamp
      destinationSocketId := peerSocketId } }

/-- `p.MarshalCIF(cif)`: the message as `Marshal` leaves it, and the packet. -/
def marshalCIF (p : Packet) (cif : CIFHandshake) : Go (CIFHandshake × Packet) := do
  let data ← cif.marshal
  let cif ← cif.prepare
  return (cif, { p with payload := data })

/-- The answer to a CONCLUSION that the listener does not take, after the packets `sent`. The
source answers with the received packet. `ln.send` calls `Decommission` on it, which gives its
payload back to the pool. A second answer therefore panics: `MarshalCIF` resets a payload that is
`nil`. -/
def refuse (ln : Listener) (sent : List Packet) (p : Packet) (cif : CIFHandshake)
    (reason : RejectionReason) : Go (Listener × Option ConnRequest × List Packet) :=
  if sent.isEmpty then do
    let (_, q) ← marshalCIF p { cif with handshakeType := reason }
    return (ln, none, [q])
  else .error .panic

/-- `newConnRequest` of an INDUCTION. -/
def answerInduction (prim : Primitives) (ln : Listener) (p : Packet) (cif : CIFHandshake)
    (counter : Int) : Go (Listener × Option ConnRequest × List Packet) := do
  let saddr ← orPanic p.header.addr
  let (_, q) ← marshalCIF p
    { cif with
      version := 5
      encryptionField := 0
      extensionField := 0x4A17
      synCookie := ln.syncookie.get prim counter saddr }
  return (ln, none, [q])

/-- What is wrong with the version or the extensions of a CONCLUSION. -/
def checkVersion (config : Config) (cif : CIFHandshake) : Option RejectionReason :=
  if cif.version = 4 then
    if cif.encryptionField ≠ 0 ∨ cif.extensionField ≠ 2 then some RejectionReason.rogue else none
  else if cif.version = 5 then
    match cif.srtHS with
    | none => some RejectionReason.rogue
    | some hs =>
      if hs.srtVersion < config.minVersion then some RejectionReason.version
      else if !hs.srtFlags.agrees then some RejectionReason.rogue
      else if hs.srtFlags.stream then some RejectionReason.messageAPI
      else if cif.hasCongestionCtl ∧ cif.congestionCtl ≠ CIFHandshake.live then
        some RejectionReason.congestion
      else none
  else some RejectionReason.rogue

/-- The loop of `generateSocketId`: the first draw that is not in use, among at most
`tries`. -/
def generateSocketId (conns : ConnMap) : Nat → List (Option UInt32) → Option UInt32
  | tries + 1, some socketId :: draws =>
    if (conns.lookup socketId).isNone then some socketId
    else generateSocketId conns tries draws
  | _, _ => none

/-- The crypto context of a request: `none` is the error of `crypto.New`. -/
def requestCrypto (cif : CIFHandshake) (draws : Draws) : Option (Option Crypto) :=
  match cif.srtKM with
  | none => some none
  | some km =>
    (Crypto.new km.kLen.toNat draws.salt draws.even draws.odd).toOption.map some

/-- The end of `newConnRequest`: the ids are reserved. A peer that is known already is
ignored. When no socket id can be found, the id of the peer stays reserved. -/
def register (ln : Listener) (sent : List Packet) (req : ConnRequest)
    (socketIds : List (Option UInt32)) : Listener × Option ConnRequest × List Packet :=
  if (ln.connsByPeer.lookup req.peerSocketId).isSome then (ln, none, sent)
  else
    let reserved := { ln with connsByPeer := ln.connsByPeer.insert req.peerSocketId none }
    match generateSocketId ln.conns 10 socketIds with
    | none => (reserved, none, sent)
    | some socketId =>
      ({ reserved with conns := ln.conns.insert socketId none },
        some { req with socketId := socketId }, sent)

/-- The check of the MTU size: the message afterwards, and the packets sent. A size that is too
small is answered with a rejection, but the source goes on after it. The request that it then
makes reads the header of the packet only, which `Decommission` leaves alone. -/
def checkSize (ln : Listener) (p : Packet) (cif : CIFHandshake) :
    Go (CIFHandshake × List Packet) :=
  if ln.config.mssTooSmall cif.maxTransmissionUnitSize then do
    let (cif, q) ← marshalCIF p { cif with handshakeType := RejectionReason.rogue }
    return (cif, [q])
  else return (cif, [])

/-- The checks after the MTU size, and the request. -/
def admission (ln : Listener) (config : Config) (p : Packet) (cif : CIFHandshake)
    (sent : List Packet) (a : Arrival) : Go (Listener × Option ConnRequest × List Packet) :=
  match checkVersion config cif with
  | some reason => ln.refuse sent p cif reason
  | none =>
    match requestCrypto cif a.draws with
    | none => ln.refuse sent p cif RejectionReason.rogue
    | some crypto =>
      return ln.register sent
        { addr := p.header.addr
          localAddr := p.header.localAddr
          socketId := 0
          peerSocketId := cif.srtSocketId
          timestamp := p.header.timestamp
          config := config
          handshake := cif
          crypto := crypto
          passphrase := [] }
        a.socketIds

/-- `newConnRequest` of a CONCLUSION. -/
def request (prim : Primitives) (ln : Listener) (p : Packet) (cif : CIFHandshake) (a : Arrival) :
    Go (Listener × Option ConnRequest × List Packet) := do
  let saddr ← orPanic p.header.addr
  if !ln.syncookie.verify prim a.counter cif.synCookie saddr then
    ln.refuse [] p cif RejectionReason.rogue
  else if cif.maxTransmissionUnitSize > maxMSSSize then
    ln.refuse [] p cif RejectionReason.rogue
  else do
    let config := ln.config.adjustMSS cif.maxTransmissionUnitSize
    let (cif, sent) ← ln.checkSize p cif
    ln.admission config p cif sent a

/-- `newConnRequest`: the listener and the request afterwards, and the packets sent. -/
def newConnRequest (prim : Primitives) (ln : Listener) (p : Packet) (a : Arrival) :
    Go (Listener × Option ConnRequest × List Packet) :=
  match CIFHandshake.ofPacket p with
  | .error .panic => .error .panic
  | .error (.error _) => .ok (ln, none, [])
  | .ok cif =>
    let p := answer p cif.srtSocketId a.timestamp
    let cif := { cif with peerIP := ln.ip }
    if cif.handshakeType = HandshakeType.induction then
      ln.answerInduction prim p cif a.counter
    else if cif.handshakeType = HandshakeType.conclusion then ln.request prim p cif a
    else .ok (ln, none, [])

/-- `handleShutdown` of a connection. -/
def handleShutdown (ln : Listener) (socketId peerSocketId : UInt32) : Listener :=
  { ln with
    conns := ln.conns.erase socketId
    connsByPeer := ln.connsByPeer.erase peerSocketId }

/-- The handshake packets that `reader` puts into the backlog. -/
def reads (p : Packet) : Bool :=
  p.header.destinationSocketId == 0 && p.header.isControlPacket &&
    p.header.controlType == CtrlType.handshake

end Listener

namespace ConnRequest

/-- A handshake packet for the peer of a request. -/
def handshakePacket (req : ConnRequest) (timestamp : UInt32) : Packet :=
  let p := newPacket req.addr
  { p with header := { p.header with
      localAddr := req.localAddr
      isControlPacket := true
      controlType := CtrlType.handshake
      subType := 0
      typeSpecific := 0
      timestamp := timestamp
      destinationSocketId := req.peerSocketId } }

/-- `SetPassphrase`: the request afterwards, and the returned error. A version 4 request takes
any passphrase. -/
def setPassphrase (prim : Primitives) (req : ConnRequest) (passphrase : Bytes) :
    ConnRequest × Go Unit :=
  if req.handshake.version = 5 then
    match req.crypto, req.handshake.srtKM with
    | none, _ => (req, Go.err "listen: request without encryption")
    | some _, none => (req, .error .panic)
    | some cr, some km =>
      match cr.unmarshalKM prim km passphrase with
      | (cr, .ok ()) => ({ req with crypto := some cr, passphrase := passphrase }, .ok ())
      | (cr, .error e) => ({ req with crypto := some cr }, .error e)
  else ({ req with passphrase := passphrase }, .ok ())

/-- `Reject`. A request that is resolved already is left alone. -/
def reject (ln : Listener) (req : ConnRequest) (reason : RejectionReason) (timestamp : UInt32) :
    Go (Listener × ConnRequest × List Packet) :=
  match ln.connsByPeer.lookup req.peerSocketId with
  | some none => do
    let (handshake, p) ← Listener.marshalCIF (req.handshakePacket timestamp)
      { req.handshake with handshakeType := reason }
    return (ln.handleShutdown req.socketId req.peerSocketId,
      { req with handshake := handshake }, [p])
  | _ => .ok (ln, req, [])

/-- The receive and the send delay: the larger one of the configured delay and the one that
the caller advertises for the other direction. -/
def delays (req : ConnRequest) : Go (UInt16 × UInt16) :=
  let recv := req.config.receiverLatency.ms16
  let send := req.config.peerLatency.ms16
  if req.handshake.version = 5 then do
    let hs ← orPanic req.handshake.srtHS
    return (if hs.sendTSBPDDelay > recv then hs.sendTSBPDDelay else recv,
      if hs.recvTSBPDDelay > send then hs.recvTSBPDDelay else send)
  else return (recv, send)

/-- The configuration of the connection. -/
def connConfig (req : ConnRequest) : Config :=
  { req.config with
    streamId :=
      if req.handshake.version = 5 then req.handshake.streamId else req.config.streamId
    passphrase := req.passphrase }

/-- The connection that `Accept` makes. -/
def newConn (ln : Listener) (req : ConnRequest) (recvTsbpdDelay sendTsbpdDelay : UInt16) :
    SrtConn :=
  newSRTConn
    { version := req.handshake.version
      isCaller := false
      localAddr := some (req.localAddr.getD ln.addr)
      remoteAddr := req.addr
      config := req.connConfig
      socketId := req.socketId
      peerSocketId := req.peerSocketId
      tsbpdTimeBase := req.timestamp.toUInt64
      tsbpdDelay := recvTsbpdDelay.toUInt64 * 1000
      peerTsbpdDelay := sendTsbpdDelay.toUInt64 * 1000
      initialPacketSequenceNumber := req.handshake.initialPacketSequenceNumber
      crypto := req.crypto
      keyBaseEncryption := .evenKeyEncrypted }

/-- The message with which `Accept` answers the CONCLUSION. -/
def acceptCIF (req : ConnRequest) (recvTsbpdDelay sendTsbpdDelay : UInt16) : CIFHandshake :=
  { req.handshake with
    srtSocketId := req.socketId
    synCookie := 0
    srtHS :=
      if req.handshake.version = 5 then
        req.handshake.srtHS.map fun _ =>
          { srtVersion := srtVersion
            srtFlags := CIFHandshakeExtensionFlags.own
            recvTSBPDDelay := recvTsbpdDelay
            sendTSBPDDelay := sendTsbpdDelay }
      else req.handshake.srtHS }

/-- `Accept`: the listener and the request afterwards, the connection or the text of the
error, and the packets sent. -/
def accept (ln : Listener) (req : ConnRequest) (timestamp : UInt32) :
    Go (Listener × ConnRequest × Except String SrtConn × List Packet) :=
  if req.crypto.isSome && req.passphrase.isEmpty then do
    let (ln, req, sent) ← reject ln req RejectionReason.badSecret timestamp
    return (ln, req, .error "passphrase is missing", sent)
  else
    match ln.connsByPeer.lookup req.peerSocketId with
    | some none => do
      let (recvTsbpdDelay, sendTsbpdDelay) ← req.delays
      let conn := req.newConn ln recvTsbpdDelay sendTsbpdDelay
      let (handshake, p) ← Listener.marshalCIF (req.handshakePacket timestamp)
        (req.acceptCIF recvTsbpdDelay sendTsbpdDelay)
      return ({ ln with
          conns := ln.conns.insert req.socketId (some conn)
          connsByPeer := ln.connsByPeer.insert req.peerSocketId (some conn) },
        { req with config := req.connConfig, handshake := handshake }, .ok conn, [p])
    | _ => .ok (ln, req, .error "connection already accepted", [])

end ConnRequest

end Gosrt
