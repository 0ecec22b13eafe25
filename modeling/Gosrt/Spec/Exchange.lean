import Gosrt.Spec.Dial
import Gosrt.Spec.Listen

/-!
# `Gosrt.Spec.Exchange`: a caller and a listener over a lossy network

A dialer and a listener exchange handshake packets. The network keeps every packet that was
sent to an end. It may deliver each one at any time, in any order, any number of times, or
never. The application of the listener sets the passphrase of a request, accepts it or rejects
it, whenever it likes and as often as it likes.

The connections that come out of the handshake stay open: the packets between them, a
shutdown among these, are not part of the exchange. A panic of either end ends the run.

The state keeps what the agreement is stated about: the connections of both ends, the
CONCLUSION that each accepted request came from, and the last CONCLUSION of the dialer.
-/

set_option autoImplicit false

namespace Gosrt

open Lib

/-- Both ends, the network and the history. A CONCLUSION is given by its payload. -/
structure Exchange where
  dialer : Dialer
  listener : Listener
  /-- The address at which the listener sees the dialer. -/
  callerAddr : String
  toListener : List Packet
  toDialer : List Packet
  /-- The requests, each with the CONCLUSION that it came from. -/
  requests : List (Bytes × ConnRequest)
  /-- What the dialer wrote to `connChan`. -/
  responses : List (Except String SrtConn)
  /-- The connections of the listener, each with the CONCLUSION that it came from. -/
  accepted : List (Bytes × SrtConn)
  /-- The last CONCLUSION that the dialer sent. -/
  concluded : Option Bytes

namespace Exchange

/-- What the network and the application do. -/
inductive Event where
  /-- The network delivers a packet to the dialer. -/
  | dialerReceives (index : Nat) (draws : Draws) (now : UInt64)
  /-- The network delivers a packet to the listener. -/
  | listenerReceives (index : Nat) (arrival : Arrival)
  /-- The application calls a method of a request. -/
  | setPassphrase (request : Nat) (passphrase : Bytes)
  | accept (request : Nat) (timestamp : UInt32)
  | reject (request : Nat) (reason : RejectionReason) (timestamp : UInt32)
  deriving DecidableEq, Repr

/-- The dialer has sent its INDUCTION. -/
def init (dialer : Dialer) (listener : Listener) (callerAddr : String) (timestamp : UInt32) :
    Exchange where
  dialer := dialer
  listener := listener
  callerAddr := callerAddr
  toListener := (dialer.sendInduction timestamp).toOption.toList
  toDialer := []
  requests := []
  responses := []
  accepted := []
  concluded := none

/-- The packet as the socket of the receiver gives it. -/
def arrives (addr : Option String) (p : Packet) : Packet :=
  { p with header := { p.header with addr := addr, localAddr := none } }

/-- The packets among the outputs of the dialer. -/
def packet? : Dialer.Output → Option Packet
  | .send p => some p
  | .respond _ => none

/-- The payload of the last handshake packet. -/
def lastHandshake (sent : List Packet) : Option Bytes :=
  (sent.filter (·.header.controlType == CtrlType.handshake)).getLast?.map (·.payload)

/-- The dialer handles a packet. -/
def dialerReceives (prim : Primitives) (s : Exchange) (p : Packet) (draws : Draws)
    (now : UInt64) : Option Exchange :=
  if s.dialer.reads p then do
    let (dialer, outputs) ← (s.dialer.handleHandshake prim p draws now).toOption
    let sent := outputs.filterMap packet?
    return { s with
      dialer := dialer
      toListener := s.toListener ++ sent
      responses := s.responses ++ outputs.filterMap Dialing.response
      concluded := (lastHandshake sent).or s.concluded }
  else return s

/-- The listener handles a packet. -/
def listenerReceives (prim : Primitives) (s : Exchange) (p : Packet) (arrival : Arrival) :
    Option Exchange :=
  if Listener.reads p then do
    let (listener, request, sent) ← (s.listener.newConnRequest prim p arrival).toOption
    return { s with
      listener := listener
      toDialer := s.toDialer ++ sent
      requests := s.requests ++ (request.map (p.payload, ·)).toList }
  else return s

/-- A rejection has to be one: the values of the handshake types are not reasons. -/
def step (prim : Primitives) (s : Exchange) : Event → Option Exchange
  | .dialerReceives index draws now => do
    let p ← s.toDialer[index]?
    s.dialerReceives prim (arrives s.dialer.remoteAddr p) draws now
  | .listenerReceives index arrival => do
    let p ← s.toListener[index]?
    s.listenerReceives prim (arrives (some s.callerAddr) p) arrival
  | .setPassphrase request passphrase => do
    let (payload, req) ← s.requests[request]?
    match req.setPassphrase prim passphrase with
    | (_, .error .panic) => none
    | (req, _) => return { s with requests := s.requests.set request (payload, req) }
  | .accept request timestamp => do
    let (payload, req) ← s.requests[request]?
    let (listener, req, conn, sent) ← (ConnRequest.accept s.listener req timestamp).toOption
    return { s with
      listener := listener
      toDialer := s.toDialer ++ sent
      requests := s.requests.set request (payload, req)
      accepted := s.accepted ++ (conn.toOption.map (payload, ·)).toList }
  | .reject request reason timestamp =>
    if HandshakeType.isRejection reason then do
      let (payload, req) ← s.requests[request]?
      let (listener, req, sent) ← (ConnRequest.reject s.listener req reason timestamp).toOption
      return { s with
        listener := listener
        toDialer := s.toDialer ++ sent
        requests := s.requests.set request (payload, req) }
    else none

/-- The connections that the dialer made. -/
def conns (s : Exchange) : List SrtConn := s.responses.filterMap Except.toOption

/-! ### What the two ends agree on -/

/-- Both ends are encrypted, with the same salt and the same even SEK. -/
def SameKey (a b : Option Crypto) : Prop :=
  match a, b with
  | some c, some d => c.salt = d.salt ∧ c.evenSEK = d.evenSEK
  | _, _ => False

instance (a b : Option Crypto) : Decidable (SameKey a b) :=
  match a, b with
  | some _, some _ => inferInstanceAs (Decidable (_ ∧ _))
  | some _, none | none, some _ | none, none => inferInstanceAs (Decidable False)

/-- Every connection of the dialer has the key of every connection of the listener. -/
def KeysAgree (s : Exchange) : Prop :=
  ∀ a ∈ s.accepted, ∀ conn ∈ s.conns, SameKey a.2.crypto conn.crypto

instance (s : Exchange) : Decidable s.KeysAgree :=
  inferInstanceAs (Decidable (∀ a ∈ s.accepted, ∀ conn ∈ s.conns, SameKey a.2.crypto conn.crypto))

/-- The dialer handles an INDUCTION: `crypto.New` succeeds. The dialer handles a CONCLUSION:
what the listener accepted is the last CONCLUSION that the dialer sent. -/
def Heeds (s : Exchange) (p : Packet) (draws : Draws) : Prop :=
  match CIFHandshake.ofPacket p with
  | .ok cif =>
    (cif.handshakeType = HandshakeType.induction →
      (Dialer.newCrypto s.dialer.config.pbKeylen cif.encryptionField draws).toOption.isSome
        = true) ∧
    (cif.handshakeType = HandshakeType.conclusion →
      ∀ a ∈ s.accepted, s.concluded = some a.1)
  | .error _ => True

instance (s : Exchange) (p : Packet) (draws : Draws) : Decidable (s.Heeds p draws) := by
  unfold Heeds
  split <;> infer_instance

/-- The CONCLUSION that the listener accepts is the last one of the dialer whenever the dialer
gets the answer, and the application uses the passphrase of the dialer. -/
def InStep (s : Exchange) : Event → Prop
  | .dialerReceives index draws _ =>
    match s.toDialer[index]? with
    | some p => s.Heeds p draws
    | none => True
  | .setPassphrase _ passphrase => passphrase = s.dialer.config.passphrase
  | _ => True

instance (s : Exchange) (e : Event) : Decidable (s.InStep e) := by
  unfold InStep
  split
  · split <;> infer_instance
  · infer_instance
  · infer_instance

/-- The delay of a connection in microseconds: the larger one of the receiver's latency and
the latency that its peer asks for. -/
def agreedDelay (receiver sender : Config) : UInt64 :=
  (max receiver.receiverLatency.ms16 sender.peerLatency.ms16).toUInt64 * 1000

/-- A connection of the caller and a connection of the listener fit together. -/
structure ParametersAgree (caller listener : Config) (callerConn listenerConn : SrtConn) :
    Prop where
  callerDelay : callerConn.tsbpdDelay = agreedDelay caller listener
  listenerPeerDelay : listenerConn.peerTsbpdDelay = agreedDelay caller listener
  listenerDelay : listenerConn.tsbpdDelay = agreedDelay listener caller
  callerPeerDelay : callerConn.peerTsbpdDelay = agreedDelay listener caller
  sequenceNumber :
    callerConn.initialPacketSequenceNumber = listenerConn.initialPacketSequenceNumber
  callerPeer : callerConn.peerSocketId = listenerConn.socketId
  listenerPeer : listenerConn.peerSocketId = callerConn.socketId

/-- A full payload of the connection, with its headers, is within the MSS of both ends. -/
def PayloadFits (caller listener : Config) (conn : SrtConn) : Prop :=
  conn.config.payloadSize.toNat + srtHeaderSize.toNat + udpHeaderSize.toNat ≤
    min caller.mss.toNat listener.mss.toNat

instance (caller listener : Config) (conn : SrtConn) :
    Decidable (PayloadFits caller listener conn) :=
  inferInstanceAs (Decidable (_ ≤ _))

end Exchange

end Gosrt
