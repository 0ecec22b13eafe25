import Gosrt.Spec.Control
import Gosrt.Spec.Dial
import Gosrt.Spec.Listen

/-!
# `Gosrt.Spec.Latency`: the delays of a connection (`connection.go`)

The configured latencies are durations. On the wire they are milliseconds in 16 bits, and a
connection has microseconds in 64 bits. From the delay of the peer it derives the time after which
the sender drops a packet.

`Survives` says that the narrow fields hold the configured values, `ThresholdAgrees` that the two
places which set the threshold do the same, and `Latency.Keeps` that a version 5 connection keeps
what the handshake has settled.
-/

set_option autoImplicit false

namespace Gosrt

open Lib

/-- The threshold that `newSRTConn` sets. The delay of the peer is 1000 times a 16 bit number, for
which the product with 1.25 is exact as a `float64`. -/
def dropThreshold (peerTsbpdDelay : UInt64) (config : Config) : UInt64 :=
  max (peerTsbpdDelay * 5 / 4 + config.sendDropDelay.microseconds.toUInt64) 1000000 + 20000

/-! ### The narrow fields -/

/-- The latency for received packets, in milliseconds. -/
def Config.receiverMilliseconds (config : Config) : Int := config.receiverLatency.milliseconds.toInt

/-- The latency that is asked of the peer, in milliseconds. -/
def Config.peerMilliseconds (config : Config) : Int := config.peerLatency.milliseconds.toInt

/-- The delays that a peer advertises for what it sends and for what it receives. Only version 5
has them in the handshake. -/
def CIFHandshake.advertised (cif : CIFHandshake) : UInt16 × UInt16 :=
  match cif.srtHS with
  | some hs => if cif.version = 5 then (hs.sendTSBPDDelay, hs.recvTSBPDDelay) else (0, 0)
  | none => (0, 0)

/-- A delay is settled from the configured latency and the one that the peer advertises. -/
def Settles (delay : UInt16) (latency : Int) (advertised : UInt16) : Prop :=
  (delay.toNat : Int) = max latency advertised.toNat

/-- The configured latencies get into their 16 bit fields as they are. -/
structure Survives (config : Config) : Prop where
  /-- In the CONCLUSION of a dialer. -/
  extension (dl : Dialer) (cif : CIFHandshake) : dl.config = config →
    ∃ hs, (dl.withExtensions cif).srtHS = some hs ∧
      (hs.recvTSBPDDelay.toNat : Int) = config.receiverMilliseconds ∧
      (hs.sendTSBPDDelay.toNat : Int) = config.peerMilliseconds
  /-- In the request of a version 4 caller, as its peer reads it. What it announces is the latency
  for received packets. -/
  hsRequest (c : SrtConn) (timestamp : UInt32) : c.config = config →
    ∃ cif, CIFHandshakeExtension.unmarshal (c.sendHSRequest timestamp).payload = .ok cif ∧
      (cif.sendTSBPDDelay.toNat : Int) = config.receiverMilliseconds
  /-- In the dialer, when it gets the answer. -/
  dialer (cif : CIFHandshake) :
    Settles (Dialer.delays config cif).1 config.receiverMilliseconds cif.advertised.1 ∧
      Settles (Dialer.delays config cif).2 config.peerMilliseconds cif.advertised.2
  /-- In the listener, when a request is accepted. -/
  listener (req : ConnRequest) (recvTsbpdDelay sendTsbpdDelay : UInt16) : req.config = config →
    req.delays = .ok (recvTsbpdDelay, sendTsbpdDelay) →
    Settles recvTsbpdDelay config.receiverMilliseconds req.handshake.advertised.1 ∧
      Settles sendTsbpdDelay config.peerMilliseconds req.handshake.advertised.2
  /-- In the handler of a version 4 request. -/
  request (c : SrtConn) (p : Packet) (cif : CIFHandshakeExtension) : c.config = config →
    CIFHandshakeExtension.unmarshal p.payload = .ok cif →
    SrtConn.refusesHS cif.srtFlags.tsbpdsnd cif = false →
    ∃ delay c' answer, c.handleHSRequest p = .ok (c', [.send answer]) ∧
      c'.tsbpdDelay = delay.toUInt64 * 1000 ∧
      Settles delay config.receiverMilliseconds cif.sendTSBPDDelay
  /-- In the handler of a version 4 response. -/
  response (c : SrtConn) (p : Packet) (cif : CIFHandshakeExtension) : c.config = config →
    c.version = 4 → CIFHandshakeExtension.unmarshal p.payload = .ok cif →
    SrtConn.refusesHS cif.srtFlags.tsbpdrcv cif = false →
    ∃ delay, c.handleHSResponse p
        = .ok (c, [.setDropThreshold (c.hsDropThreshold delay), .stopHSRequests]) ∧
      Settles delay config.peerMilliseconds cif.sendTSBPDDelay

/-! ### The threshold of the sender -/

/-- What the threshold should be for a peer latency in milliseconds: 1.25 times the latency and the
configured delay, in microseconds, but at least a second. -/
def expectedThreshold (latency : UInt16) (config : Config) : Int :=
  max (1250 * latency.toNat + config.sendDropDelay.microseconds.toInt) 1000000 + 20000

/-- The threshold is the one of `newSRTConn` for the same latency, and it is longer than the time
for which the peer keeps its packets. -/
structure ThresholdAgrees (latency : UInt16) (config : Config) (threshold : UInt64) : Prop where
  newSRTConn : threshold = dropThreshold (latency.toUInt64 * 1000) config
  expected : (threshold.toNat : Int) = expectedThreshold latency config
  exceeds : 1000 * latency.toNat < threshold.toNat

/-! ### What the handshake has settled -/

/-- A connection that receives packets, with the threshold of its sender. -/
structure Latency where
  connection : Connection
  dropThreshold : UInt64

namespace Latency

/-- A packet arrives. -/
structure Event where
  packet : Packet
  inputs : HandleInputs
  deriving DecidableEq, Repr

def init (config : SrtConnConfig) : Latency :=
  ⟨Connection.new config, Gosrt.dropThreshold config.peerTsbpdDelay config.config⟩

/-- The last threshold that the outputs set. -/
def lastThreshold (dropThreshold : UInt64) (outputs : List Output) : UInt64 :=
  outputs.foldl (fun t output => match output with | .setDropThreshold t' => t' | _ => t)
    dropThreshold

section
variable (prim : Primitives) (sort : SortSlice)

def step (s : Latency) (e : Event) : Option Latency :=
  match s.connection.handlePacket prim sort e.packet e.inputs with
  | .ok (connection, outputs) => some ⟨connection, lastThreshold s.dropThreshold outputs⟩
  | .error _ => none

/-- An extension packet of version 4, be it a request or a response. -/
def IsHS (p : Packet) : Prop :=
  p.header.isControlPacket = true ∧ p.header.controlType = .user ∧
    (p.header.subType = .hsreq ∨ p.header.subType = .hsrsp)

/-- The packet is handled, the delay and the threshold stay what they were at construction, and an
extension packet of version 4 does not close the connection. -/
def Keeps (config : SrtConnConfig) (s : Latency) (e : Event) : Prop :=
  ∃ connection outputs,
    s.connection.handlePacket prim sort e.packet e.inputs = .ok (connection, outputs) ∧
      connection.conn.tsbpdDelay = config.tsbpdDelay ∧
      lastThreshold s.dropThreshold outputs
        = Gosrt.dropThreshold config.peerTsbpdDelay config.config ∧
      (IsHS e.packet → .effect .close ∉ outputs)

end

/-- A version 4 request that can be decoded is one that `handleHSRequest` accepts, and it leads to
the delay that the connection has. -/
def Harmless (config : SrtConnConfig) (e : Event) : Prop :=
  e.packet.header.isControlPacket = true → e.packet.header.controlType = .user →
    e.packet.header.subType = .hsreq →
    ∀ cif, CIFHandshakeExtension.unmarshal e.packet.payload = .ok cif →
      SrtConn.refusesHS cif.srtFlags.tsbpdsnd cif = false ∧
        (max cif.sendTSBPDDelay config.config.receiverLatency.ms16).toUInt64 * 1000
          = config.tsbpdDelay

end Latency

end Gosrt
