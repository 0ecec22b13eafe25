import Gosrt.Lib.Countdown
import Gosrt.Spec.Endpoint
import Gosrt.Spec.Exchange
import Gosrt.Spec.Live.Runs
import Mathlib.Tactic.MkIffOfInductiveProp

/-!
# `Gosrt.Spec.Duplex`: two connections and the network between them

The two ends of a connection after the handshake. Each of them is a whole `Endpoint`, and what they
exchange are the bytes of datagrams. The network keeps every datagram, and delivers each one at any
time, in any order, any number of times, or never. Both ends write, read and close whenever they
like.

`Matched` is what the handshake has to settle. The last two conditions are about the buffers of the
sockets: a datagram that does not fit loses its end.
-/

set_option autoImplicit false

namespace Gosrt

open Lib

/-- What a new connection was made with. -/
def SrtConn.madeWith (conn : SrtConn) : SrtConnConfig where
  version := conn.version
  isCaller := conn.isCaller
  localAddr := conn.localAddr
  remoteAddr := conn.remoteAddr
  config := conn.config
  socketId := conn.socketId
  peerSocketId := conn.peerSocketId
  tsbpdTimeBase := conn.tsbpdTimeBase
  tsbpdDelay := conn.tsbpdDelay
  peerTsbpdDelay := conn.peerTsbpdDelay
  initialPacketSequenceNumber := conn.initialPacketSequenceNumber
  crypto := conn.crypto
  keyBaseEncryption := conn.keyBaseEncryption

/-- Both ends, and all datagrams that they sent. -/
abbrev Duplex := Pair Endpoint Bytes

namespace Duplex

/-- Both connections right after the handshake, with the lengths of the buffers of the sockets. -/
def init (a b : SrtConnConfig) (readA readB : Nat) : Duplex :=
  Pair.init (Endpoint.init a readA) (Endpoint.init b readB)

/-- An end acts, or a datagram of the other one reaches it. -/
abbrev Event := Pair.Event Endpoint.Event Bool

/-- One event. -/
def step (prim : Primitives) (sort : SortSlice) : Duplex → Event → Option Duplex :=
  Pair.step (Endpoint.party prim sort)

/-- Both connections are plain, or both use one key with the same salt. -/
def KeysMatch (a b : SrtConnConfig) : Prop :=
  match a.crypto, b.crypto with
  | none, none => True
  | some c, some d =>
    a.keyBaseEncryption = b.keyBaseEncryption ∧ c.salt = d.salt ∧
      c.sek a.keyBaseEncryption = d.sek a.keyBaseEncryption ∧
      c.sek a.keyBaseEncryption ≠ none
  | _, _ => False

instance (a b : SrtConnConfig) : Decidable (KeysMatch a b) := by
  unfold KeysMatch
  split <;> infer_instance

/-- Two version 5 connections that belong together. -/
@[mk_iff]
structure Matched (a b : SrtConnConfig) (readA readB : Nat) : Prop where
  version : a.version = 5 ∧ b.version = 5
  sequenceNumber : b.initialPacketSequenceNumber = a.initialPacketSequenceNumber
  isNumber : a.initialPacketSequenceNumber.IsSequenceNumber
  keys : KeysMatch a b
  /-- A full data packet. -/
  fits : a.config.payloadSize.toNat + 16 ≤ readB ∧ b.config.payloadSize.toNat + 16 ≤ readA
  /-- A full ACK. -/
  room : 44 ≤ readA ∧ 44 ≤ readB

instance (a b : SrtConnConfig) (readA readB : Nat) : Decidable (Matched a b readA readB) :=
  decidable_of_iff' _ (matched_iff a b readA readB)

/-- The handshake has made both connections. -/
structure Established (s : Exchange) (a b : SrtConnConfig) : Prop where
  caller : newSRTConn a ∈ s.conns
  listener : ∃ payload, (payload, newSRTConn b) ∈ s.accepted

/-- The connections of a dialer and of this listener. The dialer reads into a buffer of
`MAX_MSS_SIZE` bytes, the listener into one of its MSS. -/
def established (a b : SrtConnConfig) (listener : Config) : Duplex :=
  init a b maxMSSSize.toNat listener.mss.toNat

/-- The end has used less than half of the sequence numbers, and if it is encrypted, it is still
before the announcement of its next key. -/
@[mk_iff]
structure WithinLimits (config : SrtConnConfig) (x : Endpoint) : Prop where
  pushed : x.history.pushed.length < 2 ^ 30 - 1
  popped : config.crypto ≠ none →
    x.history.popped + config.config.kmPreAnnounce.toNat < steps config.config.kmRefreshRate

instance (config : SrtConnConfig) (x : Endpoint) : Decidable (WithinLimits config x) :=
  decidable_of_iff' _ (withinLimits_iff config x)

/-- What `Read` returned, and what it has in its buffer, are payloads of packets that `Write` of the
other end has queued: in order, none of them twice. So are the payloads of what `ReadPacket`
returned. -/
def Reads (x y : Endpoint) : Prop :=
  (∃ ps : List Packet, ps.Sublist y.history.enqueued ∧
    x.history.returned ++ x.reading.readBuffer = Reading.payloads ps) ∧
  (x.history.packets.map Packet.payload).Sublist (y.history.enqueued.map Packet.payload)

/-! ### A round of repair -/

/-- Each connection sends to the socket id of the other one. A listener has no connection with the
socket id 0. -/
@[mk_iff]
structure Addressed (a b : SrtConnConfig) : Prop where
  left : a.peerSocketId = b.socketId
  right : b.peerSocketId = a.socketId
  leftId : a.isCaller = false → a.socketId ≠ 0
  rightId : b.isCaller = false → b.socketId ≠ 0

instance (a b : SrtConnConfig) : Decidable (Addressed a b) :=
  decidable_of_iff' _ (addressed_iff a b)

/-- The inputs of a round of repair. -/
structure Repair where
  now : UInt64
  timestamp : UInt32
  /-- The inputs of the left end when it handles the report. -/
  report : Endpoint.Inputs
  /-- The inputs of the right end for each packet. -/
  data : Nat → Endpoint.Inputs

/-- The right end reports what it misses, the left end sends it again, and the network brings these
packets in the given order. -/
def repair (s : Duplex) (r : Repair) (order : List Nat) : List Event :=
  [.act .right (.recvTickNAK r.now r.timestamp), .receive .left s.fromRight.length true,
    .act .left (.handle r.report)] ++
  order.flatMap fun i =>
    [.receive .right (s.fromLeft.length + i) true, .act .right (.handle (r.data i))]

/-- The report that the right end makes. -/
def report (s : Duplex) (r : Repair) : List Number := (s.right.recv.periodicNAK r.now).2

/-- Neither end has a packet waiting, the time for the next report has come, there is something to
report, `Marshal` writes all of it, and the message fits into the buffer of the socket. -/
@[mk_iff]
structure Reports (s : Duplex) (r : Repair) : Prop where
  queues : s.left.networkQueue = [] ∧ s.right.networkQueue = []
  elapsed : ¬r.now - s.right.recv.lastPeriodicNAK < s.right.recv.periodicNAKInterval
  some : s.report r ≠ []
  whole : CIFNAK.written 0 (s.report r) = s.report r
  room : (s.right.conn.sendNAK (s.report r) r.timestamp).payload.length + 16 ≤ s.left.readSize

instance (s : Duplex) (r : Repair) : Decidable (Reports s r) :=
  decidable_of_iff' _ (reports_iff s r)

/-- What the right end misses and the left end still has. -/
def repairable (s : Duplex) : List Packet :=
  s.left.snd.lossList.filter fun p => s.right.recv.missing p.seq

end Duplex

end Gosrt
