import Gosrt.Spec.Handle
import Gosrt.Spec.Live.Runs

/-!
# `Gosrt.Spec.Statistics`: the statistics of a connection (`statistics.go`)

`Stats` reads the counters of the sender, of the receiver and of the connection. It reports what
they have accumulated, with the headers added to the payload bytes, and the differences to the
values that it reported before.

`Metering` is a connection that receives data packets. The decryption counts before `Push` does,
and `Stats` can come in between, so these are two steps. What the connection sends is left out: the
counters of the sender stay what they are. So are the values in floating point and the ones that
describe the present state (`StatisticsInstantaneous`). `ByteLoss` is estimated from the average
payload size, which is an input.

The history has the packets of each category: those for which the packet counter went up.
-/

set_option autoImplicit false

namespace Gosrt

open Lib

/-- The fields of `StatisticsAccumulated` that have a field in `StatisticsInterval` too. These are
all but the two for key material. -/
inductive StatsField where
  | pktSent
  | pktRecv
  | pktSentUnique
  | pktRecvUnique
  | pktSendLoss
  | pktRecvLoss
  | pktRecvLost
  | pktRetrans
  | pktRecvRetrans
  | pktSentACK
  | pktRecvACK
  | pktSentNAK
  | pktRecvNAK
  | usSndDuration
  | pktRecvBelated
  | pktRecvLate
  | pktSendDrop
  | pktRecvDrop
  | pktRecvUndecrypt
  | byteSent
  | byteRecv
  | byteSentUnique
  | byteRecvUnique
  | byteRecvLoss
  | byteRetrans
  | byteRecvRetrans
  | byteRecvBelated
  | byteRecvLate
  | byteSendDrop
  | byteRecvDrop
  | byteRecvUndecrypt
  deriving DecidableEq, Repr

/-- What `Stats` reads. The names are those of the source, `recv` and `send` are what the congestion
control returns. -/
structure Counters where
  headerSize : UInt64
  send : SendStats
  usSndDuration : UInt64
  recv : ReceiveStats
  byteLoss : UInt64
  conn : ConnStats
  pktSentACK : UInt64
  pktSentNAK : UInt64

/-- The accumulated values. -/
def Counters.accumulated (c : Counters) : StatsField → UInt64
  | .pktSent => c.send.pkt
  | .pktRecv => c.recv.pkt
  | .pktSentUnique => c.send.pktUnique
  | .pktRecvUnique => c.recv.pktUnique
  | .pktSendLoss => c.send.pktLoss
  | .pktRecvLoss => c.recv.pktLoss
  | .pktRecvLost => c.recv.pktLost
  | .pktRetrans => c.send.pktRetrans
  | .pktRecvRetrans => c.recv.pktRetrans
  | .pktSentACK => c.pktSentACK
  | .pktRecvACK => c.conn.pktRecvACK
  | .pktSentNAK => c.pktSentNAK
  | .pktRecvNAK => c.conn.pktRecvNAK
  | .usSndDuration => c.usSndDuration
  | .pktRecvBelated => c.recv.pktBelated
  | .pktRecvLate => c.recv.pktLate
  | .pktSendDrop => c.send.pktDrop
  | .pktRecvDrop => c.recv.pktDrop
  | .pktRecvUndecrypt => c.conn.pktRecvUndecrypt
  | .byteSent => c.send.byte + c.send.pkt * c.headerSize
  | .byteRecv => c.recv.byte + c.recv.pkt * c.headerSize
  | .byteSentUnique => c.send.byteUnique + c.send.pktUnique * c.headerSize
  | .byteRecvUnique => c.recv.byteUnique + c.recv.pktUnique * c.headerSize
  | .byteRecvLoss => c.byteLoss + c.recv.pktLoss * c.headerSize
  | .byteRetrans => c.send.byteRetrans + c.send.pktRetrans * c.headerSize
  | .byteRecvRetrans => c.recv.byteRetrans + c.recv.pktRetrans * c.headerSize
  | .byteRecvBelated => c.recv.byteBelated + c.recv.pktBelated * c.headerSize
  -- The headers are those of the belated packets here.
  | .byteRecvLate => c.recv.byteLate + c.recv.pktBelated * c.headerSize
  | .byteSendDrop => c.send.byteDrop + c.send.pktDrop * c.headerSize
  | .byteRecvDrop => c.recv.byteDrop + c.recv.pktDrop * c.headerSize
  | .byteRecvUndecrypt => c.conn.byteRecvUndecrypt + c.conn.pktRecvUndecrypt * c.headerSize

/-- `Statistics`. -/
structure Statistics where
  msTimeStamp : UInt64
  accumulated : StatsField → UInt64
  msInterval : UInt64
  interval : StatsField → UInt64

/-- `Stats`, with the milliseconds since the start of the connection. -/
def Counters.stats (c : Counters) (now : UInt64) (s : Statistics) : Statistics where
  msTimeStamp := now
  accumulated := c.accumulated
  msInterval := now - s.msTimeStamp
  interval f := c.accumulated f - s.accumulated f

/-- The header size that `newSRTConn` sets: UDP, SRT, and IP. An address with two colons is one of
IPv6. -/
def headerSize (localAddr : Option String) : UInt64 :=
  8 + 16 + if (localAddr.getD "").toList.count ':' < 2 then 20 else 40

/-- The receive categories that are reported in packets and in bytes. -/
inductive Category where
  | recv
  | unique
  | belated
  | late
  | drop
  | retrans
  | undecrypt
  deriving DecidableEq, Repr

namespace Category

def pktField : Category → StatsField
  | .recv => .pktRecv
  | .unique => .pktRecvUnique
  | .belated => .pktRecvBelated
  | .late => .pktRecvLate
  | .drop => .pktRecvDrop
  | .retrans => .pktRecvRetrans
  | .undecrypt => .pktRecvUndecrypt

def byteField : Category → StatsField
  | .recv => .byteRecv
  | .unique => .byteRecvUnique
  | .belated => .byteRecvBelated
  | .late => .byteRecvLate
  | .drop => .byteRecvDrop
  | .retrans => .byteRecvRetrans
  | .undecrypt => .byteRecvUndecrypt

end Category

/-- The bytes of packets on the wire. -/
def wireBytes (headerSize : Nat) (ps : List Packet) : Nat :=
  (ps.map fun p => p.payload.length + headerSize).sum

/-- A connection that receives data packets, and the value that is given to `Stats`. -/
structure Metering where
  connection : Connection
  receiver : Receiver
  /-- The packet between the decryption and `Push`. -/
  pending : Option Packet
  send : SendStats
  usSndDuration : UInt64
  byteLoss : UInt64
  pktSentACK : UInt64
  pktSentNAK : UInt64
  statistics : Statistics
  /-- `Stats` was called before. -/
  called : Bool
  /-- The packets for which the packet counter of a category went up. -/
  counted : Category → List Packet
  /-- The packets that `Push` found missing, and the bytes that this is estimated to be. -/
  missing : Nat
  missingBytes : Nat
  /-- The packets that were missing when their time had come. -/
  lost : Nat
  acks : Nat
  naks : Nat

namespace Metering

inductive Event where
  /-- A data packet arrives: `handlePacket` up to `Push`. -/
  | handle (p : Packet)
  /-- `Push`, with the average payload size in whole bytes. -/
  | push (avgPayloadSize : UInt64)
  | tickACK (now : UInt64)
  | tickNAK (now : UInt64)
  | tickDeliver (now : UInt64)
  | tickRate (now : UInt64)
  /-- `Stats`, with the milliseconds since the start of the connection. -/
  | stats (now : UInt64)
  deriving DecidableEq, Repr

/-- A new connection with any counters of the sender. The first call of `Stats` gets any value. -/
def init (config : SrtConnConfig) (send : SendStats) (usSndDuration : UInt64)
    (statistics : Statistics) : Metering where
  connection := Connection.new config
  receiver := newReceiver
    { initialSequenceNumber := config.initialPacketSequenceNumber
      periodicACKInterval := 10000
      periodicNAKInterval := 20000 }
  pending := none
  send := send
  usSndDuration := usSndDuration
  byteLoss := 0
  pktSentACK := 0
  pktSentNAK := 0
  statistics := statistics
  called := false
  counted _ := []
  missing := 0
  missingBytes := 0
  lost := 0
  acks := 0
  naks := 0

/-- The header size of the connection. -/
def headerSize (s : Metering) : UInt64 := Gosrt.headerSize s.connection.conn.localAddr

def counters (s : Metering) : Counters where
  headerSize := s.headerSize
  send := s.send
  usSndDuration := s.usSndDuration
  recv := s.receiver.statistics
  byteLoss := s.byteLoss
  conn := s.connection.statistics
  pktSentACK := s.pktSentACK
  pktSentNAK := s.pktSentNAK

/-- The packet is one more in each category whose packet counter has changed. -/
def note (s s' : Metering) (p : Packet) : Metering :=
  { s' with
    counted := fun category =>
      if s'.counters.accumulated category.pktField = s.counters.accumulated category.pktField then
        s.counted category
      else s.counted category ++ [p] }

/-- The packets that `Push` finds missing before a packet. -/
def gap (r : Receiver) (p : Packet) : UInt64 :=
  match (r.push p).2 with
  | some _ => (p.seq.distance r.maxSeenSequenceNumber).toUInt64 - 1
  | none => 0

/-- `handlePacket` of a data packet, up to `Push`. -/
def handle (prim : Primitives) (s : Metering) (p : Packet) : Metering :=
  let out := s.connection.handleData prim p
  s.note { s with
    connection := out.1
    pending := (out.2.filterMap Timing.push?).head? } p

/-- `Push` of the packet. It reports a gap at once. -/
def push (s : Metering) (p : Packet) (avgPayloadSize : UInt64) : Metering :=
  let out := s.receiver.push p
  s.note { s with
    receiver := out.1
    pending := none
    byteLoss := s.byteLoss + gap s.receiver p * avgPayloadSize
    pktSentNAK := if out.2.isSome then s.pktSentNAK + 1 else s.pktSentNAK
    missing := s.missing + (gap s.receiver p).toNat
    missingBytes := s.missingBytes + (gap s.receiver p).toNat * avgPayloadSize.toNat
    naks := if out.2.isSome then s.naks + 1 else s.naks } p

def tickACK (s : Metering) (now : UInt64) : Metering :=
  let out := s.receiver.periodicACK now
  { s with
    receiver := out.1
    pktSentACK := if out.2.isSome then s.pktSentACK + 1 else s.pktSentACK
    acks := if out.2.isSome then s.acks + 1 else s.acks }

def tickNAK (s : Metering) (now : UInt64) : Metering :=
  let out := s.receiver.periodicNAK now
  { s with
    receiver := out.1
    pktSentNAK := if out.2 ≠ [] then s.pktSentNAK + 1 else s.pktSentNAK
    naks := if out.2 ≠ [] then s.naks + 1 else s.naks }

def tickDeliver (s : Metering) (now : UInt64) : Metering :=
  let out := s.receiver.tickDeliver now
  { s with
    receiver := out.1
    lost := s.lost + (Receiver.lostBetween s.receiver.lastDeliveredSequenceNumber out.2).toNat }

/-- A call of `Stats`. The clock does not go back. -/
def callStats (s : Metering) (now : UInt64) : Option Metering :=
  if s.called = true → s.statistics.msTimeStamp ≤ now then
    some { s with statistics := s.counters.stats now s.statistics, called := true }
  else none

/-- One event. A data packet is handled when `Push` has taken the one before it. -/
def step (prim : Primitives) (s : Metering) : Event → Option Metering
  | .handle p =>
    if p.header.isControlPacket = false ∧ s.pending = none then some (s.handle prim p) else none
  | .push avgPayloadSize => s.pending.map fun p => s.push p avgPayloadSize
  | .tickACK now => some (s.tickACK now)
  | .tickNAK now => some (s.tickNAK now)
  | .tickDeliver now => some (s.tickDeliver now)
  | .tickRate now => some { s with receiver := s.receiver.tickRate now }
  | .stats now => s.callStats now

/-- In each category the packets are counted, and the bytes are those of the payloads and the
headers of these packets. -/
def Sums (s : Metering) : Event → Prop
  | .stats now =>
    ∀ s', s.callStats now = some s' → ∀ category : Category,
      (s'.statistics.accumulated category.pktField).toNat = (s.counted category).length ∧
        (s'.statistics.accumulated category.byteField).toNat
          = wireBytes s.headerSize.toNat (s.counted category)
  | _ => True

/-- There are as many late packets as belated ones, and no sum of bytes is too long for 64 bits. -/
def Balanced (s : Metering) : Event → Prop
  | .stats now =>
    (s.callStats now).isSome = true →
      (s.counted .late).length = (s.counted .belated).length ∧
        wireBytes s.headerSize.toNat (s.counted .recv) < 2 ^ 64 ∧
        wireBytes s.headerSize.toNat (s.counted .undecrypt) < 2 ^ 64
  | _ => True

instance (s : Metering) : (e : Event) → Decidable (s.Balanced e)
  | .stats _ => by
    unfold Balanced
    infer_instance
  | .handle _ | .push _ | .tickACK _ | .tickNAK _ | .tickDeliver _ | .tickRate _ => isTrue trivial

/-- No difference to the last call is negative. -/
def NoUnderflow (s : Metering) : Event → Prop
  | .stats now =>
    ∀ s', s.callStats now = some s' → s.called = true →
      s.statistics.msTimeStamp ≤ s'.statistics.msTimeStamp ∧
        ∀ f, s.statistics.accumulated f ≤ s'.statistics.accumulated f
  | _ => True

/-- Nothing that is counted is too large for 64 bits. -/
def Fits (s : Metering) : Event → Prop
  | .stats _ =>
    wireBytes s.headerSize.toNat (s.counted .recv) < 2 ^ 64 ∧
      wireBytes s.headerSize.toNat (s.counted .undecrypt) < 2 ^ 64 ∧
      s.missingBytes + s.missing * s.headerSize.toNat < 2 ^ 64 ∧
      s.lost < 2 ^ 64 ∧ s.acks < 2 ^ 64 ∧ s.naks < 2 ^ 64
  | _ => True

end Metering

end Gosrt
