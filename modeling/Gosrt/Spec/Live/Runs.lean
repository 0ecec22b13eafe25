import Gosrt.Lib.Run
import Gosrt.Spec.Live.Receive
import Gosrt.Spec.Live.Send

/-!
# `Gosrt.Spec.Live.Runs`: a live receiver and a live sender on their own

In `Gosrt.Spec.Live.Link` a receiver gets only what its sender sent. Here each of the two
runs alone, and the other end can send anything: the receiver gets packets with any sequence
number and any delivery time, the sender gets any ACK and any NAK.

`Tick` takes its lock once for each part, so there is an event for each part and one for the
whole call. `Flush` is left out. The histories record what the statements about runs talk
about. No step reads them.
-/

set_option autoImplicit false

namespace Gosrt

/-! ### The receiver -/

/-- The number is missing: it is after the acknowledged one, before the last one in the buffer,
and not in the buffer. -/
def Receiver.missing (r : Receiver) (n : Number) : Bool :=
  n.gt r.lastACKSequenceNumber && r.packetList.getLast?.any (fun p => n.lt p.seq) &&
    !r.packetList.any (fun p => p.seq = n)

/-- The receiver, and the packets it gave to `OnDeliver`, in order. -/
structure Receiving where
  receiver : Receiver
  delivered : List Packet
  deriving DecidableEq, Repr

namespace Receiving

inductive Event where
  | push (p : Packet)
  | tickACK (now : UInt64)
  | tickNAK (now : UInt64)
  | tickDeliver (now : UInt64)
  | tickRate (now : UInt64)
  | tick (now : UInt64)
  deriving DecidableEq, Repr

/-- The packet of a `Push`. -/
def pushed? : Event → Option Packet
  | .push p => some p
  | _ => none

def init (config : ReceiveConfig) : Receiving where
  receiver := newReceiver config
  delivered := []

/-- The delivery of `Tick`. -/
def tickDeliver (s : Receiving) (now : UInt64) : Receiving :=
  let (receiver, packets) := s.receiver.tickDeliver now
  { receiver := receiver, delivered := s.delivered ++ packets }

/-- `Tick`. -/
def tick (s : Receiving) (now : UInt64) : Receiving :=
  let (receiver, out) := s.receiver.tick now
  { receiver := receiver, delivered := s.delivered ++ out.delivered }

/-- One event. A packet from the wire has a sequence number of 31 bits. -/
def step (s : Receiving) : Event → Option Receiving
  | .push p =>
    if p.seq.IsSequenceNumber then some { s with receiver := (s.receiver.push p).1 } else none
  | .tickACK now => some { s with receiver := (s.receiver.periodicACK now).1 }
  | .tickNAK now => some { s with receiver := (s.receiver.periodicNAK now).1 }
  | .tickDeliver now => some (s.tickDeliver now)
  | .tickRate now => some { s with receiver := s.receiver.tickRate now }
  | .tick now => some (s.tick now)

end Receiving

/-! ### The sender -/

/-- The sender, and what became of the packets. -/
structure Sending where
  sender : Sender
  /-- The packets given to `Push`, in order. -/
  pushed : List Packet
  /-- The packets that `Tick` gave to `OnDeliver`, in order. -/
  delivered : List Packet
  /-- The packets that `ACK` removed from the loss list. -/
  acked : List Packet
  /-- The packets that `Tick` removed from the loss list because they were too old. -/
  dropped : List Packet
  deriving DecidableEq, Repr

namespace Sending

inductive Event where
  | push (p : Packet)
  | tickDeliver (now : UInt64)
  | tickDrop (now : UInt64)
  | tickRate (now : UInt64)
  | tick (now : UInt64)
  | ack (sequenceNumber : Number)
  | nak (sequenceNumbers : List Number)
  | setDropThreshold (threshold : UInt64)
  deriving DecidableEq, Repr

def init (config : SendConfig) : Sending where
  sender := newSender config
  pushed := []
  delivered := []
  acked := []
  dropped := []

/-- `Push`. -/
def push (s : Sending) (p : Packet) : Sending :=
  { s with sender := s.sender.push p, pushed := s.pushed ++ [p] }

/-- The delivery of `Tick`. -/
def tickDeliver (s : Sending) (now : UInt64) : Sending :=
  let (sender, sent) := s.sender.tickDeliver now
  { s with sender := sender, delivered := s.delivered ++ sent }

/-- The drop of `Tick`. -/
def tickDrop (s : Sending) (now : UInt64) : Sending :=
  let (sender, dropped) := s.sender.tickDrop now
  { s with sender := sender, dropped := s.dropped ++ dropped }

def tickRate (s : Sending) (now : UInt64) : Sending :=
  { s with sender := s.sender.tickRate now }

/-- `Tick`. -/
def tick (s : Sending) (now : UInt64) : Sending :=
  let (sender, sent, dropped) := s.sender.tick now
  { s with
    sender := sender
    delivered := s.delivered ++ sent
    dropped := s.dropped ++ dropped }

/-- `ACK`. -/
def ack (s : Sending) (sequenceNumber : Number) : Sending :=
  let (sender, acked) := s.sender.ack sequenceNumber
  { s with sender := sender, acked := s.acked ++ acked }

/-- One event. A NAK carries pairs of numbers. -/
def step (s : Sending) : Event → Option Sending
  | .push p => some (s.push p)
  | .tickDeliver now => some (s.tickDeliver now)
  | .tickDrop now => some (s.tickDrop now)
  | .tickRate now => some (s.tickRate now)
  | .tick now => some (s.tick now)
  | .ack sequenceNumber => some (s.ack sequenceNumber)
  | .nak sequenceNumbers =>
    if sequenceNumbers.length % 2 = 0 then
      (s.sender.nak sequenceNumbers).map fun out => { s with sender := out.1 }
    else none
  | .setDropThreshold threshold =>
    some { s with sender := s.sender.setDropThreshold threshold }

/-- The labels of the pushed packets: consecutive numbers from the initial one on. -/
def pushedLabels (initial : Number) (s : Sending) : List (Number × Bytes) :=
  s.pushed.mapIdx fun i p => (initial.add (UInt32.ofNat i), p.payload)

/-- The payload bytes of a list of packets. -/
def payloadBytes (ps : List Packet) : Nat := (ps.map (·.payload.length)).sum

/-- No packet is lost in the sender. A packet is known by its label: the number that `Push` gave
it, and its payload. -/
structure NoLoss (initial : Number) (s : Sending) : Prop where
  /-- The next packet gets the number after the last pushed one. -/
  next : s.sender.nextSequenceNumber = initial.add (UInt32.ofNat s.pushed.length)
  /-- The pushed packets have different numbers. -/
  distinct : ((s.pushedLabels initial).map Prod.fst).Nodup
  /-- Each pushed packet is in exactly one of the four places. -/
  places : ((s.sender.packetList ++ s.sender.lossList ++ s.acked ++ s.dropped).map
    Packet.label).Perm (s.pushedLabels initial)
  /-- The loss list followed by the packet list increases. -/
  increasing : (s.sender.lossList ++ s.sender.packetList).Pairwise
    fun p q => p.seq.lt q.seq = true
  /-- `Tick` hands the packets over in the order in which they were pushed, each one once. What
  it has not handed over is in the packet list. -/
  handedOver : (s.delivered ++ s.sender.packetList).map Packet.label = s.pushedLabels initial
  /-- `NAK` hands over only what `Tick` has handed over. -/
  nak : ∀ sequenceNumbers : List Number, sequenceNumbers.length % 2 = 0 →
    ∃ sender sent, s.sender.nak sequenceNumbers = some (sender, sent) ∧
      ∀ p ∈ sent, p.label ∈ s.delivered.map Packet.label
  /-- `ACK` does not touch the packet list. -/
  ackQueue : ∀ n, (s.sender.ack n).1.packetList = s.sender.packetList
  /-- `ACK` of the number of a push removes the packets that were pushed before it. -/
  ackLoss : ∀ k ≤ s.pushed.length,
    (s.sender.ack (initial.add (UInt32.ofNat k))).2
        = s.sender.lossList.filter (fun p => p.label ∈ (s.pushedLabels initial).take k) ∧
      (s.sender.ack (initial.add (UInt32.ofNat k))).1.lossList
        = s.sender.lossList.filter (fun p => p.label ∉ (s.pushedLabels initial).take k)
  pktBuf : s.sender.statistics.pktBuf.toNat
    = s.sender.packetList.length + s.sender.lossList.length
  /-- The counter is a `uint64`, so this is the sum in `uint64`. -/
  byteBuf : s.sender.statistics.byteBuf
    = UInt64.ofNat (payloadBytes (s.sender.packetList ++ s.sender.lossList))
  /-- A sum that a `uint64` can hold is exact. -/
  byteBufExact : payloadBytes (s.sender.packetList ++ s.sender.lossList) < 2 ^ 64 →
    s.sender.statistics.byteBuf.toNat
      = payloadBytes (s.sender.packetList ++ s.sender.lossList)

end Sending

/-! ### The counters of the receiver -/

namespace Receiving

open Sending (payloadBytes)

/-- The counters of the receiver add up after these packets were pushed. They are `uint64` and
wrap, so the sums are sums in `uint64`. As long as there were not more packets and bytes than a
`uint64` can count, the sums are exact and the counters can be compared. -/
structure Accounted (pushed : List Packet) (s : Receiving) : Prop where
  pkt : s.receiver.statistics.pkt
    = s.receiver.statistics.pktUnique + s.receiver.statistics.pktDrop
  byte : s.receiver.statistics.byte
    = s.receiver.statistics.byteUnique + s.receiver.statistics.byteDrop
  pktUnique : s.receiver.statistics.pktUnique
    = UInt64.ofNat s.delivered.length + s.receiver.statistics.pktBuf
  byteUnique : s.receiver.statistics.byteUnique
    = UInt64.ofNat (payloadBytes s.delivered) + s.receiver.statistics.byteBuf
  pktBuf : s.receiver.statistics.pktBuf = UInt64.ofNat s.receiver.packetList.length
  byteBuf : s.receiver.statistics.byteBuf
    = UInt64.ofNat (payloadBytes s.receiver.packetList)
  pktExact : pushed.length < 2 ^ 64 →
    s.receiver.statistics.pkt.toNat
      = s.receiver.statistics.pktUnique.toNat + s.receiver.statistics.pktDrop.toNat ∧
    s.receiver.statistics.pktUnique.toNat
      = s.delivered.length + s.receiver.statistics.pktBuf.toNat ∧
    s.receiver.statistics.pktBuf.toNat = s.receiver.packetList.length ∧
    s.receiver.statistics.pktBelated ≤ s.receiver.statistics.pktDrop ∧
    s.receiver.statistics.pktLate ≤ s.receiver.statistics.pktUnique
  byteExact : payloadBytes pushed < 2 ^ 64 →
    s.receiver.statistics.byte.toNat
      = s.receiver.statistics.byteUnique.toNat + s.receiver.statistics.byteDrop.toNat ∧
    s.receiver.statistics.byteUnique.toNat
      = payloadBytes s.delivered + s.receiver.statistics.byteBuf.toNat ∧
    s.receiver.statistics.byteBuf.toNat = payloadBytes s.receiver.packetList

end Receiving

end Gosrt
