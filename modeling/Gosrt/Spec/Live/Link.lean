import Gosrt.Lib.Run
import Gosrt.Spec.Live.Receive
import Gosrt.Spec.Live.Send

/-!
# `Gosrt.Spec.Live.Link`: a sender, a receiver, and the network between them

A live sender and a live receiver with the same initial sequence number. What one of them
hands to the network stays in flight for good: `data`, `acks` and `naks` only grow, and an
event delivers any message of these lists. So a message can be delivered late, in another
order, many times, or never.

A data packet gets its delivery time when it arrives (`srtConn.handlePacket` computes it
from the timestamp), so the event `receiverPush` carries an arbitrary `PktTsbpdTime`.

`Tick` of either party takes its lock once for each part. There is an event for each part
and an event for the whole call, so a run can interleave the parts with anything.

The last fields record the history of the run for the statements about it. No step reads
them.
-/

set_option autoImplicit false

namespace Gosrt

/-- The two parties, the messages in flight, and the history. -/
structure Link where
  sender : Sender
  receiver : Receiver
  /-- Data packets handed to the network. -/
  data : List Packet
  /-- ACK numbers handed to the network. -/
  acks : List Number
  /-- NAK lists handed to the network. -/
  naks : List (List Number)
  /-- History: the packets given to `sender.Push`, in order. -/
  pushed : List Packet
  /-- History: the packets given to `receiver.Push`, in order. -/
  arrived : List Packet
  /-- History: the packets given to the receiver's `OnDeliver`, in order. -/
  delivered : List Packet
  /-- History: the packets that `sender.ACK` removed from the loss list. -/
  freed : List Packet
  /-- History: the time and the receive buffer at each ACK part of `receiver.Tick`. -/
  ticks : List (UInt64 × List Packet)
  deriving DecidableEq, Repr

namespace Link

/-- What the two parties are configured with. -/
structure Config where
  dropThreshold : UInt64
  periodicACKInterval : UInt64
  periodicNAKInterval : UInt64
  deriving DecidableEq, Repr

/-- `circular.New(x & MAX_SEQUENCENUMBER, MAX_SEQUENCENUMBER)`: the initial sequence number
that a dialer makes from a random `x`. -/
def initialSequenceNumber (x : UInt32) : Number :=
  Number.new (x &&& maxSequenceNumber) maxSequenceNumber

/-- Both parties start from the same initial sequence number, with nothing in flight. -/
def init (config : Config) (x : UInt32) : Link where
  sender := newSender
    { initialSequenceNumber := initialSequenceNumber x
      dropThreshold := config.dropThreshold }
  receiver := newReceiver
    { initialSequenceNumber := initialSequenceNumber x
      periodicACKInterval := config.periodicACKInterval
      periodicNAKInterval := config.periodicNAKInterval }
  data := []
  acks := []
  naks := []
  pushed := []
  arrived := []
  delivered := []
  freed := []
  ticks := []

/-- What can happen. An index names a message in flight. -/
inductive Event where
  | senderPush (p : Packet)
  | senderTickDeliver (now : UInt64)
  | senderTickDrop (now : UInt64)
  | senderTickRate (now : UInt64)
  | senderTick (now : UInt64)
  | senderACK (i : Nat)
  | senderNAK (i : Nat)
  | receiverPush (i : Nat) (pktTsbpdTime : UInt64)
  | receiverTickACK (now : UInt64)
  | receiverTickNAK (now : UInt64)
  | receiverTickDeliver (now : UInt64)
  | receiverTickRate (now : UInt64)
  | receiverTick (now : UInt64)
  deriving DecidableEq, Repr

/-- `snd.Push`. -/
def senderPush (s : Link) (p : Packet) : Link :=
  { s with sender := s.sender.push p, pushed := s.pushed ++ [p] }

/-- The delivery of `snd.Tick`. -/
def senderTickDeliver (s : Link) (now : UInt64) : Link :=
  let (sender, sent) := s.sender.tickDeliver now
  { s with sender := sender, data := s.data ++ sent }

/-- The drop of `snd.Tick`. -/
def senderTickDrop (s : Link) (now : UInt64) : Link :=
  { s with sender := (s.sender.tickDrop now).1 }

/-- The rates of `snd.Tick`. -/
def senderTickRate (s : Link) (now : UInt64) : Link :=
  { s with sender := s.sender.tickRate now }

/-- `snd.Tick`. -/
def senderTick (s : Link) (now : UInt64) : Link :=
  let (sender, sent, _) := s.sender.tick now
  { s with sender := sender, data := s.data ++ sent }

/-- `snd.ACK`. -/
def senderACK (s : Link) (n : Number) : Link :=
  let (sender, freed) := s.sender.ack n
  { s with sender := sender, freed := s.freed ++ freed }

/-- `snd.NAK`. -/
def senderNAK (s : Link) (ns : List Number) : Option Link := do
  let (sender, sent) ← s.sender.nak ns
  return { s with sender := sender, data := s.data ++ sent }

/-- A packet in flight arrives and gets its delivery time. -/
def receiverPush (s : Link) (p : Packet) (pktTsbpdTime : UInt64) : Link :=
  let p := { p with header := { p.header with pktTsbpdTime := pktTsbpdTime } }
  let (receiver, nak) := s.receiver.push p
  { s with
      receiver := receiver
      naks := s.naks ++ nak.toList
      arrived := s.arrived ++ [p] }

/-- The ACK of `recv.Tick`. -/
def receiverTickACK (s : Link) (now : UInt64) : Link :=
  let (receiver, ack) := s.receiver.periodicACK now
  { s with
      receiver := receiver
      acks := s.acks ++ (ack.map Prod.fst).toList
      ticks := s.ticks ++ [(now, s.receiver.packetList)] }

/-- `Tick` does not send an empty list. -/
def receiverTickNAK (s : Link) (now : UInt64) : Link :=
  let (receiver, nak) := s.receiver.periodicNAK now
  { s with
      receiver := receiver
      naks := if nak.isEmpty then s.naks else s.naks ++ [nak] }

/-- The delivery of `recv.Tick`. -/
def receiverTickDeliver (s : Link) (now : UInt64) : Link :=
  let (receiver, packets) := s.receiver.tickDeliver now
  { s with receiver := receiver, delivered := s.delivered ++ packets }

/-- The rates of `recv.Tick`. -/
def receiverTickRate (s : Link) (now : UInt64) : Link :=
  { s with receiver := s.receiver.tickRate now }

/-- `recv.Tick`. -/
def receiverTick (s : Link) (now : UInt64) : Link :=
  let (receiver, out) := s.receiver.tick now
  { s with
      receiver := receiver
      acks := s.acks ++ (out.ack.map Prod.fst).toList
      naks := if out.nak.isEmpty then s.naks else s.naks ++ [out.nak]
      delivered := s.delivered ++ out.delivered
      ticks := s.ticks ++ [(now, s.receiver.packetList)] }

/-- One event. `none` when it names no message in flight. -/
def step (s : Link) : Event → Option Link
  | .senderPush p => some (s.senderPush p)
  | .senderTickDeliver now => some (s.senderTickDeliver now)
  | .senderTickDrop now => some (s.senderTickDrop now)
  | .senderTickRate now => some (s.senderTickRate now)
  | .senderTick now => some (s.senderTick now)
  | .senderACK i => s.acks[i]?.map s.senderACK
  | .senderNAK i => s.naks[i]?.bind s.senderNAK
  | .receiverPush i pktTsbpdTime => s.data[i]?.map (s.receiverPush · pktTsbpdTime)
  | .receiverTickACK now => some (s.receiverTickACK now)
  | .receiverTickNAK now => some (s.receiverTickNAK now)
  | .receiverTickDeliver now => some (s.receiverTickDeliver now)
  | .receiverTickRate now => some (s.receiverTickRate now)
  | .receiverTick now => some (s.receiverTick now)

/-- The labels that the pushed packets are to be delivered with: the first packet has the
initial sequence number, and each later one has the next number. -/
def pushedLabels (s : Link) (x : UInt32) : List (Number × Bytes) :=
  s.pushed.mapIdx fun i p => ((initialSequenceNumber x).add (UInt32.ofNat i), p.payload)

/-- The number was received, or it was given up: at some tick a packet with a greater number
was in the buffer and was due. -/
def Accounted (s : Link) (n : Number) : Prop :=
  (∃ p ∈ s.arrived, p.seq = n) ∨
    ∃ t ∈ s.ticks, ∃ q ∈ t.2, n.lt q.seq ∧ q.header.pktTsbpdTime ≤ t.1

instance (s : Link) (n : Number) : Decidable (s.Accounted n) :=
  inferInstanceAs (Decidable (_ ∨ _))

end Link

end Gosrt
