import Gosrt.Spec.Packet

/-!
# `Gosrt.Spec.Live.Send`: the live sender (`congestion/live/send.go`)

`push` numbers a packet and queues it in `packetList`. `tick` hands over what is due, moves
it to `lossList`, and drops what has been there for too long. `ack` removes acknowledged
packets from `lossList`, and `nak` hands over again what the peer reports as lost.

The `OnDeliver` callback becomes an output: each operation returns the packets it hands
over, in order. `Tick` takes the lock once for each of its parts: `tickDeliver`,
`tickDrop`, `tickRate`.

Left out are the values that the source keeps in floating point: the average payload size,
the sending period and with it `UsSndDuration`, and the estimated rates.
-/

set_option autoImplicit false

namespace Gosrt

/-- The counters of `congestion.SendStats` that the sender updates. -/
structure SendStats where
  pkt : UInt64 := 0
  byte : UInt64 := 0
  pktUnique : UInt64 := 0
  byteUnique : UInt64 := 0
  pktLoss : UInt64 := 0
  byteLoss : UInt64 := 0
  pktRetrans : UInt64 := 0
  byteRetrans : UInt64 := 0
  pktDrop : UInt64 := 0
  byteDrop : UInt64 := 0
  pktBuf : UInt64 := 0
  byteBuf : UInt64 := 0
  pktFlightSize : UInt64 := 0
  deriving DecidableEq, Repr, Inhabited

/-- The integer part of the sender's `rate`. -/
structure SendRate where
  period : UInt64 := 1000000
  last : UInt64 := 0
  bytes : UInt64 := 0
  bytesSent : UInt64 := 0
  bytesRetrans : UInt64 := 0
  deriving DecidableEq, Repr, Inhabited

/-- `SendConfig`, less its callback and the bandwidth limits, which only the floating-point
fields read. -/
structure SendConfig where
  initialSequenceNumber : Number
  dropThreshold : UInt64
  deriving DecidableEq, Repr

/-- `sender`. -/
structure Sender where
  nextSequenceNumber : Number
  dropThreshold : UInt64
  packetList : List Packet
  lossList : List Packet
  statistics : SendStats
  probeTime : UInt64
  rate : SendRate
  deriving DecidableEq, Repr, Inhabited

/-- `NewSender`. -/
def newSender (config : SendConfig) : Sender where
  nextSequenceNumber := config.initialSequenceNumber
  dropThreshold := config.dropThreshold
  packetList := []
  lossList := []
  statistics := {}
  probeTime := 0
  rate := {}

namespace Sender

/-- The fields of the header that `Push` fills in, with the timestamp taken from
`PktTsbpdTime` before the probe changes it. -/
def numbered (s : Sender) (p : Packet) : Packet :=
  { p with
      header := { p.header with
        packetSequenceNumber := s.nextSequenceNumber
        packetPositionFlag := .singlePacket
        orderFlag := false
        messageNumber := 1
        timestamp := (p.header.pktTsbpdTime &&& maxTimestamp.toUInt64).toUInt32 } }

/-- `Push`. Every 16th packet starts a probe, and the one after it is sent at the same
time. -/
def push (s : Sender) (p : Packet) : Sender :=
  let p := s.numbered p
  let probe := p.seq.val &&& 0xF
  let probeTime := if probe = 0 then p.header.pktTsbpdTime else s.probeTime
  let p :=
    if probe = 1 then { p with header := { p.header with pktTsbpdTime := s.probeTime } } else p
  { s with
      nextSequenceNumber := s.nextSequenceNumber.inc
      probeTime := probeTime
      packetList := s.packetList ++ [p]
      rate := { s.rate with bytes := s.rate.bytes + p.len }
      statistics := { s.statistics with
        pktBuf := s.statistics.pktBuf + 1
        byteBuf := s.statistics.byteBuf + p.len
        pktFlightSize := UInt64.ofNat (s.packetList.length + 1) } }

/-- The sum of the payload lengths, as the source adds them up. -/
def totalLen (ps : List Packet) : UInt64 := ps.foldl (fun acc p => acc + p.len) 0

/-- The first part of `Tick`: packets whose time has come are handed over and moved to the
loss list. The loop stops at the first packet that is not due. -/
def tickDeliver (s : Sender) (now : UInt64) : Sender × List Packet :=
  let removeList := s.packetList.takeWhile (fun p => p.header.pktTsbpdTime ≤ now)
  let n := UInt64.ofNat removeList.length
  ({ s with
      packetList := s.packetList.dropWhile (fun p => p.header.pktTsbpdTime ≤ now)
      lossList := s.lossList ++ removeList
      rate := { s.rate with bytesSent := s.rate.bytesSent + totalLen removeList }
      statistics := { s.statistics with
        pkt := s.statistics.pkt + n
        pktUnique := s.statistics.pktUnique + n
        byte := s.statistics.byte + totalLen removeList
        byteUnique := s.statistics.byteUnique + totalLen removeList } },
    removeList)

/-- The packet has been in the loss list for too long. The sum is a `uint64` and wraps. -/
def tooOld (s : Sender) (now : UInt64) (p : Packet) : Bool :=
  p.header.pktTsbpdTime + s.dropThreshold ≤ now

/-- The second part of `Tick`: packets that are too old leave the loss list. Unlike the
other loops, this one looks at the whole list. The second component is `removeList`. -/
def tickDrop (s : Sender) (now : UInt64) : Sender × List Packet :=
  let removeList := s.lossList.filter (s.tooOld now)
  let n := UInt64.ofNat removeList.length
  ({ s with
      lossList := s.lossList.filter (fun p => !s.tooOld now p)
      statistics := { s.statistics with
        pktDrop := s.statistics.pktDrop + n
        pktLoss := s.statistics.pktLoss + n
        byteDrop := s.statistics.byteDrop + totalLen removeList
        byteLoss := s.statistics.byteLoss + totalLen removeList
        pktBuf := s.statistics.pktBuf - n
        byteBuf := s.statistics.byteBuf - totalLen removeList } },
    removeList)

/-- The last part of `Tick`: it restarts the rate counters once per period. -/
def tickRate (s : Sender) (now : UInt64) : Sender :=
  if now - s.rate.last > s.rate.period then
    { s with rate := { s.rate with bytes := 0, bytesSent := 0, bytesRetrans := 0, last := now } }
  else s

/-- `Tick`: the packets it hands over, and the packets it drops. -/
def tick (s : Sender) (now : UInt64) : Sender × List Packet × List Packet :=
  let (s, sent) := s.tickDeliver now
  let (s, dropped) := s.tickDrop now
  (s.tickRate now, sent, dropped)

/-- `ACK`: packets leave the front of the loss list. The loop stops at the first packet that
is not before the acknowledged number. The second component is `removeList`. -/
def ack (s : Sender) (sequenceNumber : Number) : Sender × List Packet :=
  let removeList := s.lossList.takeWhile (fun p => p.seq.lt sequenceNumber)
  ({ s with
      lossList := s.lossList.dropWhile (fun p => p.seq.lt sequenceNumber)
      statistics := { s.statistics with
        pktBuf := s.statistics.pktBuf - UInt64.ofNat removeList.length
        byteBuf := s.statistics.byteBuf - totalLen removeList } },
    removeList)

/-- The inner loop of `NAK`: how many of the reported ranges contain the number. `none` is
the index panic on a list of odd length, which happens only when the lone last number is
not after `seq`. -/
def nakHits (seq : Number) : List Number → Option Nat
  | [] => some 0
  | [lo] => if seq.gte lo then none else some 0
  | lo :: hi :: rest => do
    let n ← nakHits seq rest
    return if seq.gte lo && seq.lte hi then n + 1 else n

/-- The packet as `NAK` hands it over. -/
def retransmitted (p : Packet) : Packet :=
  { p with header := { p.header with retransmittedPacketFlag := true } }

/-- What `NAK` counts for one packet it hands over. -/
def countRetrans (s : Sender) (p : Packet) : Sender :=
  { s with
      rate := { s.rate with
        bytesSent := s.rate.bytesSent + p.len
        bytesRetrans := s.rate.bytesRetrans + p.len }
      statistics := { s.statistics with
        pktRetrans := s.statistics.pktRetrans + 1
        pkt := s.statistics.pkt + 1
        pktLoss := s.statistics.pktLoss + 1
        byteRetrans := s.statistics.byteRetrans + p.len
        byte := s.statistics.byte + p.len
        byteLoss := s.statistics.byteLoss + p.len } }

/-- The loop of `NAK` over the loss list, back to front: the loss list afterwards and the
packets handed over, in order. A packet in several ranges is handed over once for each. -/
def nakLoop (sequenceNumbers : List Number) : List Packet → Option (List Packet × List Packet)
  | [] => some ([], [])
  | p :: rest => do
    let (rest', sent) ← nakLoop sequenceNumbers rest
    let hits ← nakHits p.seq sequenceNumbers
    let p' := if hits = 0 then p else retransmitted p
    return (p' :: rest', sent ++ List.replicate hits (retransmitted p))

/-- `NAK`. The second component is what is handed over. `none` is a panic. -/
def nak (s : Sender) (sequenceNumbers : List Number) : Option (Sender × List Packet) :=
  if sequenceNumbers.isEmpty then some (s, [])
  else do
    let (lossList, sent) ← nakLoop sequenceNumbers s.lossList
    return ({ sent.foldl countRetrans s with lossList := lossList }, sent)

/-- `SetDropThreshold`. -/
def setDropThreshold (s : Sender) (threshold : UInt64) : Sender :=
  { s with dropThreshold := threshold }

/-- `Flush`. The counters stay. -/
def flush (s : Sender) : Sender := { s with packetList := [], lossList := [] }

end Sender

end Gosrt
