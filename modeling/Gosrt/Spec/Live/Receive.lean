import Gosrt.Spec.Packet

/-!
# `Gosrt.Spec.Live.Receive`: the live receiver (`congestion/live/receive.go`)

The receiver keeps a list of packets that are waiting for their delivery time. `push`
places an arriving packet, `periodicACK` and `periodicNAK` compute what is reported to the
peer, and `tick` calls both and hands over what is due.

The three callbacks become outputs: `push` returns the list that it gives to `sendNAK`, and
`tick` returns a `TickOutput` with the acknowledgement, the loss report and the delivered
packets. `Tick` takes the lock once for each of its parts, so a `Push` can come in between.
The parts are separate functions: `tickACK`, `tickNAK`, `tickDeliver`, `tickRate`.

Left out are the estimators that the source keeps in floating point and with the wall
clock: the average payload size and with it `ByteLoss`, the link capacity probe, and the
rates that the last part of `Tick` derives from its counters. They feed statistics only.
-/

set_option autoImplicit false

namespace Gosrt

/-- The counters of `congestion.ReceiveStats` that the receiver updates. -/
structure ReceiveStats where
  pkt : UInt64 := 0
  byte : UInt64 := 0
  pktUnique : UInt64 := 0
  byteUnique : UInt64 := 0
  pktLoss : UInt64 := 0
  pktLost : UInt64 := 0
  pktRetrans : UInt64 := 0
  byteRetrans : UInt64 := 0
  pktBelated : UInt64 := 0
  byteBelated : UInt64 := 0
  pktLate : UInt64 := 0
  byteLate : UInt64 := 0
  pktDrop : UInt64 := 0
  byteDrop : UInt64 := 0
  pktBuf : UInt64 := 0
  byteBuf : UInt64 := 0
  msBuf : UInt64 := 0
  deriving DecidableEq, Repr, Inhabited

/-- The integer part of the receiver's `rate`. -/
structure ReceiveRate where
  last : UInt64 := 0
  period : UInt64 := 1000000
  packets : UInt64 := 0
  bytes : UInt64 := 0
  bytesRetrans : UInt64 := 0
  deriving DecidableEq, Repr, Inhabited

/-- `ReceiveConfig`, less its callbacks. -/
structure ReceiveConfig where
  initialSequenceNumber : Number
  periodicACKInterval : UInt64
  periodicNAKInterval : UInt64
  deriving DecidableEq, Repr

/-- `receiver`. -/
structure Receiver where
  maxSeenSequenceNumber : Number
  lastACKSequenceNumber : Number
  lastDeliveredSequenceNumber : Number
  packetList : List Packet
  nPackets : UInt64
  periodicACKInterval : UInt64
  periodicNAKInterval : UInt64
  lastPeriodicACK : UInt64
  lastPeriodicNAK : UInt64
  statistics : ReceiveStats
  rate : ReceiveRate
  deriving DecidableEq, Repr, Inhabited

/-- `NewReceiver`. -/
def newReceiver (config : ReceiveConfig) : Receiver where
  maxSeenSequenceNumber := config.initialSequenceNumber.dec
  lastACKSequenceNumber := config.initialSequenceNumber.dec
  lastDeliveredSequenceNumber := config.initialSequenceNumber.dec
  packetList := []
  nPackets := 0
  periodicACKInterval := config.periodicACKInterval
  periodicNAKInterval := config.periodicNAKInterval
  lastPeriodicACK := 0
  lastPeriodicNAK := 0
  statistics := {}
  rate := {}

namespace Receiver

/-- The counters `Push` updates for every packet, before it looks at the sequence number. -/
def countPush (r : Receiver) (pkt : Packet) : Receiver :=
  let pktLen := pkt.len
  let retrans := pkt.header.retransmittedPacketFlag
  { r with
      nPackets := r.nPackets + 1
      rate := { r.rate with
        packets := r.rate.packets + 1
        bytes := r.rate.bytes + pktLen
        bytesRetrans := if retrans then r.rate.bytesRetrans + pktLen else r.rate.bytesRetrans }
      statistics := { r.statistics with
        pkt := r.statistics.pkt + 1
        byte := r.statistics.byte + pktLen
        pktRetrans := if retrans then r.statistics.pktRetrans + 1 else r.statistics.pktRetrans
        byteRetrans :=
          if retrans then r.statistics.byteRetrans + pktLen else r.statistics.byteRetrans } }

/-- A dropped packet: `PktDrop` and `ByteDrop`. -/
def countDrop (r : Receiver) (pkt : Packet) : Receiver :=
  { r with
      statistics := { r.statistics with
        pktDrop := r.statistics.pktDrop + 1
        byteDrop := r.statistics.byteDrop + pkt.len } }

/-- A packet that comes after its delivery: `PktBelated` and `ByteBelated`. -/
def countBelated (r : Receiver) (pkt : Packet) : Receiver :=
  { r with
      statistics := { r.statistics with
        pktBelated := r.statistics.pktBelated + 1
        byteBelated := r.statistics.byteBelated + pkt.len } }

/-- A packet that fills a gap: `PktLate` and `ByteLate`. -/
def countLate (r : Receiver) (pkt : Packet) : Receiver :=
  { r with
      statistics := { r.statistics with
        pktLate := r.statistics.pktLate + 1
        byteLate := r.statistics.byteLate + pkt.len } }

/-- A packet that enters the buffer: `PktBuf`, `PktUnique` and their byte counters. -/
def countBuffered (r : Receiver) (pkt : Packet) : Receiver :=
  { r with
      statistics := { r.statistics with
        pktBuf := r.statistics.pktBuf + 1
        pktUnique := r.statistics.pktUnique + 1
        byteBuf := r.statistics.byteBuf + pkt.len
        byteUnique := r.statistics.byteUnique + pkt.len } }

/-- Where a packet that is not the newest goes. -/
inductive Placement where
  /-- A packet with this number is in the list already. -/
  | duplicate
  /-- The packet goes into the list, which becomes `packets`. -/
  | inserted (packets : List Packet)
  /-- The loop ended without finding a place. -/
  | skipped
  deriving DecidableEq, Repr

/-- The loop of `Push` over the packet list, for a packet that is not the newest: it stops
at an equal number, and inserts before the first greater one. The equality is Go's `==` on
the whole `circular.Number`. -/
def place (pkt : Packet) : List Packet → Placement
  | [] => .skipped
  | p :: rest =>
    if p.seq = pkt.seq then .duplicate
    else if p.seq.gt pkt.seq then .inserted (pkt :: p :: rest)
    else
      match place pkt rest with
      | .duplicate => .duplicate
      | .inserted packets => .inserted (p :: packets)
      | .skipped => .skipped

/-- The end of `Push`: the packet is the newest one and goes to the back of the list. -/
def pushBack (r : Receiver) (pkt : Packet) : Receiver :=
  { r.countBuffered pkt with
      maxSeenSequenceNumber := pkt.seq
      packetList := r.packetList ++ [pkt] }

/-- `Push`. The second component is the range given to `sendNAK`, if any. -/
def push (r : Receiver) (pkt : Packet) : Receiver × Option (List Number) :=
  let r := r.countPush pkt
  if pkt.seq.lte r.lastDeliveredSequenceNumber then
    -- Too old, because up until lastDeliveredSequenceNumber everything is delivered.
    ((r.countBelated pkt).countDrop pkt, none)
  else if pkt.seq.lt r.lastACKSequenceNumber then
    -- Already acknowledged.
    (r.countDrop pkt, none)
  else if pkt.seq.equals r.maxSeenSequenceNumber.inc then
    -- In order, the packet we expected.
    (r.pushBack pkt, none)
  else if pkt.seq.lte r.maxSeenSequenceNumber then
    match place pkt r.packetList with
    | .duplicate => (r.countDrop pkt, none)
    | .inserted packets =>
      ({ (r.countBuffered pkt).countLate pkt with packetList := packets }, none)
    | .skipped => (r, none)
  else
    -- Too far ahead: report the gap at once.
    let nak := [r.maxSeenSequenceNumber.inc, pkt.seq.dec]
    let lost := (pkt.seq.distance r.maxSeenSequenceNumber).toUInt64 - 1
    let r := { r with
      statistics := { r.statistics with pktLoss := r.statistics.pktLoss + lost } }
    (r.pushBack pkt, some nak)

/-- The loop of `periodicACK`: the sequence number up to which everything is here or is
given up, and the `MsBuf` statistic that the loop updates on the way. -/
def ackLoop (now minPktTsbpdTime : UInt64) :
    Number → UInt64 → List Packet → Number × UInt64
  | ack, msBuf, [] => (ack, msBuf)
  | ack, msBuf, p :: rest =>
    if p.seq.lte ack then
      -- Skip packets that we already ACK'd.
      ackLoop now minPktTsbpdTime ack msBuf rest
    else if p.header.pktTsbpdTime ≤ now then
      -- Packets that should have been delivered by now: move forward, over a gap too.
      ackLoop now minPktTsbpdTime p.seq msBuf rest
    else if p.seq.equals ack.inc then
      -- The next in the row.
      ackLoop now minPktTsbpdTime p.seq ((p.header.pktTsbpdTime - minPktTsbpdTime) / 1000) rest
    else (ack, msBuf)

/-- `PktTsbpdTime` of the front of the list, `0` for an empty list. -/
def frontTsbpdTime (r : Receiver) : UInt64 :=
  match r.packetList with
  | [] => 0
  | p :: _ => p.header.pktTsbpdTime

/-- The part of `periodicACK` that runs when an ACK is due. -/
def computeACK (r : Receiver) (now : UInt64) : Receiver × Number :=
  let (ack, msBuf) :=
    ackLoop now r.frontTsbpdTime r.lastACKSequenceNumber r.statistics.msBuf r.packetList
  ({ r with
      statistics := { r.statistics with msBuf := msBuf }
      lastACKSequenceNumber := ack
      lastPeriodicACK := now
      nPackets := 0 }, ack.inc)

/-- `periodicACK`. `none` when no ACK is due, else the number to send and whether it is a
light ACK. -/
def periodicACK (r : Receiver) (now : UInt64) : Receiver × Option (Number × Bool) :=
  if now - r.lastPeriodicACK < r.periodicACKInterval then
    if r.nPackets ≥ 64 then
      let (r, n) := r.computeACK now
      (r, some (n, true))
    else (r, none)
  else
    let (r, n) := r.computeACK now
    (r, some (n, false))

/-- The loop of `periodicNAK`: the first and last number of each gap. -/
def nakLoop : Number → List Packet → List Number
  | _, [] => []
  | ack, p :: rest =>
    if p.seq.lte ack then
      -- Skip packets that we already ACK'd.
      nakLoop ack rest
    else if p.seq.equals ack.inc then nakLoop p.seq rest
    else ack.inc :: p.seq.dec :: nakLoop p.seq rest

/-- `periodicNAK`. The empty list stands for Go's `nil` too: `Tick` sends neither. -/
def periodicNAK (r : Receiver) (now : UInt64) : Receiver × List Number :=
  if now - r.lastPeriodicNAK < r.periodicNAKInterval then (r, [])
  else
    ({ r with lastPeriodicNAK := now }, nakLoop r.lastACKSequenceNumber r.packetList)

/-- The condition under which the delivery loop of `Tick` hands a packet over. -/
def due (r : Receiver) (now : UInt64) (p : Packet) : Bool :=
  p.seq.lte r.lastACKSequenceNumber && p.header.pktTsbpdTime ≤ now

/-- The number of lost packets that the removal loop of `Tick` counts: the gaps between
the packets it removes, from the number delivered last. -/
def lostBetween : Number → List Packet → UInt64
  | _, [] => 0
  | last, p :: rest =>
    let distance := last.distance p.seq
    (if distance > 1 then (distance - 1).toUInt64 else 0) + lostBetween p.seq rest

/-- The delivery part of `Tick`. The loop stops at the first packet that is not due. -/
def tickDeliver (r : Receiver) (now : UInt64) : Receiver × List Packet :=
  let removeList := r.packetList.takeWhile (r.due now)
  let lastDelivered := (removeList.getLast?.map Packet.seq).getD r.lastDeliveredSequenceNumber
  let bytes := removeList.foldl (fun acc p => acc - p.len) r.statistics.byteBuf
  ({ r with
      packetList := r.packetList.dropWhile (r.due now)
      lastDeliveredSequenceNumber := lastDelivered
      statistics := { r.statistics with
        pktBuf := r.statistics.pktBuf - UInt64.ofNat removeList.length
        byteBuf := bytes
        pktLost := r.statistics.pktLost + lostBetween r.lastDeliveredSequenceNumber removeList } },
    removeList)

/-- The last part of `Tick`: it restarts the rate counters once per period. -/
def tickRate (r : Receiver) (now : UInt64) : Receiver :=
  if now - r.rate.last > r.rate.period then
    { r with
        rate := { r.rate with packets := 0, bytes := 0, bytesRetrans := 0, last := now } }
  else r

/-- What one `Tick` gives to the callbacks. -/
structure TickOutput where
  ack : Option (Number × Bool)
  nak : List Number
  delivered : List Packet
  deriving DecidableEq, Repr

/-- `Tick`. -/
def tick (r : Receiver) (now : UInt64) : Receiver × TickOutput :=
  let (r, ack) := r.periodicACK now
  let (r, nak) := r.periodicNAK now
  let (r, delivered) := r.tickDeliver now
  (r.tickRate now, { ack := ack, nak := nak, delivered := delivered })

/-- `Flush`. The three numbers and the counters stay. -/
def flush (r : Receiver) : Receiver := { r with packetList := [] }

/-- `SetNAKInterval`. -/
def setNAKInterval (r : Receiver) (nakInterval : UInt64) : Receiver :=
  { r with periodicNAKInterval := nakInterval }

end Receiver

end Gosrt
