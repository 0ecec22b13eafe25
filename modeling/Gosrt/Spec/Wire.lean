import Gosrt.Lib.Sort
import Gosrt.Spec.KeyMaterial

/-!
# `Gosrt.Spec.Wire`: packets, acknowledgements and loss reports as bytes (`packet/packet.go`)

`Packet.unmarshal` and `Packet.marshal` are the codec of the 16 header bytes. A data packet
and a control packet share them. `unmarshal` works on the receiver `p`, as the method does:
the fields of the other kind keep their values.

`CIFACK` is the body of an acknowledgement. Its length tells a light, a small and a full one
apart.

`CIFNAK` is the body of a loss report. Its list holds the first and the last number of each
range. On the wire a range of one number is one word, and the first number of a longer range
has its top bit set. `Unmarshal` sorts what it has read. The sort of the library is the
parameter `sort`.

The writers are the bytes they give to `w`. A packet with a released payload, which `Marshal`
refuses, has no counterpart here.
-/

set_option autoImplicit false

namespace Gosrt

open Lib

namespace PacketPosition

/-- `PacketPosition.Val`. -/
def val : PacketPosition → UInt32
  | .middlePacket => 0
  | .lastPacket => 1
  | .firstPacket => 2
  | .singlePacket => 3

/-- `PacketPosition(x & 0b11)`. -/
def ofBits (x : UInt8) : PacketPosition :=
  if x &&& 3 = 0 then .middlePacket
  else if x &&& 3 = 1 then .lastPacket
  else if x &&& 3 = 2 then .firstPacket
  else .singlePacket

end PacketPosition

namespace PacketHeader

/-- The fields of a control packet. The first bit of the control type is cleared. -/
def unmarshalControl (h : PacketHeader) (data : Bytes) : Go PacketHeader := do
  let controlType ← orPanic (uint16 data 0)
  let subType ← orPanic (uint16 data 2)
  let typeSpecific ← orPanic (uint32 data 4)
  return { h with
    isControlPacket := true
    controlType := controlType &&& 0x7FFF
    subType := subType
    typeSpecific := typeSpecific }

/-- The fields of a data packet. -/
def unmarshalData (h : PacketHeader) (data : Bytes) : Go PacketHeader := do
  let sequenceNumber ← orPanic (uint32 data 0)
  let flags ← orPanic data[4]?
  let field ← orPanic (uint32 data 4)
  return { h with
    isControlPacket := false
    packetSequenceNumber := Number.new sequenceNumber maxSequenceNumber
    packetPositionFlag := PacketPosition.ofBits ((flags &&& 0b11000000) >>> (6 : UInt8))
    orderFlag := flags &&& 0b00100000 != 0
    keyBaseEncryptionFlag := PacketEncryption.ofBits ((flags &&& 0b00011000) >>> (3 : UInt8))
    retransmittedPacketFlag := flags &&& 0b00000100 != 0
    messageNumber := field &&& 0x03FFFFFF }

/-- The first eight bytes of a control packet. The first bit is set in the first byte. -/
def marshalControl (h : PacketHeader) : Bytes :=
  match be16 h.controlType with
  | b :: bs => (b ||| 0x80) :: bs ++ be16 h.subType ++ be32 h.typeSpecific
  | [] => []

/-- The flags of a data packet, in the lowest byte. -/
def flags (h : PacketHeader) : UInt32 :=
  ((h.packetPositionFlag.val &&& 3) <<< (6 : UInt32)) |||
    (if h.orderFlag then 0b00100000 else 0) |||
    ((h.keyBaseEncryptionFlag.val.toUInt32 &&& 3) <<< (3 : UInt32)) |||
    (if h.retransmittedPacketFlag then 0b00000100 else 0)

/-- The first eight bytes of a data packet. -/
def marshalData (h : PacketHeader) : Bytes :=
  be32 h.packetSequenceNumber.val ++
    be32 ((h.flags <<< (24 : UInt32)) + (h.messageNumber &&& 0x03FFFFFF))

end PacketHeader

namespace Packet

/-- `Unmarshal`. -/
def unmarshal (p : Packet) (data : Bytes) : Go Packet := do
  if data.length < 16 then Go.err "data too short to unmarshal"
  else do
    let first ← orPanic data[0]?
    let header ←
      if first &&& 0x80 ≠ 0 then p.header.unmarshalControl data
      else p.header.unmarshalData data
    let timestamp ← orPanic (uint32 data 8)
    let destinationSocketId ← orPanic (uint32 data 12)
    let payload ← orPanic (sliceFrom data 16)
    return {
      header := { header with
        timestamp := timestamp
        destinationSocketId := destinationSocketId }
      payload := payload }

/-- `Marshal`. -/
def marshal (p : Packet) : Bytes :=
  (if p.header.isControlPacket then p.header.marshalControl else p.header.marshalData) ++
    be32 p.header.timestamp ++ be32 p.header.destinationSocketId ++ p.payload

/-- The fields that go on the wire fit their bits. The position and the key flags have two
bits by their types. -/
structure InRange (p : Packet) : Prop where
  control : p.header.isControlPacket = true → p.header.controlType < 0x8000
  data : p.header.isControlPacket = false →
    p.seq.val ≤ maxSequenceNumber ∧ p.header.messageNumber < 0x04000000

/-- The packet `r` has the fields of `p` that belong to its kind, and its payload. A sequence
number is decoded as a number modulo `MAX_SEQUENCENUMBER + 1`. -/
structure Restores (p r : Packet) : Prop where
  kind : r.header.isControlPacket = p.header.isControlPacket
  control : p.header.isControlPacket = true →
    r.header.controlType = p.header.controlType ∧ r.header.subType = p.header.subType ∧
      r.header.typeSpecific = p.header.typeSpecific
  data : p.header.isControlPacket = false →
    r.seq = Number.new p.seq.val maxSequenceNumber ∧ r.seq.val = p.seq.val ∧
      r.header.packetPositionFlag = p.header.packetPositionFlag ∧
      r.header.orderFlag = p.header.orderFlag ∧
      r.header.keyBaseEncryptionFlag = p.header.keyBaseEncryptionFlag ∧
      r.header.retransmittedPacketFlag = p.header.retransmittedPacketFlag ∧
      r.header.messageNumber = p.header.messageNumber
  timestamp : r.header.timestamp = p.header.timestamp
  destinationSocketId : r.header.destinationSocketId = p.header.destinationSocketId
  payload : r.payload = p.payload

end Packet

/-- `NewPacketFromData`. No bytes at all give a packet too. -/
def newPacketFromData (addr : Option String) (data : Bytes) : Go Packet :=
  if data.length ≠ 0 then ((newPacket addr).unmarshal data).wrap "invalid data"
  else .ok (newPacket addr)

/-! ### Acknowledgements -/

/-- `CIFACK`. -/
structure CIFACK where
  isLite : Bool := false
  isSmall : Bool := false
  lastACKPacketSequenceNumber : Number := { max := 0, threshold := 0, value := 0 }
  /-- In microseconds. -/
  rtt : UInt32 := 0
  rttVar : UInt32 := 0
  availableBufferSize : UInt32 := 0
  packetsReceivingRate : UInt32 := 0
  estimatedLinkCapacity : UInt32 := 0
  receivingRate : UInt32 := 0
  deriving DecidableEq, Repr

namespace CIFACK

/-- The number in the first word. -/
def number (data : Bytes) : Go Number := do
  let n ← orPanic (uint32 data 0)
  return Number.new (n &&& maxSequenceNumber) maxSequenceNumber

/-- `Unmarshal` into a fresh value. -/
def unmarshal (data : Bytes) : Go CIFACK :=
  if data.length = 4 then do
    let n ← number data
    return { isLite := true, lastACKPacketSequenceNumber := n }
  else if data.length = 16 then do
    let n ← number data
    let rtt ← orPanic (uint32 data 4)
    let rttVar ← orPanic (uint32 data 8)
    let availableBufferSize ← orPanic (uint32 data 12)
    return {
      isSmall := true
      lastACKPacketSequenceNumber := n
      rtt := rtt
      rttVar := rttVar
      availableBufferSize := availableBufferSize }
  else if data.length < 28 then Go.err "data too short to unmarshal"
  else do
    let n ← number data
    let rtt ← orPanic (uint32 data 4)
    let rttVar ← orPanic (uint32 data 8)
    let availableBufferSize ← orPanic (uint32 data 12)
    let packetsReceivingRate ← orPanic (uint32 data 16)
    let estimatedLinkCapacity ← orPanic (uint32 data 20)
    let receivingRate ← orPanic (uint32 data 24)
    return {
      lastACKPacketSequenceNumber := n
      rtt := rtt
      rttVar := rttVar
      availableBufferSize := availableBufferSize
      packetsReceivingRate := packetsReceivingRate
      estimatedLinkCapacity := estimatedLinkCapacity
      receivingRate := receivingRate }

/-- `Marshal`. The kind says how much of the 28 bytes is written. -/
def marshal (c : CIFACK) : Bytes :=
  let buffer := be32 c.lastACKPacketSequenceNumber.val ++ be32 c.rtt ++ be32 c.rttVar ++
    be32 c.availableBufferSize ++ be32 c.packetsReceivingRate ++ be32 c.estimatedLinkCapacity ++
    be32 c.receivingRate
  if c.isLite then buffer.take 4
  else if c.isSmall then buffer.take 16
  else buffer

end CIFACK

/-- `CIFShutdown.Marshal`. The message has no fields. -/
def CIFShutdown.marshal : Bytes := be32 0

/-! ### Loss reports -/

/-- `MAX_PAYLOAD_SIZE` of the package `packet`. -/
def maxPacketPayload : Nat := 1456

/-- `CIFNAK`. -/
structure CIFNAK where
  lostPacketSequenceNumber : List Number
  deriving DecidableEq, Repr

namespace CIFNAK

/-- The loop of `Unmarshal`. A number that does not end a range is a range of its own. -/
def unmarshalLoop (isRange : Bool) : Bytes → List Number
  | a :: b :: c :: d :: rest =>
    let sequenceNumber :=
      Number.new (uint32OfBytes a b c d &&& maxSequenceNumber) maxSequenceNumber
    if a &&& 0b10000000 = 0 then
      (if isRange then [sequenceNumber] else [sequenceNumber, sequenceNumber]) ++
        unmarshalLoop false rest
    else sequenceNumber :: unmarshalLoop true rest
  | _ => []

/-- `Unmarshal`. -/
def unmarshal (sort : SortSlice) (data : Bytes) : Go CIFNAK :=
  if data.length % 4 ≠ 0 then Go.err "data has wrong length to unmarshal"
  else
    let numbers := unmarshalLoop false data
    if numbers.length % 2 ≠ 0 then Go.err "data too short to unmarshal"
    else .ok { lostPacketSequenceNumber := sort.sort Number.lt numbers }

/-- The bytes of one range. The comparison is Go's `==` on the whole `circular.Number`. -/
def entry (lo hi : Number) : Bytes :=
  if lo = hi then be32 lo.val else be32 (lo.val ||| 0x80000000) ++ be32 hi.val

/-- The loop of `Marshal`. It ends after the range that fills the packet. -/
def marshalLoop (bytesWritten : Nat) : List Number → Bytes
  | lo :: hi :: rest =>
    let bytesWritten := bytesWritten + (entry lo hi).length
    if bytesWritten ≥ maxPacketPayload - 4 then entry lo hi
    else entry lo hi ++ marshalLoop bytesWritten rest
  | _ => []

/-- `Marshal`. -/
def marshal (c : CIFNAK) : Go Bytes :=
  if c.lostPacketSequenceNumber.length % 2 ≠ 0 then
    Go.err "invalid length of lost packet sequence numbers"
  else .ok (marshalLoop 0 c.lostPacketSequenceNumber)

/-- The ranges that the loop of `Marshal` writes before it ends. -/
def written (bytesWritten : Nat) : List Number → List Number
  | lo :: hi :: rest =>
    let bytesWritten := bytesWritten + (entry lo hi).length
    if bytesWritten ≥ maxPacketPayload - 4 then [lo, hi]
    else lo :: hi :: written bytesWritten rest
  | _ => []

/-- The number is in one of the ranges. -/
def covers (n : Number) : List Number → Bool
  | lo :: hi :: rest => (n.gte lo && n.lte hi) || covers n rest
  | _ => false

end CIFNAK

end Gosrt
