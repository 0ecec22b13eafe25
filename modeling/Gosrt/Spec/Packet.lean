import Gosrt.Spec.Circular

/-!
# `Gosrt.Spec.Packet`: SRT packets (`packet/packet.go`)

The packet header and its payload. A control packet and a data packet share one header
type, as in the source; `isControlPacket` says which fields count. The payload buffer is a
list of bytes. `Decommission` hands it back to a pool and leaves the packet without one, so
that a later `MarshalCIF` panics. A packet of this model keeps its bytes. Where the listener
answers a handshake with a packet that it has sent before, the panic is in `Listener.refuse`.

`PacketPosition` and `PacketEncryption` are two-bit fields on the wire. The source stores
them in a `uint` and only ever fills them from two bits or from the four constants, so they
are enumerations of four values. Control types, control subtypes and handshake types carry
arbitrary values from the wire, so they stay integers with named constants.
-/

set_option autoImplicit false

namespace Gosrt

/-- A byte slice. -/
abbrev Bytes := List UInt8

/-- `MAX_SEQUENCENUMBER`. -/
def maxSequenceNumber : UInt32 := 0x7FFFFFFF

/-- A sequence number that keeps its form on the wire. -/
def Number.IsSequenceNumber (n : Number) : Prop :=
  Number.new (n.val &&& maxSequenceNumber) maxSequenceNumber = n

instance (n : Number) : Decidable n.IsSequenceNumber :=
  inferInstanceAs (Decidable (_ = _))

/-- `MAX_TIMESTAMP`. -/
def maxTimestamp : UInt32 := 0xFFFFFFFF

/-- `CtrlType`. -/
abbrev CtrlType := UInt16

namespace CtrlType

def handshake : CtrlType := 0x0000
def keepalive : CtrlType := 0x0001
def ack : CtrlType := 0x0002
def nak : CtrlType := 0x0003
def shutdown : CtrlType := 0x0005
def ackack : CtrlType := 0x0006
def user : CtrlType := 0x7FFF

end CtrlType

/-- `CtrlSubType`: the subtype of a user control packet, and the type of a handshake
extension. -/
abbrev CtrlSubType := UInt16

namespace CtrlSubType

def none : CtrlSubType := 0
def hsreq : CtrlSubType := 1
def hsrsp : CtrlSubType := 2
def kmreq : CtrlSubType := 3
def kmrsp : CtrlSubType := 4
def sid : CtrlSubType := 5
def congestion : CtrlSubType := 6
def filter : CtrlSubType := 7
def group : CtrlSubType := 8

/-- `CtrlSubType.String`. -/
def string (h : CtrlSubType) : String :=
  if h = none then "NONE"
  else if h = hsreq then "EXTTYPE_HSREQ"
  else if h = hsrsp then "EXTTYPE_HSRSP"
  else if h = kmreq then "EXTTYPE_KMREQ"
  else if h = kmrsp then "EXTTYPE_KMRSP"
  else if h = sid then "EXTTYPE_SID"
  else if h = congestion then "EXTTYPE_CONGESTION"
  else if h = filter then "EXTTYPE_FILTER"
  else if h = group then "EXTTYPE_GROUP"
  else "unknown"

end CtrlSubType

/-- `PacketPosition`: the place of a data packet in its message. -/
inductive PacketPosition where
  | middlePacket
  | lastPacket
  | firstPacket
  | singlePacket
  deriving DecidableEq, Repr, Inhabited

/-- `PacketEncryption`: which keys a packet or a key material message names. -/
inductive PacketEncryption where
  | unencryptedPacket
  | evenKeyEncrypted
  | oddKeyEncrypted
  | evenAndOddKey
  deriving DecidableEq, Repr, Inhabited

/-- `PacketEncryption.Opposite`. -/
def PacketEncryption.opposite : PacketEncryption → PacketEncryption
  | .evenKeyEncrypted => .oddKeyEncrypted
  | .oddKeyEncrypted => .evenKeyEncrypted
  | p => p

@[simp] theorem PacketEncryption.opposite_opposite (key : PacketEncryption) :
    key.opposite.opposite = key := by
  cases key <;> rfl

/-- `PacketHeader`. An address is its `String()` form; `none` is Go's `nil`. -/
structure PacketHeader where
  addr : Option String
  localAddr : Option String
  isControlPacket : Bool
  /-- In microseconds. -/
  pktTsbpdTime : UInt64
  controlType : CtrlType
  subType : CtrlSubType
  typeSpecific : UInt32
  packetSequenceNumber : Number
  packetPositionFlag : PacketPosition
  orderFlag : Bool
  keyBaseEncryptionFlag : PacketEncryption
  retransmittedPacketFlag : Bool
  messageNumber : UInt32
  timestamp : UInt32
  destinationSocketId : UInt32
  deriving DecidableEq, Repr, Inhabited

/-- `pkt`: a header and the bytes of its payload. -/
structure Packet where
  header : PacketHeader
  payload : Bytes
  deriving DecidableEq, Repr, Inhabited

/-- `NewPacket`. -/
def newPacket (addr : Option String) : Packet where
  header :=
    { addr := addr
      localAddr := none
      isControlPacket := false
      pktTsbpdTime := 0
      controlType := 0
      subType := 0
      typeSpecific := 0
      packetSequenceNumber := Number.new 0 maxSequenceNumber
      packetPositionFlag := .singlePacket
      orderFlag := false
      keyBaseEncryptionFlag := .unencryptedPacket
      retransmittedPacketFlag := false
      messageNumber := 1
      timestamp := 0
      destinationSocketId := 0 }
  payload := []

namespace Packet

/-- `Packet.Len`. -/
def len (p : Packet) : UInt64 := UInt64.ofNat p.payload.length

/-- The sequence number of a data packet. -/
def seq (p : Packet) : Number := p.header.packetSequenceNumber

/-- What identifies a data packet to the application: its sequence number and payload. -/
def label (p : Packet) : Number × Bytes := (p.seq, p.payload)

end Packet

end Gosrt
