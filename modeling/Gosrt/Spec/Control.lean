import Gosrt.Spec.Handle

/-!
# `Gosrt.Spec.Control`: the control packets that a connection makes (`connection.go`)

`sendShutdown`, `sendNAK`, `sendACK` and `sendHSRequest` each make a packet with `NewPacket`, fill
in the header, write a message into the payload, and call `pop`, which only adds the addresses.
`controlPacket` is what they share. `sendACKACK` and `sendKMRequest` are with the code that calls
them (`Gosrt.Spec.Handle`, `Gosrt.Spec.Connection`).

The clock is an input, and so is what the source keeps in floating point: the estimates of the
round trip time and of the rates.
-/

set_option autoImplicit false

namespace Gosrt

open Lib

/-- The estimates in a full ACK. -/
structure AckReport where
  rtt : UInt32
  rttVar : UInt32
  packetsReceivingRate : UInt32
  estimatedLinkCapacity : UInt32
  receivingRate : UInt32
  deriving DecidableEq, Repr, Inhabited

namespace SrtConn

/-- A control packet as `pop` hands it to `onSend`. -/
def controlPacket (c : SrtConn) (controlType : CtrlType) (subType : CtrlSubType)
    (typeSpecific timestamp : UInt32) (payload : Bytes) : Packet :=
  let p := newPacket c.remoteAddr
  c.address
    { header := { p.header with
        isControlPacket := true
        controlType := controlType
        subType := subType
        typeSpecific := typeSpecific
        timestamp := timestamp }
      payload := payload }

/-- `sendShutdown`. -/
def sendShutdown (c : SrtConn) (timestamp : UInt32) : Packet :=
  c.controlPacket .shutdown .none 0 timestamp CIFShutdown.marshal

/-- `sendNAK`. The source ignores the error of `MarshalCIF`, which leaves the payload empty. -/
def sendNAK (c : SrtConn) (list : List Number) (timestamp : UInt32) : Packet :=
  c.controlPacket .nak .none 0 timestamp
    ((CIFNAK.marshal { lostPacketSequenceNumber := list }).toOption.getD [])

/-- The message of `sendHSRequest`. The latency that is announced for what this end sends is the
configured one for what it receives. -/
def hsRequestCIF (c : SrtConn) : CIFHandshakeExtension where
  srtVersion := 0x00010203
  srtFlags :=
    { tsbpdsnd := true
      tsbpdrcv := false
      crypt := true
      tlpktdrop := true
      periodicnak := false
      rexmitflg := true
      stream := false
      packetFilter := false }
  recvTSBPDDelay := 0
  sendTSBPDDelay := c.config.receiverLatency.ms16

/-- `sendHSRequest`. -/
def sendHSRequest (c : SrtConn) (timestamp : UInt32) : Packet :=
  c.controlPacket .user .hsreq 0 timestamp c.hsRequestCIF.marshal

end SrtConn

namespace Connection

/-- The message of `sendACK`. A light ACK has the number only. -/
def ackCIF (c : Connection) (seq : Number) (lite : Bool) (report : AckReport) : CIFACK :=
  if lite then { isLite := true, lastACKPacketSequenceNumber := seq }
  else
    { lastACKPacketSequenceNumber := seq
      rtt := report.rtt
      rttVar := report.rttVar
      availableBufferSize := c.conn.config.fc
      packetsReceivingRate := report.packetsReceivingRate
      estimatedLinkCapacity := report.estimatedLinkCapacity
      receivingRate := report.receivingRate }

/-- `sendACK`: the connection afterwards and the packet. A full ACK takes the next ACK number. -/
def sendACK (c : Connection) (seq : Number) (lite : Bool) (report : AckReport)
    (timestamp : UInt32) (now : Int) : Connection × Packet :=
  (if lite then c else c.noteACK now,
    c.conn.controlPacket .ack .none (if lite then 0 else c.nextACKNumber.val) timestamp
      (c.ackCIF seq lite report).marshal)

end Connection

end Gosrt
