import Gosrt.Proofs.Wire
import Gosrt.Spec.Endpoint

/-!
# `Gosrt.Proofs.Endpoint.Wire`: datagrams between two connections

The socket reads a datagram into a buffer of a fixed length and cuts off the rest. The header is in
the first 16 bytes, so a shorter buffer only costs bytes of the payload (`marshal_take`). What the
other end gets from a control packet is its header and the start of its payload, and what it gets
from a data packet that fits is the whole packet.

`CIFACK.unmarshal_marshal` is the round trip of the message in an ACK.
-/

set_option autoImplicit false

namespace Gosrt

open Lib

namespace Packet

/-- The packet with a payload that is cut off. -/
def cut (n : Nat) (p : Packet) : Packet := { p with payload := p.payload.take n }

/-- The bytes of the header. -/
def headerBytes (p : Packet) : Bytes :=
  (if p.header.isControlPacket then p.header.marshalControl else p.header.marshalData) ++
    be32 p.header.timestamp ++ be32 p.header.destinationSocketId

theorem marshal_eq (p : Packet) : p.marshal = p.headerBytes ++ p.payload := rfl

theorem length_headerBytes (p : Packet) : p.headerBytes.length = 16 := by
  unfold headerBytes
  split
  · rfl
  · rfl

theorem length_marshal (p : Packet) : p.marshal.length = 16 + p.payload.length := by
  rw [marshal_eq, List.length_append, length_headerBytes]

/-- A datagram that is cut off behind the header. -/
theorem marshal_take {n : Nat} (hn : 16 ≤ n) (p : Packet) :
    p.marshal.take n = (p.cut (n - 16)).marshal := by
  rw [marshal_eq, marshal_eq, List.take_append, length_headerBytes,
    List.take_of_length_le (by rw [length_headerBytes]; exact hn)]
  rfl

end Packet

namespace Endpoint

section
variable {e : Endpoint} {p : Packet}

/-- The peer decodes what it read into its buffer, which cuts longer datagrams. -/
theorem decode_marshal (hsize : 16 ≤ e.readSize) :
    e.decode p.marshal = Go.wrap "invalid data"
      ((newPacket e.conn.remoteAddr).unmarshal (p.cut (e.readSize - 16)).marshal) := by
  unfold decode newPacketFromData
  rw [Packet.marshal_take hsize, if_pos]
  rw [Packet.length_marshal]
  omega

/-- A control packet arrives with its header and the start of its payload. -/
theorem decode_control (hsize : 16 ≤ e.readSize) (hcontrol : p.header.isControlPacket = true)
    (hrange : p.header.controlType < 0x8000) :
    ∃ r, e.decode p.marshal = .ok r ∧ (p.cut (e.readSize - 16)).Restores r := by
  obtain ⟨r, hr, hrestores⟩ :=
    Packet.restores_control _ (p.cut (e.readSize - 16)) hcontrol hrange
  exact ⟨r, (decode_marshal hsize).trans (wrap_eq_ok_iff.mpr hr), hrestores⟩

/-- A data packet for which the buffer is long enough arrives as a whole. -/
theorem decode_data (hcontrol : p.header.isControlPacket = false)
    (hseq : p.seq.val ≤ maxSequenceNumber) (hrange : p.header.messageNumber < 0x04000000)
    (hsize : p.payload.length + 16 ≤ e.readSize) :
    ∃ r, e.decode p.marshal = .ok r ∧ p.Restores r := by
  have hcut : p.cut (e.readSize - 16) = p := by
    unfold Packet.cut
    rw [List.take_of_length_le (by omega)]
  obtain ⟨r, hr, hrestores⟩ := Packet.restores_data _ p hcontrol hseq hrange
  refine ⟨r, ?_, hrestores⟩
  rw [decode_marshal (by omega), hcut]
  exact wrap_eq_ok_iff.mpr hr

end

end Endpoint

/-! ### Acknowledgements -/

namespace CIFACK

/-- What the bytes of the message carry. -/
def carried (c : CIFACK) : CIFACK :=
  if c.isLite then
    { isLite := true, lastACKPacketSequenceNumber := c.lastACKPacketSequenceNumber }
  else if c.isSmall then
    { isSmall := true
      lastACKPacketSequenceNumber := c.lastACKPacketSequenceNumber
      rtt := c.rtt
      rttVar := c.rttVar
      availableBufferSize := c.availableBufferSize }
  else { c with isLite := false, isSmall := false }

section
variable (c : CIFACK)

theorem carried_number :
    c.carried.lastACKPacketSequenceNumber = c.lastACKPacketSequenceNumber := by
  unfold carried
  split
  · rfl
  split
  · rfl
  · rfl

/-- All 28 bytes. -/
def buffer : Bytes :=
  be32 c.lastACKPacketSequenceNumber.val ++ be32 c.rtt ++ be32 c.rttVar ++
    be32 c.availableBufferSize ++ be32 c.packetsReceivingRate ++ be32 c.estimatedLinkCapacity ++
    be32 c.receivingRate

theorem length_buffer : c.buffer.length = 28 := rfl

theorem marshal_eq : c.marshal =
    if c.isLite then c.buffer.take 4 else if c.isSmall then c.buffer.take 16 else c.buffer := rfl

/-- A message has at most 28 bytes. -/
theorem length_marshal_le : c.marshal.length ≤ 28 := by
  rw [marshal_eq]
  split
  · exact List.length_take_le' 4 c.buffer
  split
  · exact List.length_take_le' 16 c.buffer
  · exact Nat.le_of_eq c.length_buffer

/-- The words of the buffer. -/
theorem uint32_buffer :
    uint32 c.buffer 0 = some c.lastACKPacketSequenceNumber.val ∧
      uint32 c.buffer 4 = some c.rtt ∧ uint32 c.buffer 8 = some c.rttVar ∧
      uint32 c.buffer 12 = some c.availableBufferSize ∧
      uint32 c.buffer 16 = some c.packetsReceivingRate ∧
      uint32 c.buffer 20 = some c.estimatedLinkCapacity ∧
      uint32 c.buffer 24 = some c.receivingRate :=
  ⟨congrArg some (uint32OfBytes_be32 _), congrArg some (uint32OfBytes_be32 _),
    congrArg some (uint32OfBytes_be32 _), congrArg some (uint32OfBytes_be32 _),
    congrArg some (uint32OfBytes_be32 _), congrArg some (uint32OfBytes_be32 _),
    congrArg some (uint32OfBytes_be32 _)⟩

variable {c}

/-- The first word of the buffer is read as the number, also where the rest is cut off. -/
theorem number_buffer (h : c.lastACKPacketSequenceNumber.IsSequenceNumber) (n : Nat)
    (hn : uint32 (c.buffer.take n) 0 = uint32 c.buffer 0) :
    number (c.buffer.take n) = .ok c.lastACKPacketSequenceNumber := by
  unfold number
  rw [hn, c.uint32_buffer.1, orPanic_some, ok_bind]
  exact congrArg Except.ok h

/-- `Unmarshal` reads back what `Marshal` writes. -/
theorem unmarshal_marshal (h : c.lastACKPacketSequenceNumber.IsSequenceNumber) :
    unmarshal c.marshal = .ok c.carried := by
  obtain ⟨-, h4, h8, h12, h16, h20, h24⟩ := c.uint32_buffer
  rw [marshal_eq]
  unfold carried
  cases c.isLite with
  | true =>
    rw [if_pos rfl, if_pos rfl]
    show (number (c.buffer.take 4) >>= fun n => _) = _
    rw [number_buffer h 4 rfl, ok_bind]
    rfl
  | false =>
    rw [if_neg Bool.false_ne_true, if_neg Bool.false_ne_true]
    cases c.isSmall with
    | true =>
      rw [if_pos rfl, if_pos rfl]
      show (number (c.buffer.take 16) >>= fun n => orPanic (uint32 c.buffer 4) >>= fun rtt =>
        orPanic (uint32 c.buffer 8) >>= fun rttVar => orPanic (uint32 c.buffer 12) >>= fun n => _)
        = _
      simp only [number_buffer h 16 rfl, h4, h8, h12, orPanic_some, ok_bind]
      rfl
    | false =>
      have hnumber := number_buffer h 28 rfl
      rw [List.take_of_length_le (Nat.le_of_eq c.length_buffer)] at hnumber
      rw [if_neg Bool.false_ne_true, if_neg Bool.false_ne_true]
      unfold unmarshal
      simp only [c.length_buffer, hnumber, h4, h8, h12, h16, h20, h24, orPanic_some, ok_bind]
      rfl

end

end CIFACK

end Gosrt
