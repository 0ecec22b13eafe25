import Gosrt.Lib.Buffer
import Gosrt.Lib.Run
import Gosrt.Spec.Config
import Gosrt.Spec.Packet

/-!
# `Gosrt.Spec.ReadWrite`: the byte stream of a connection (`connection.go`)

`Write` puts its bytes into `writeBuffer` and then takes them out again in pieces of the length of
`writeData`, one packet for each piece. Each packet is offered to `writeQueue` without waiting. What
the queue and the context do is an input: a `Turn` is one pass of the loop, and `accepted` says
whether the packet went into the queue. A loop that does not end within the turns it is given is
`unfinished`.

`deliver` offers a packet to `readQueue`, also without waiting. `Read` takes a packet from there and
hands it out in pieces through `readBuffer`. Where the context is done and there is a packet,
`select` may take either, so this choice is an input.

`Writing` and `Reading` are the two directions over time.
-/

set_option autoImplicit false

namespace Gosrt

open Lib

/-- The error of a closed connection and of an empty buffer. -/
def eof : Fault := .error "EOF"

/-! ### Writing -/

/-- The length of `writeData`. -/
def writeDataLength (version : UInt32) (config : Config) : Nat :=
  -- A multiple of an MPEG-TS chunk, which is what the receiver of libsrt 1.2.3 takes.
  if version = 4 then (config.payloadSize / 188 * 188).toNat
  else config.payloadSize.toNat

/-- One pass of the loop of `Write`: the time, and whether the write queue takes the packet. -/
structure Turn where
  timestamp : UInt64
  accepted : Bool
  deriving DecidableEq, Repr

/-- The packet for a piece of the data. -/
def dataPacket (data : Bytes) (timestamp : UInt64) : Packet :=
  let p := newPacket none
  { header := { p.header with isControlPacket := false, pktTsbpdTime := timestamp }
    payload := data }

/-- The loop of `Write` on what is in the write buffer: the packets that went into the queue, the
buffer afterwards, and how the loop ended. -/
def writeLoop (size : Nat) : List Turn → Bytes → List Packet × Bytes × Buffer.Outcome
  | [], writeBuffer => ([], writeBuffer, .unfinished)
  | turn :: turns, writeBuffer =>
    match Buffer.read size writeBuffer with
    | none => ([], writeBuffer, .ended)
    | some (data, writeBuffer) =>
      let p := dataPacket data turn.timestamp
      if !turn.accepted then ([], writeBuffer, .refused)
      else if writeBuffer.isEmpty then ([p], writeBuffer, .emptied)
      else
        let (ps, writeBuffer, outcome) := writeLoop size turns writeBuffer
        (p :: ps, writeBuffer, outcome)

/-- The result of a call: what went into the queue, the buffer afterwards, and what is returned. -/
structure Written where
  enqueued : List Packet
  writeBuffer : Bytes
  result : Go Nat
  deriving DecidableEq, Repr

/-- `Write`. `none` where the loop does not end within its turns. -/
def write (size : Nat) (writeBuffer b : Bytes) (turns : List Turn) : Option Written :=
  match writeLoop size turns (writeBuffer ++ b) with
  | (_, _, .unfinished) => none
  | (ps, _, .emptied) => some ⟨ps, [], .ok b.length⟩
  | (ps, writeBuffer, _) => some ⟨ps, writeBuffer, .error eof⟩

/-- `WritePacket`. A control packet is ignored. -/
def writePacket (size : Nat) (writeBuffer : Bytes) (p : Packet) (turns : List Turn) :
    Option Written :=
  if p.header.isControlPacket then some ⟨[], writeBuffer, .ok 0⟩
  else write size writeBuffer p.payload turns

namespace Writing

/-- A call, with the turns of its loop. -/
inductive Call where
  | write (b : Bytes) (turns : List Turn)
  | writePacket (p : Packet) (turns : List Turn)
  deriving DecidableEq, Repr

/-- The bytes of the call. A control packet brings none. -/
def Call.bytes : Call → Bytes
  | .write b _ => b
  | .writePacket p _ => if p.header.isControlPacket then [] else p.payload

def Call.turns : Call → List Turn
  | .write _ turns | .writePacket _ turns => turns

def perform (size : Nat) (writeBuffer : Bytes) : Call → Option Written
  | .write b turns => Gosrt.write size writeBuffer b turns
  | .writePacket p turns => Gosrt.writePacket size writeBuffer p turns

/-- The write buffer from call to call. -/
def step (size : Nat) (writeBuffer : Bytes) (call : Call) : Option Bytes :=
  (perform size writeBuffer call).map Written.writeBuffer

/-- A call that succeeds has put exactly its bytes into the queue, in packets that are not too
large. A call that fails has left none of its bytes in the buffer. -/
def Consistent (size : Nat) (writeBuffer : Bytes) (call : Call) : Prop :=
  ∀ w, perform size writeBuffer call = some w →
    match w.result with
    | .ok n => n = call.bytes.length ∧ (w.enqueued.map Packet.payload).flatten = call.bytes ∧
        ∀ p ∈ w.enqueued, p.payload.length ≤ size
    | .error _ => call.bytes = [] ∨ w.writeBuffer = []

/-- The first packet that the queue refuses is the last one of the call. -/
def NotCut (size : Nat) (call : Call) : Prop :=
  ∀ k, Buffer.FirstRefusal (call.turns.map Turn.accepted) k → call.bytes.length ≤ (k + 1) * size

end Writing

/-! ### Reading -/

/-- The capacity of `readQueue`. -/
def readQueueCapacity : Nat := 1024

/-- The part of a connection that `deliver` and `Read` use. -/
structure ReadSide where
  readQueue : List Packet
  readBuffer : Bytes
  expectedReadPacketSequenceNumber : Number
  /-- The context is done. -/
  done : Bool
  deriving DecidableEq, Repr

namespace ReadSide

/-- `newSRTConn`. -/
def new (initialPacketSequenceNumber : Number) : ReadSide where
  readQueue := []
  readBuffer := []
  expectedReadPacketSequenceNumber := initialPacketSequenceNumber
  done := false

/-- `deliver` on an open connection. A packet for which there is no room is dropped. -/
def deliver (c : ReadSide) (p : Packet) : ReadSide :=
  if c.readQueue.length < readQueueCapacity then { c with readQueue := c.readQueue ++ [p] } else c

/-- The end of `ReadPacket`, with a packet from the queue. A packet that is out of order is gone. -/
def takePacket (c : ReadSide) (p : Packet) : ReadSide × Go Packet :=
  if p.seq.lt c.expectedReadPacketSequenceNumber then (c, .error eof)
  else ({ c with expectedReadPacketSequenceNumber := p.seq.inc }, .ok p)

/-- `ReadPacket`. `none` while it waits. `fromQueue` is the choice of `select` where both are
possible. -/
def readPacket (c : ReadSide) (fromQueue : Bool) : Option (ReadSide × Go Packet) :=
  match c.readQueue with
  | [] => if c.done then some (c, .error eof) else none
  | p :: readQueue =>
    if c.done && !fromQueue then some (c, .error eof)
    else some ({ c with readQueue := readQueue }.takePacket p)

/-- `readBuffer.Read` into a slice of `n` bytes. -/
def readBytes (c : ReadSide) (n : Nat) : ReadSide × Go Bytes :=
  match Buffer.read n c.readBuffer with
  | none => (c, .error eof)
  | some (data, readBuffer) => ({ c with readBuffer := readBuffer }, .ok data)

/-- `Read` into a slice of `n` bytes: the bytes, or the error. -/
def read (c : ReadSide) (n : Nat) (fromQueue : Bool) : Option (ReadSide × Go Bytes) :=
  if c.readBuffer.length ≠ 0 then some (c.readBytes n)
  else do
    let (c, p) ← c.readPacket fromQueue
    match p with
    | .error e => return (c, .error e)
    | .ok p => return { c with readBuffer := p.payload }.readBytes n

end ReadSide

/-- A connection that is read from, with what was delivered to it, what `Read` took from the queue,
and the bytes that it returned. -/
structure Reading where
  conn : ReadSide
  delivered : List Packet
  taken : List Packet
  returned : Bytes
  deriving DecidableEq, Repr

namespace Reading

inductive Event where
  /-- The receiver delivers a packet. -/
  | deliver (p : Packet)
  /-- The application reads into a slice of `n` bytes. -/
  | read (n : Nat) (fromQueue : Bool)
  /-- The connection is closed. -/
  | close
  deriving DecidableEq, Repr

def init (initialPacketSequenceNumber : Number) : Reading where
  conn := ReadSide.new initialPacketSequenceNumber
  delivered := []
  taken := []
  returned := []

/-- The bytes of packets. -/
def payloads (ps : List Packet) : Bytes := (ps.map Packet.payload).flatten

/-- The packets that are no longer in the queue. -/
def removed (before after : ReadSide) : List Packet :=
  before.readQueue.take (before.readQueue.length - after.readQueue.length)

/-- A packet is delivered to an open connection only. A `Read` that waits does not happen yet. -/
def step (s : Reading) : Event → Option Reading
  | .deliver p =>
    if s.conn.done then none
    else some { s with conn := s.conn.deliver p, delivered := s.delivered ++ [p] }
  | .read n fromQueue => do
    let (conn, result) ← s.conn.read n fromQueue
    return {
      conn := conn
      delivered := s.delivered
      taken := s.taken ++ removed s.conn conn
      returned := s.returned ++ result.toOption.getD [] }
  | .close => some { s with conn := { s.conn with done := true } }

/-- Nothing is lost, repeated or out of order between the packets that were delivered and the bytes
that were returned. -/
structure Intact (s : Reading) : Prop where
  packets : s.taken ++ s.conn.readQueue = s.delivered
  bytes : s.returned ++ s.conn.readBuffer = payloads s.taken
  stream : s.returned <+: payloads s.delivered

/-- The end of the stream is reported on a closed connection only. -/
def EndsWhenDone (s : Reading) : Event → Prop
  | .read n fromQueue =>
    ∀ conn e, s.conn.read n fromQueue = some (conn, .error e) → s.conn.done = true
  | _ => True

/-- The step leaves the stream intact, and reports its end rightly. -/
def Streams (s : Reading) (e : Event) : Prop :=
  (∀ s', step s e = some s' → s'.Intact) ∧ s.EndsWhenDone e

/-- There is room for a packet that is delivered. -/
def HasRoom (c : ReadSide) : Prop := c.done = false → c.readQueue.length < readQueueCapacity

/-- The packet that a `Read` takes from the queue. -/
def next (c : ReadSide) (fromQueue : Bool) : Option Packet :=
  if c.readBuffer = [] ∧ (c.done && !fromQueue) = false then c.readQueue.head? else none

/-- There is room for each packet that is delivered. Each packet that `Read` takes is not before the
expected one, and it has a payload. A closed connection may also take an empty packet, and a read
of no bytes does not miss a payload. -/
def Smooth (s : Reading) : Event → Prop
  | .deliver _ => HasRoom s.conn
  | .read n fromQueue =>
    ∀ p, next s.conn fromQueue = some p →
      (p.seq.lt s.conn.expectedReadPacketSequenceNumber = false ∨
        p.payload = [] ∧ s.conn.done = true) ∧
      (p.payload ≠ [] ∨ s.conn.done = true ∨ n = 0)
  | .close => True

/-- There is room for each packet that is delivered, and each packet that `Read` takes from an open
connection has a payload. -/
def Filled (s : Reading) : Event → Prop
  | .deliver _ => HasRoom s.conn
  | .read n fromQueue =>
    ∀ p, next s.conn fromQueue = some p → p.payload ≠ [] ∨ s.conn.done = true ∨ n = 0
  | .close => True

/-- The packets are delivered in order: the first one is not before the expected number, and each
other one not before the number after the last one. -/
def InOrder : Number → List Event → Prop
  | _, [] => True
  | expected, .deliver p :: events => p.seq.lt expected = false ∧ InOrder p.seq.inc events
  | expected, _ :: events => InOrder expected events

end Reading

end Gosrt
