import Gosrt.Lib.Channel
import Gosrt.Lib.Pair
import Gosrt.Spec.Control
import Gosrt.Spec.Latency
import Gosrt.Spec.Live.Receive
import Gosrt.Spec.Live.Send
import Gosrt.Spec.ReadWrite

/-!
# `Gosrt.Spec.Endpoint`: a whole connection, from `Write` to the wire and back (`connection.go`)

An `Endpoint` is an `srtConn` with its queues, its congestion control and its goroutines. The
application calls `Write`, `Read` and `ReadPacket`. `writeQueueReader` gives the packets to the
sender, `ticker` calls `Tick` of the sender and of the receiver, whose parts are separate steps, and
`networkQueueReader` gives what came from the network to `handlePacket`. What is handed to `onSend`
leaves as the bytes that `Marshal` writes.

Packets are pointers in the source. `pop` works on the packet that the sender keeps in its loss
list, so the loss list holds the packets as `pop` left them: `popDue` and `resend` put the packet
back that `pop` returns.

`close` runs once, in several steps, and other goroutines go on between them. After the context is
cancelled, a `select` may still take the other case, so this choice is an input. An idle
connection calls `close` too; when its timer fires is not part of the model.

`stopHSRequests` and `stopKMRequests` are function values that are set for a version 4 caller only.
A call of an unset one is a panic, and the step cannot happen.

The fields under `history` are for the statements about runs. No step reads them.
-/

set_option autoImplicit false

namespace Gosrt

open Lib

/-- How far `close` has come. -/
inductive Stage where
  | running
  /-- The shutdown message is sent. -/
  | announced
  /-- The context is cancelled. -/
  | cancelled
  /-- The sender is flushed. -/
  | flushing
  | closed
  deriving DecidableEq, Repr

/-- The requests of a version 4 caller: `sendHSRequests` and `sendKMRequests` send one each, unless
they are stopped before. -/
inductive Requests where
  /-- There is no such goroutine, and the function value that stops it is not set. -/
  | unset
  | waiting
  | finished
  deriving DecidableEq, Repr

/-- The function value that stops the requests is called. -/
def Requests.stop : Requests → Option Requests
  | .unset => none
  | .waiting | .finished => some .finished

/-- What became of the data. -/
structure History where
  /-- The packets that `Write` put into the queue. -/
  enqueued : List Packet := []
  /-- The packets given to `snd.Push`. -/
  pushed : List Packet := []
  /-- How often a data packet was given to `pop`. -/
  popped : Nat := 0
  /-- The packets that `snd.ACK` removed. -/
  freed : List Packet := []
  /-- The packets given to `recv.Push`. -/
  arrived : List Packet := []
  /-- The time and the receive buffer at each ACK part of `recv.Tick`. -/
  ticks : List (UInt64 × List Packet) := []
  /-- The packets given to `deliver`. -/
  delivered : List Packet := []
  /-- The bytes that `Read` returned. -/
  returned : Bytes := []
  /-- The packets that `ReadPacket` returned. -/
  packets : List Packet := []
  deriving DecidableEq, Repr

/-- An end of a connection, with its queues and its history. -/
structure Endpoint where
  connection : Connection
  hsRequests : Requests
  kmRequests : Requests
  writeBuffer : Bytes
  writeQueue : List Packet
  networkQueue : List Packet
  snd : Sender
  recv : Receiver
  reading : ReadSide
  stage : Stage
  /-- The length of the buffer that the socket reads into. -/
  readSize : Nat
  history : History

/-- The clock and the random generator, for one call of `pop`. -/
structure PopInput where
  timestamp : UInt32
  random : Entropy
  deriving DecidableEq, Repr, Inhabited

/-- The capacity of `networkQueue`. -/
def networkQueueCapacity : Nat := 1024

namespace SrtConn

/-- `pop` of one packet, as often as it is handed over: the connection and the packet afterwards,
the packets for `onSend`, and the inputs that are left. -/
def popTimes (prim : Primitives) (c : SrtConn) (p : Packet) :
    Nat → List PopInput → SrtConn × Packet × List Packet × List PopInput
  | 0, inputs => (c, p, [], inputs)
  | n + 1, inputs =>
    let input := inputs.headD default
    let (c, p, sent) := c.pop prim p input.timestamp input.random
    let (c, p, sent', inputs) := popTimes prim c p n inputs.tail
    (c, p, sent ++ sent', inputs)

/-- `pop` of each packet that `snd.Tick` hands over. -/
def popDue (prim : Primitives) (c : SrtConn) :
    List Packet → List PopInput → SrtConn × List Packet × List Packet
  | [], _ => (c, [], [])
  | p :: ps, inputs =>
    let (c, p, sent, inputs) := c.popTimes prim p 1 inputs
    let (c, ps, sent') := popDue prim c ps inputs
    (c, p :: ps, sent ++ sent')

/-- `pop` in the loop of `snd.NAK` over the loss list, back to front. `none` is the panic of the
inner loop. -/
def resend (prim : Primitives) (sequenceNumbers : List Number) (c : SrtConn) :
    List Packet → List PopInput → Option (SrtConn × List Packet × List Packet × List PopInput)
  | [], inputs => some (c, [], [], inputs)
  | p :: ps, inputs => do
    let (c, ps, sent, inputs) ← resend prim sequenceNumbers c ps inputs
    let hits ← Sender.nakHits p.seq sequenceNumbers
    let (c, p, sent', inputs) :=
      c.popTimes prim (if hits = 0 then p else Sender.retransmitted p) hits inputs
    return (c, p :: ps, sent ++ sent', inputs)

end SrtConn

/-- The bytes of the packets on the wire. -/
def datagrams (ps : List Packet) : List Bytes := ps.map Packet.marshal

namespace Endpoint

/-- `newSRTConn`. -/
def init (config : SrtConnConfig) (readSize : Nat) : Endpoint where
  connection := Connection.new config
  hsRequests := if config.version = 4 ∧ config.isCaller then .waiting else .unset
  kmRequests :=
    if config.version = 4 ∧ config.isCaller ∧ config.crypto.isSome then .waiting else .unset
  writeBuffer := []
  writeQueue := []
  networkQueue := []
  snd := newSender
    { initialSequenceNumber := config.initialPacketSequenceNumber
      dropThreshold := dropThreshold config.peerTsbpdDelay config.config }
  recv := newReceiver
    { initialSequenceNumber := config.initialPacketSequenceNumber
      periodicACKInterval := 10000
      periodicNAKInterval := 20000 }
  reading := ReadSide.new config.initialPacketSequenceNumber
  stage := .running
  readSize := readSize
  history := {}

/-- The part that sends. -/
def conn (e : Endpoint) : SrtConn := e.connection.conn

def withConn (e : Endpoint) (conn : SrtConn) : Endpoint :=
  { e with connection := { e.connection with conn := conn } }

/-- The length of `writeData`. -/
def writeSize (e : Endpoint) : Nat := writeDataLength e.conn.version e.conn.config

/-! ### The sender -/

/-- `Write` or `WritePacket`. `none` while it runs. -/
def write (e : Endpoint) (call : Writing.Call) : Option Endpoint :=
  (Writing.perform e.writeSize e.writeBuffer call).map fun w =>
    { e with
      writeBuffer := w.writeBuffer
      writeQueue := e.writeQueue ++ w.enqueued
      history := { e.history with enqueued := e.history.enqueued ++ w.enqueued } }

/-- One round of `writeQueueReader`. -/
def sendQueued (e : Endpoint) : Option Endpoint :=
  match e.writeQueue with
  | [] => none
  | p :: rest =>
    some { e with
      writeQueue := rest
      snd := e.snd.push p
      history := { e.history with pushed := e.history.pushed ++ [p] } }

/-- The first part of `snd.Tick`. -/
def sndTickDeliver (prim : Primitives) (e : Endpoint) (now : UInt64) (inputs : List PopInput) :
    Endpoint × List Bytes :=
  let (snd, due) := e.snd.tickDeliver now
  let (conn, stored, sent) := e.conn.popDue prim due inputs
  ({ e.withConn conn with
      snd := { snd with lossList := e.snd.lossList ++ stored }
      history := { e.history with popped := e.history.popped + due.length } },
    datagrams sent)

/-- The drop of `snd.Tick`. -/
def sndTickDrop (e : Endpoint) (now : UInt64) : Endpoint :=
  { e with snd := (e.snd.tickDrop now).1 }

/-- The rates of `snd.Tick`. -/
def sndTickRate (e : Endpoint) (now : UInt64) : Endpoint :=
  { e with snd := e.snd.tickRate now }

/-- `snd.ACK`. -/
def ack (e : Endpoint) (sequenceNumber : Number) : Endpoint :=
  let (snd, freed) := e.snd.ack sequenceNumber
  { e with
    snd := snd
    history := { e.history with freed := e.history.freed ++ freed } }

/-- `snd.NAK`. -/
def nak (prim : Primitives) (e : Endpoint) (sequenceNumbers : List Number)
    (inputs : List PopInput) : Option (Endpoint × List Bytes) :=
  if sequenceNumbers.isEmpty then some (e, [])
  else do
    let (snd, resent) ← e.snd.nak sequenceNumbers
    let (conn, lossList, sent, _) ← e.conn.resend prim sequenceNumbers e.snd.lossList inputs
    return ({ e.withConn conn with
        snd := { snd with lossList := lossList }
        history := { e.history with popped := e.history.popped + resent.length } },
      datagrams sent)

/-! ### The receiver -/

/-- `sendNAK`. -/
def sendNAK (e : Endpoint) (list : List Number) (timestamp : UInt32) : List Bytes :=
  datagrams [e.conn.sendNAK list timestamp]

/-- `recv.Push`. -/
def push (e : Endpoint) (p : Packet) (timestamp : UInt32) : Endpoint × List Bytes :=
  let (recv, nak) := e.recv.push p
  ({ e with
      recv := recv
      history := { e.history with arrived := e.history.arrived ++ [p] } },
    match nak with
    | none => []
    | some list => e.sendNAK list timestamp)

/-- The ACK part of `recv.Tick`. -/
def recvTickACK (e : Endpoint) (now : UInt64) (report : AckReport) (timestamp : UInt32)
    (clock : Int) : Endpoint × List Bytes :=
  let (recv, ack) := e.recv.periodicACK now
  let e := { e with
    recv := recv
    history := { e.history with ticks := e.history.ticks ++ [(now, e.recv.packetList)] } }
  match ack with
  | none => (e, [])
  | some (seq, lite) =>
    let (connection, p) := e.connection.sendACK seq lite report timestamp clock
    ({ e with connection := connection }, datagrams [p])

/-- The NAK part of `recv.Tick`. An empty list is not sent. -/
def recvTickNAK (e : Endpoint) (now : UInt64) (timestamp : UInt32) : Endpoint × List Bytes :=
  let (recv, nak) := e.recv.periodicNAK now
  ({ e with recv := recv }, if nak.isEmpty then [] else e.sendNAK nak timestamp)

/-- `deliver`. After the context is cancelled, `keep` is the choice of `select`. -/
def deliver (r : ReadSide) (p : Packet) (keep : Bool) : ReadSide :=
  if r.done && !keep then r else r.deliver p

/-- `deliver` for each packet. -/
def deliverAll (r : ReadSide) : List Packet → List Bool → ReadSide
  | [], _ => r
  | p :: ps, keeps => deliverAll (deliver r p (keeps.headD true)) ps keeps.tail

/-- The delivery part of `recv.Tick`. -/
def recvTickDeliver (e : Endpoint) (now : UInt64) (keeps : List Bool) : Endpoint :=
  let (recv, packets) := e.recv.tickDeliver now
  { e with
    recv := recv
    reading := deliverAll e.reading packets keeps
    history := { e.history with delivered := e.history.delivered ++ packets } }

/-- The rates of `recv.Tick`. -/
def recvTickRate (e : Endpoint) (now : UInt64) : Endpoint :=
  { e with recv := e.recv.tickRate now }

/-- `Read` into a slice of `n` bytes. `none` while it waits. -/
def read (e : Endpoint) (n : Nat) (fromQueue : Bool) : Option Endpoint := do
  let (reading, result) ← e.reading.read n fromQueue
  return { e with
    reading := reading
    history := { e.history with
      returned := e.history.returned ++ result.toOption.getD [] } }

/-- `ReadPacket`. `none` while it waits. -/
def readPacket (e : Endpoint) (fromQueue : Bool) : Option Endpoint := do
  let (reading, result) ← e.reading.readPacket fromQueue
  return { e with
    reading := reading
    history := { e.history with packets := e.history.packets ++ result.toOption.toList } }

/-! ### Closing -/

/-- The start of `close`. Only the first call does something. -/
def close (e : Endpoint) (timestamp : UInt32) : Endpoint × List Bytes :=
  match e.stage with
  | .running => ({ e with stage := .announced }, datagrams [e.conn.sendShutdown timestamp])
  | _ => (e, [])

/-- The next step of `close`. -/
def closing (e : Endpoint) : Option Endpoint :=
  match e.stage with
  | .running | .closed => none
  | .announced =>
    some { e with stage := .cancelled, reading := { e.reading with done := true } }
  | .cancelled => some { e with stage := .flushing, snd := e.snd.flush }
  | .flushing => some { e with stage := .closed, recv := e.recv.flush }

/-! ### Packets from the network -/

/-- The inputs of a round of `networkQueueReader`. -/
structure Inputs where
  handle : HandleInputs
  /-- The new interval of the periodic NAKs, from the round trip time. -/
  nakInterval : UInt64
  pops : List PopInput
  deriving DecidableEq, Repr

/-- What `handlePacket` asks of the other components. -/
def perform (prim : Primitives) (e : Endpoint) (inputs : Inputs) :
    Output → Option (Endpoint × List Bytes)
  | .send p => some (e, datagrams [p])
  | .push p => some (e.push p inputs.handle.timestamp)
  | .ack sequenceNumber => some (e.ack sequenceNumber, [])
  | .nak sequenceNumbers => e.nak prim sequenceNumbers inputs.pops
  | .recalculateRTT _ => some (e, [])
  | .setNAKInterval => some ({ e with recv := e.recv.setNAKInterval inputs.nakInterval }, [])
  | .setDropThreshold threshold =>
    some ({ e with snd := e.snd.setDropThreshold threshold }, [])
  | .stopHSRequests => e.hsRequests.stop.map fun r => ({ e with hsRequests := r }, [])
  | .effect .stopKMRequests =>
    e.kmRequests.stop.map fun r => ({ e with kmRequests := r }, [])
  | .effect .close => some (e.close inputs.handle.timestamp)

/-- All effects of a handler, in order. -/
def performAll (prim : Primitives) (e : Endpoint) (inputs : Inputs) :
    List Output → Option (Endpoint × List Bytes)
  | [] => some (e, [])
  | output :: outputs => do
    let (e, sent) ← e.perform prim inputs output
    let (e, sent') ← performAll prim e inputs outputs
    return (e, sent ++ sent')

/-- One round of `networkQueueReader`. -/
def handle (prim : Primitives) (sort : SortSlice) (e : Endpoint) (inputs : Inputs) :
    Option (Endpoint × List Bytes) :=
  match e.networkQueue with
  | [] => none
  | p :: rest =>
    match e.connection.handlePacket prim sort p inputs.handle with
    | .error _ => none
    | .ok (connection, outputs) =>
      { e with connection := connection, networkQueue := rest }.performAll prim inputs outputs

/-- What the socket makes of a datagram: it is cut off at the length of the buffer. -/
def decode (e : Endpoint) (data : Bytes) : Go Packet :=
  newPacketFromData e.conn.remoteAddr (data.take e.readSize)

/-- `reader` gives the packet to this connection. A dialer keeps the handshake packets for itself,
and a listener has no connection with the socket id 0. -/
def isFor (c : SrtConn) (p : Packet) : Bool :=
  p.header.destinationSocketId == c.socketId &&
    if c.isCaller then !(p.header.isControlPacket && p.header.controlType == .handshake)
    else p.header.destinationSocketId != 0

/-- A datagram arrives, and `reader` gives its packet to `push`. -/
def receive (e : Endpoint) (data : Bytes) (toQueue : Bool) : Endpoint :=
  match e.decode data with
  | .error _ => e
  | .ok p =>
    if !isFor e.conn p || (e.reading.done && !toQueue) then e
    else { e with networkQueue := offer networkQueueCapacity e.networkQueue p }

/-! ### Requests of a version 4 caller -/

/-- `sendHSRequests` sends its request. -/
def hsRequest (e : Endpoint) (timestamp : UInt32) : Option (Endpoint × List Bytes) :=
  match e.hsRequests with
  | .waiting =>
    some ({ e with hsRequests := .finished }, datagrams [e.conn.sendHSRequest timestamp])
  | _ => none

/-- `sendKMRequests` sends its request. -/
def kmRequest (prim : Primitives) (e : Endpoint) (timestamp : UInt32) :
    Option (Endpoint × List Bytes) :=
  match e.kmRequests, e.conn.crypto with
  | .waiting, some crypto =>
    some ({ e.withConn { e.conn with pktSentKM := e.conn.pktSentKM + 1 } with
        kmRequests := .finished },
      datagrams [e.conn.kmRequest prim crypto e.conn.keyBaseEncryption timestamp])
  | _, _ => none

/-! ### Steps -/

/-- What an end does by itself. -/
inductive Event where
  | write (call : Writing.Call)
  | sendQueued
  | sndTickDeliver (now : UInt64) (inputs : List PopInput)
  | sndTickDrop (now : UInt64)
  | sndTickRate (now : UInt64)
  | handle (inputs : Inputs)
  | recvTickACK (now : UInt64) (report : AckReport) (timestamp : UInt32) (clock : Int)
  | recvTickNAK (now : UInt64) (timestamp : UInt32)
  | recvTickDeliver (now : UInt64) (keeps : List Bool)
  | recvTickRate (now : UInt64)
  | read (n : Nat) (fromQueue : Bool)
  | readPacket (fromQueue : Bool)
  | hsRequest (timestamp : UInt32)
  | kmRequest (timestamp : UInt32)
  | close (timestamp : UInt32)
  | closing
  deriving DecidableEq, Repr

/-- A step that sends nothing. -/
def quiet (e : Option Endpoint) : Option (Endpoint × List Bytes) := e.map (·, [])

/-- What the endpoint does on its own: its state afterwards, and the datagrams that leave. -/
def act (prim : Primitives) (sort : SortSlice) (e : Endpoint) :
    Event → Option (Endpoint × List Bytes)
  | .write call => quiet (e.write call)
  | .sendQueued => quiet e.sendQueued
  | .sndTickDeliver now inputs => some (e.sndTickDeliver prim now inputs)
  | .sndTickDrop now => quiet (e.sndTickDrop now)
  | .sndTickRate now => quiet (e.sndTickRate now)
  | .handle inputs => e.handle prim sort inputs
  | .recvTickACK now report timestamp clock => some (e.recvTickACK now report timestamp clock)
  | .recvTickNAK now timestamp => some (e.recvTickNAK now timestamp)
  | .recvTickDeliver now keeps => quiet (e.recvTickDeliver now keeps)
  | .recvTickRate now => quiet (e.recvTickRate now)
  | .read n fromQueue => quiet (e.read n fromQueue)
  | .readPacket fromQueue => quiet (e.readPacket fromQueue)
  | .hsRequest timestamp => e.hsRequest timestamp
  | .kmRequest timestamp => e.kmRequest prim timestamp
  | .close timestamp => some (e.close timestamp)
  | .closing => quiet e.closing

/-- The connection as one of two parties. The input of a datagram is the choice of `push`. -/
def party (prim : Primitives) (sort : SortSlice) : Party Endpoint Event Bool Bytes where
  act := act prim sort
  receive := fun e data toQueue => quiet (e.receive data toQueue)

end Endpoint

end Gosrt
