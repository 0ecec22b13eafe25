import Gosrt.Spec.Duplex
import Gosrt.Spec.Registry

/-!
# `Gosrt.Spec.Listening`: a listener at work, with all its connections (`listen.go`)

One goroutine reads datagrams from the socket into `rcvQueue`. `reader` takes them out again: a
handshake goes into the backlog, and any other packet to the connection that has its socket id,
unless it comes from another address than the peer of this connection. `Accept2` takes a handshake
from the backlog, the application resolves the requests that come out of it, and each connection
runs by itself. When a connection is closed, it is taken out of the maps. `Close` closes the
connections that it finds there.

The connections are pointers in the source. Here each one has its place in the list of all
connections that were made. The map of the listener has the last one that was made for a socket
id.

`Close` reads the map under a lock, and those who change the map wait for it. So what it closes is
given by the map at its start, and the lock is not modelled.

In a `Network` there are also peers: connections with an address of their own, each of which sends
to the listener. Anybody else may send what it likes, but not from the address of a peer. A peer
also sends handshakes, and these go to the socket id 0. They are among what anybody sends.
-/

set_option autoImplicit false

namespace Gosrt

open Lib

/-- A connection of the listener. -/
structure ListenerConn where
  /-- What `newSRTConn` was given. -/
  config : SrtConnConfig
  endpoint : Endpoint

/-- A packet from the socket. Its local address is read by `newConnRequest` only. -/
structure Received where
  packet : Packet
  localAddr : Option String
  deriving DecidableEq, Repr

/-- The capacity of `rcvQueue`. -/
def rcvQueueCapacity : Nat := 2048

/-- The capacity of `backlog`. -/
def backlogCapacity : Nat := 128

/-- `listener`, with the requests and the connections that it made. -/
structure Listening where
  listener : Listener
  rcvQueue : List Received
  backlog : List Packet
  requests : List TrackedRequest
  conns : List ListenerConn
  /-- The connections whose `onShutdown` has run. -/
  gone : List Nat
  shutdown : Bool
  /-- `Close` has not closed these connections yet. -/
  closing : Option (List Nat)
  /-- All that was sent, with the address that it was sent to. -/
  wire : List (Option String × Bytes)

namespace Listening

/-- A new listener. -/
def init (listener : Listener) : Listening where
  listener := listener
  rcvQueue := []
  backlog := []
  requests := []
  conns := []
  gone := []
  shutdown := false
  closing := none
  wire := []

/-- Packets go to the address in their header. -/
def addressed (ps : List Packet) : List (Option String × Bytes) :=
  ps.map fun p => (p.header.addr, p.marshal)

/-- The connection that the map has for a socket id. -/
def pointer (s : Listening) (socketId : UInt32) : Option Nat :=
  match s.listener.conns.lookup socketId with
  | some (some _) =>
    (List.range s.conns.length).reverse.find? fun i =>
      s.conns[i]?.any (·.config.socketId == socketId)
  | _ => none

/-- A connection goes on. -/
def update (s : Listening) (i : Nat) (c : ListenerConn) (out : Endpoint × List Bytes) :
    Listening :=
  { s with
    conns := s.conns.set i { c with endpoint := out.1 }
    wire := s.wire ++ out.2.map (c.endpoint.conn.remoteAddr, ·) }

/-! ### From the socket to a connection -/

/-- A datagram is read from the socket. A packet for which there is no room is dropped. -/
def arrive (s : Listening) (addr : String) (localAddr : Option String) (data : Bytes) :
    Listening :=
  match newPacketFromData (some addr) (data.take s.listener.config.mss.toNat) with
  | .error _ => s
  | .ok p => { s with rcvQueue := offer rcvQueueCapacity s.rcvQueue ⟨p, localAddr⟩ }

/-- `conn.push`. After the context is cancelled, `toQueue` is the choice of `select`. -/
def push (e : Endpoint) (p : Packet) (toQueue : Bool) : Endpoint :=
  if e.reading.done && !toQueue then e
  else { e with networkQueue := offer networkQueueCapacity e.networkQueue p }

/-- The packet is from the peer of the connection, or this does not matter. -/
def fromPeer (config : Config) (c : ListenerConn) (p : Packet) : Bool :=
  config.allowPeerIpChange || p.header.addr == c.endpoint.conn.remoteAddr

/-- `reader` gives a packet to its connection. -/
def route (s : Listening) (p : Packet) (toQueue : Bool) : Listening :=
  match s.pointer p.header.destinationSocketId with
  | none => s
  | some i =>
    match s.conns[i]? with
    | none => s
    | some c =>
      if fromPeer s.listener.config c p then s.update i c (push c.endpoint p toQueue, []) else s

/-- One round of `reader`. -/
def read (s : Listening) (toQueue : Bool) : Option Listening :=
  match s.rcvQueue with
  | [] => none
  | ⟨p, localAddr⟩ :: rest =>
    let s := { s with rcvQueue := rest }
    if s.shutdown then some s
    else if p.header.destinationSocketId = 0 then
      if p.header.isControlPacket && p.header.controlType == CtrlType.handshake then
        some { s with
          backlog := offer backlogCapacity s.backlog
            { p with header := { p.header with localAddr := localAddr } } }
      else some s
    else some (s.route p toQueue)

/-! ### Requests -/

/-- `Accept2` takes a packet from the backlog. -/
def accept2 (prim : Primitives) (s : Listening) (a : Arrival) : Option Listening :=
  match s.backlog with
  | [] => none
  | p :: rest => do
    let (listener, request, sent) ← (s.listener.newConnRequest prim p a).toOption
    return { s with
      listener := listener
      backlog := rest
      requests := s.requests ++ (request.map (TrackedRequest.mk · false)).toList
      wire := s.wire ++ addressed sent }

/-- `SetPassphrase` of a request. -/
def setPassphrase (prim : Primitives) (s : Listening) (request : Nat) (passphrase : Bytes) :
    Option Listening := do
  let r ← s.requests[request]?
  match r.request.setPassphrase prim passphrase with
  | (_, .error .panic) => none
  | (req, _) => return { s with requests := s.requests.set request ⟨req, r.resolved⟩ }

/-- `Accept` of a request. -/
def accept (s : Listening) (request : Nat) (timestamp : UInt32) : Option Listening := do
  let r ← s.requests[request]?
  let (listener, req, conn, sent) ← (ConnRequest.accept s.listener r.request timestamp).toOption
  return { s with
    listener := listener
    requests := s.requests.set request ⟨req, true⟩
    conns := s.conns ++ conn.toOption.toList.map fun conn =>
      ⟨conn.madeWith, Endpoint.init conn.madeWith s.listener.config.mss.toNat⟩
    wire := s.wire ++ addressed sent }

/-- `Reject` of a request. -/
def reject (s : Listening) (request : Nat) (reason : RejectionReason) (timestamp : UInt32) :
    Option Listening := do
  let r ← s.requests[request]?
  let (listener, req, sent) ←
    (ConnRequest.reject s.listener r.request reason timestamp).toOption
  return { s with
    listener := listener
    requests := s.requests.set request ⟨req, true⟩
    wire := s.wire ++ addressed sent }

/-! ### Connections -/

/-- A connection does something. -/
def act (prim : Primitives) (sort : SortSlice) (s : Listening) (i : Nat) (e : Endpoint.Event) :
    Option Listening := do
  let c ← s.conns[i]?
  let out ← c.endpoint.act prim sort e
  return s.update i c out

/-- The `onShutdown` of a connection, which is called once at the end of `close`. -/
def onShutdown (s : Listening) (i : Nat) : Option Listening := do
  let c ← s.conns[i]?
  if c.endpoint.stage = .closed ∧ i ∉ s.gone then
    return { s with
      listener := s.listener.handleShutdown c.config.socketId c.config.peerSocketId
      gone := s.gone ++ [i] }
  else none

/-! ### Closing -/

/-- The connections in the map. -/
def registered (s : Listening) : List Nat := s.listener.conns.keys.filterMap s.pointer

/-- The start of `Close`. Only the first call does something. -/
def close (s : Listening) : Listening :=
  if s.shutdown then s else { s with shutdown := true, closing := some s.registered }

/-- `Close` calls `close` of a connection. -/
def closeConn (prim : Primitives) (sort : SortSlice) (s : Listening) (k : Nat)
    (timestamp : UInt32) : Option Listening := do
  let closing ← s.closing
  let i ← closing[k]?
  s.act prim sort i (.close timestamp)

/-- This call has returned. -/
def closedConn (s : Listening) (k : Nat) : Option Listening := do
  let closing ← s.closing
  let i ← closing[k]?
  let c ← s.conns[i]?
  if c.endpoint.stage = .closed then return { s with closing := some (closing.eraseIdx k) }
  else none

/-! ### Steps -/

/-- What happens at the listener. -/
inductive Event where
  | read (toQueue : Bool)
  | accept2 (a : Arrival)
  | setPassphrase (request : Nat) (passphrase : Bytes)
  | accept (request : Nat) (timestamp : UInt32)
  | reject (request : Nat) (reason : RejectionReason) (timestamp : UInt32)
  | act (i : Nat) (e : Endpoint.Event)
  | onShutdown (i : Nat)
  | close
  | closeConn (k : Nat) (timestamp : UInt32)
  | closedConn (k : Nat)
  deriving DecidableEq, Repr

/-- One event. -/
def step (prim : Primitives) (sort : SortSlice) (s : Listening) : Event → Option Listening
  | .read toQueue => s.read toQueue
  | .accept2 a => s.accept2 prim a
  | .setPassphrase request passphrase => s.setPassphrase prim request passphrase
  | .accept request timestamp => s.accept request timestamp
  | .reject request reason timestamp => s.reject request reason timestamp
  | .act i e => s.act prim sort i e
  | .onShutdown i => s.onShutdown i
  | .close => some s.close
  | .closeConn k timestamp => s.closeConn prim sort k timestamp
  | .closedConn k => s.closedConn k

/-! ### The maps -/

/-- The connections that are not gone, with their places. -/
def live (s : Listening) : List (SrtConnConfig × Nat) :=
  (s.conns.map ListenerConn.config).zipIdx.filter fun x => x.2 ∉ s.gone

/-- The maps of the listener with what they should hold. -/
def registry (s : Listening) : Registry :=
  ⟨s.listener, s.requests, s.live.map fun x => newSRTConn x.1⟩

/-- The event for the maps. -/
def registryEvent (s : Listening) : Event → Option Registry.Event
  | .accept2 a => s.backlog.head?.map (.arrival · a)
  | .setPassphrase request passphrase => some (.setPassphrase request passphrase)
  | .accept request timestamp => some (.accept request timestamp)
  | .reject request reason timestamp => some (.reject request reason timestamp)
  | .onShutdown i => (s.live.findIdx? (·.2 == i)).map .shutdown
  | .read _ | .act _ _ | .close | .closeConn _ _ | .closedConn _ => none

/-- A CONCLUSION that is taken finds a free socket id, and `Accept` and `Reject` are not called on a
resolved request while its peer has another one pending. -/
def Allowed (prim : Primitives) (s : Listening) (e : Event) : Prop :=
  ∀ f ∈ s.registryEvent e, Registry.Allowed prim s.registry f

instance (prim : Primitives) (s : Listening) (e : Event) : Decidable (Allowed prim s e) :=
  inferInstanceAs (Decidable (∀ f ∈ s.registryEvent e, _))

end Listening

/-! ### Peers -/

/-- A connection at an address, and all that it sent to the listener. -/
structure NetworkPeer where
  addr : String
  config : SrtConnConfig
  endpoint : Endpoint
  sent : List Bytes

/-- A listener and its peers. -/
structure Network where
  hub : Listening
  peers : List NetworkPeer

namespace Network

/-- A peer whose connection is new. Its socket reads into a buffer of `MAX_MSS_SIZE` bytes. -/
def peer (addr : String) (config : SrtConnConfig) : NetworkPeer :=
  ⟨addr, config, Endpoint.init config maxMSSSize.toNat, []⟩

/-- No connection yet. -/
def init (listener : Listener) (peers : List (String × SrtConnConfig)) : Network where
  hub := .init listener
  peers := peers.map fun p => peer p.1 p.2

/-- Anybody can send this from this address: it is not the address of a peer, or it is a packet for
no connection. -/
def Foreign (s : Network) (addr : String) (data : Bytes) : Prop :=
  (∀ p ∈ s.peers, p.addr ≠ addr) ∨
    match newPacketFromData (some addr) (data.take s.hub.listener.config.mss.toNat) with
    | .ok p => p.header.destinationSocketId = 0
    | .error _ => True

instance (s : Network) (addr : String) (data : Bytes) : Decidable (s.Foreign addr data) := by
  unfold Foreign
  split <;> infer_instance

/-- What happens in the network. -/
inductive Event where
  | hub (e : Listening.Event)
  /-- A datagram of a peer reaches the listener. -/
  | toHub (peer index : Nat) (localAddr : Option String)
  /-- A datagram of somebody else reaches the listener. -/
  | foreign (addr : String) (localAddr : Option String) (data : Bytes)
  | peer (peer : Nat) (e : Endpoint.Event)
  /-- A datagram of the listener reaches the peer that it was sent to. -/
  | toPeer (peer index : Nat) (toQueue : Bool)
  deriving DecidableEq, Repr

/-- A peer goes on. -/
def update (s : Network) (j : Nat) (p : NetworkPeer) (out : Endpoint × List Bytes) : Network :=
  { s with peers := s.peers.set j { p with endpoint := out.1, sent := p.sent ++ out.2 } }

/-- One event. -/
def step (prim : Primitives) (sort : SortSlice) (s : Network) : Event → Option Network
  | .hub e => (s.hub.step prim sort e).map fun hub => { s with hub := hub }
  | .toHub j index localAddr => do
    let p ← s.peers[j]?
    let data ← p.sent[index]?
    return { s with hub := s.hub.arrive p.addr localAddr data }
  | .foreign addr localAddr data => some { s with hub := s.hub.arrive addr localAddr data }
  | .peer j e => do
    let p ← s.peers[j]?
    let out ← p.endpoint.act prim sort e
    return s.update j p out
  | .toPeer j index toQueue => do
    let p ← s.peers[j]?
    let (addr, data) ← s.hub.wire[index]?
    if addr = some p.addr then return s.update j p (p.endpoint.receive data toQueue, [])
    else none

/-- Nobody else sends from the address of a peer. -/
def Honest (s : Network) : Event → Prop
  | .foreign addr _ data => s.Foreign addr data
  | _ => True

instance (s : Network) (e : Event) : Decidable (s.Honest e) := by
  unfold Honest
  split <;> infer_instance

/-- The step of the listener is allowed. -/
def Allowed (prim : Primitives) (s : Network) : Event → Prop
  | .hub e => s.hub.Allowed prim e
  | _ => True

instance (prim : Primitives) (s : Network) (e : Event) : Decidable (s.Allowed prim e) := by
  unfold Allowed
  split <;> infer_instance

/-- The connection `c` of the listener and the peer `p` belong together: the listener has no other
connection with this address, and no other peer has it. -/
structure Paired (s : Network) (i j : Nat) (c : ListenerConn) (p : NetworkPeer) : Prop where
  conn : s.hub.conns[i]? = some c
  peer : s.peers[j]? = some p
  caller : p.config.isCaller = true
  addr : c.config.remoteAddr = some p.addr
  onlyConn : ∀ i' c', s.hub.conns[i']? = some c' → c'.config.remoteAddr = some p.addr → i' = i
  onlyPeer : ∀ j' p', s.peers[j']? = some p' → p'.addr = p.addr → j' = j

end Network

end Gosrt
