import Mathlib.Data.List.AList
import Gosrt.Lib.Pool
import Gosrt.Lib.Run
import Gosrt.Spec.Packet

/-!
# `Gosrt.Spec.PubSub`: one publisher and many subscribers (`pubsub.go`)

`Publish` reads packets from its connection and puts them into the incoming queue. The broadcast
loop takes them out, and offers a clone to each listener. Each call of `Subscribe` has its own queue
and writes what comes out of it to its connection. A queue that is full drops what is offered.

The goroutines run side by side, so each thing that one of them does between two points at which
another one can come in is an event. `listenersLock` is held by the broadcast loop while it goes
through the listeners. The other two sections under the lock are one event each, and they wait for
the loop. A `select` with two cases that are ready takes any of them.

A packet has its payload in a buffer of a pool that all packets of the process share. A packet that
is decommissioned gives its buffer back, and the next clone may get it. So that a payload stays as
it is, is a statement about who has which buffer. What the other components do with the pool are
events, too. They use their own buffers only.

Left out is the log. A second call of `Publish` returns an error, which is no event.
-/

set_option autoImplicit false

namespace Gosrt

open Lib

/-- `pkt`: the payload is the number of its buffer. A packet that is decommissioned is not used
afterwards, so there is no packet without a buffer. -/
structure Pkt where
  header : PacketHeader
  payload : Nat
  deriving DecidableEq, Repr

/-- `payloadPool`. -/
abbrev PayloadPool := Pool Bytes

namespace PayloadPool

/-- The packet with what its buffer holds. -/
def value (pool : PayloadPool) (p : Pkt) : Packet := ⟨p.header, pool.content p.payload⟩

/-- `Clone`: the buffer is a new one or one that came back. -/
def clone (pool : PayloadPool) (p : Pkt) (choice : Option Nat) : Pkt × PayloadPool :=
  let (payload, pool) := pool.get choice (pool.content p.payload)
  (⟨p.header, payload⟩, pool)

end PayloadPool

/-- The capacity of both kinds of queues. -/
def queueCapacity : Nat := 1024

/-- Where a call of `Subscribe` is. -/
inductive Phase where
  /-- In its `select`. -/
  | waiting
  /-- In `WritePacket`. -/
  | writing (p : Pkt)
  /-- Out of its loop, but still among the listeners. -/
  | returned
  | gone
  deriving DecidableEq, Repr

/-- A call of `Subscribe`, with its history. No step reads the history. -/
structure Subscription where
  socketId : UInt32
  queue : List Pkt
  phase : Phase
  /-- The packets given to `WritePacket`. -/
  written : List Packet
  /-- The packets that were waiting for the broadcast loop when it registered. -/
  backlog : List Packet
  /-- The packets published while it was registered. -/
  published : List Packet
  /-- A packet found its queue full. -/
  full : Bool
  /-- A packet published while it was registered found the incoming queue full. -/
  incomingFull : Bool
  deriving DecidableEq, Repr

namespace Subscription

/-- It is among the listeners. -/
def registered (sub : Subscription) : Bool := sub.phase != .gone

/-- The packets that it has to write. -/
def packets (sub : Subscription) : List Pkt :=
  match sub.phase with
  | .writing p => p :: sub.queue
  | _ => sub.queue

/-- A packet is published. -/
def note (p : Packet) (incomingFull : Bool) (sub : Subscription) : Subscription :=
  if sub.registered then
    { sub with
      published := sub.published ++ [p]
      incomingFull := sub.incomingFull || incomingFull }
  else sub

/-- The broadcast loop offers a packet. -/
def offer (sub : Subscription) (p : Pkt) : Subscription :=
  if sub.queue.length < queueCapacity then { sub with queue := sub.queue ++ [p] }
  else { sub with full := true }

end Subscription

/-- Where the broadcast loop is. -/
inductive Broadcast where
  /-- In its `select`. -/
  | idle
  /-- It has a packet, and not yet the lock. -/
  | holding (p : Pkt)
  /-- It has the lock, and these listeners are still to come. -/
  | sending (p : Pkt) (listeners : List Nat)
  /-- It has given the lock back. -/
  | retiring (p : Pkt)
  | exited
  deriving DecidableEq, Repr

namespace Broadcast

/-- The packet of the loop. -/
def packets : Broadcast → List Pkt
  | .holding p | .sending p _ | .retiring p => [p]
  | .idle | .exited => []

/-- The packet that no listener has been offered yet. -/
def waiting : Broadcast → List Pkt
  | .holding p => [p]
  | _ => []

/-- The loop has the lock. -/
def locked : Broadcast → Bool
  | .sending _ _ => true
  | _ => false

end Broadcast

/-- `pubSub`, the pool, and the calls of `Subscribe`. -/
structure PubSub where
  pool : PayloadPool
  /-- The buffers that other components use. -/
  outside : List Nat
  incoming : List Pkt
  publish : Bool
  /-- `ctx` is done. -/
  done : Bool
  broadcast : Broadcast
  /-- The queue of each listener, by the number of its call. -/
  listeners : AList fun _ : UInt32 => Nat
  subscriptions : List Subscription

namespace PubSub

/-- What the calls and the broadcast loop do. -/
inductive Event where
  /-- `Publish` is called. -/
  | publish
  /-- `ReadPacket` returns a packet. -/
  | read (header : PacketHeader) (payload : Nat)
  /-- `ReadPacket` returns an error. -/
  | readError
  /-- The broadcast loop takes a packet, or leaves because `ctx` is done. -/
  | receive
  | exit
  /-- It takes the lock, offers a clone to one of the listeners, gives the lock back, and
  decommissions the packet. -/
  | lock
  | send (listener : Nat) (choice : Option Nat)
  | unlock
  | decommission
  /-- `Subscribe` is called and registers. -/
  | subscribe (socketId : UInt32)
  /-- The call number `n` takes a packet from its queue, or leaves because `ctx` is done. -/
  | take (n : Nat)
  | leave (n : Nat)
  /-- Its `WritePacket` returns, without an error or with one. -/
  | write (n : Nat) (ok : Bool)
  /-- It is deleted from the listeners. -/
  | unsubscribe (n : Nat)
  /-- Another component takes a buffer, writes to one of its buffers, or gives it back. -/
  | get (choice : Option Nat)
  | fill (payload : Nat) (data : Bytes)
  | put (payload : Nat)
  deriving DecidableEq, Repr

/-- `NewPubSub`. The pool is empty, and the other components can take their buffers as soon as they
like. -/
def init : PubSub where
  pool := Pool.empty []
  outside := []
  incoming := []
  publish := false
  done := false
  broadcast := .idle
  listeners := ∅
  subscriptions := []

/-- The packets that wait for the broadcast loop to distribute them. -/
def waiting (s : PubSub) : List Packet :=
  (s.broadcast.waiting ++ s.incoming).map s.pool.value

/-- A new call of `Subscribe`. -/
def subscription (s : PubSub) (socketId : UInt32) : Subscription where
  socketId := socketId
  queue := []
  phase := .waiting
  written := []
  backlog := s.waiting
  published := []
  full := false
  incomingFull := false

/-- A call of `Subscribe` goes on. -/
def update (s : PubSub) (n : Nat) (sub : Subscription) : PubSub :=
  { s with subscriptions := s.subscriptions.set n sub }

/-- A packet comes from the publisher. -/
def read (s : PubSub) (p : Pkt) : PubSub :=
  let full := decide (queueCapacity ≤ s.incoming.length)
  { s with
    outside := s.outside.erase p.payload
    incoming := if full then s.incoming else s.incoming ++ [p]
    subscriptions := s.subscriptions.map (·.note (s.pool.value p) full) }

/-- The broadcast loop offers a clone of its packet to one listener. -/
def send (s : PubSub) (p : Pkt) (listeners : List Nat) (listener n : Nat) (sub : Subscription)
    (choice : Option Nat) : PubSub :=
  let (clone, pool) := s.pool.clone p choice
  { s.update n (sub.offer clone) with
    pool := pool
    broadcast := .sending p (listeners.eraseIdx listener) }

/-- `WritePacket` has returned. -/
def write (s : PubSub) (n : Nat) (sub : Subscription) (p : Pkt) (ok : Bool) : PubSub :=
  let sub := { sub with
    phase := if ok then .waiting else .returned
    written := sub.written ++ [s.pool.value p] }
  { s.update n sub with pool := s.pool.put p.payload }

/-- One event. -/
def step (s : PubSub) : Event → Option PubSub
  -- `Publish`.
  | .publish => if s.publish then none else some { s with publish := true }
  | .read header payload =>
    if s.publish && !s.done && s.outside.contains payload then some (s.read ⟨header, payload⟩)
    else none
  | .readError => if s.publish && !s.done then some { s with done := true } else none
  -- `broadcast`.
  | .receive =>
    match s.broadcast, s.incoming with
    | .idle, p :: incoming => some { s with broadcast := .holding p, incoming := incoming }
    | _, _ => none
  | .exit =>
    match s.broadcast, s.done with
    | .idle, true => some { s with broadcast := .exited }
    | _, _ => none
  | .lock =>
    match s.broadcast with
    | .holding p =>
      some { s with broadcast := .sending p (s.listeners.entries.map Sigma.snd) }
    | _ => none
  | .send listener choice =>
    match s.broadcast with
    | .sending p listeners => do
      -- Go goes through a map in any order.
      let n ← listeners[listener]?
      let sub ← s.subscriptions[n]?
      return s.send p listeners listener n sub choice
    | _ => none
  | .unlock =>
    match s.broadcast with
    | .sending p [] => some { s with broadcast := .retiring p }
    | _ => none
  | .decommission =>
    match s.broadcast with
    | .retiring p => some { s with broadcast := .idle, pool := s.pool.put p.payload }
    | _ => none
  -- `Subscribe`.
  | .subscribe socketId =>
    if s.broadcast.locked then none
    else some { s with
      listeners := s.listeners.insert socketId s.subscriptions.length
      subscriptions := s.subscriptions ++ [s.subscription socketId] }
  | .take n => do
    let sub ← s.subscriptions[n]?
    match sub.phase, sub.queue with
    | .waiting, p :: queue =>
      return s.update n { sub with phase := .writing p, queue := queue }
    | _, _ => none
  | .leave n => do
    let sub ← s.subscriptions[n]?
    match sub.phase, s.done with
    | .waiting, true => return s.update n { sub with phase := .returned }
    | _, _ => none
  | .write n ok => do
    let sub ← s.subscriptions[n]?
    match sub.phase with
    | .writing p => return s.write n sub p ok
    | _ => none
  | .unsubscribe n => do
    let sub ← s.subscriptions[n]?
    match sub.phase, s.broadcast.locked with
    | .returned, false =>
      return { s.update n { sub with phase := .gone } with
        listeners := s.listeners.erase sub.socketId }
    | _, _ => none
  -- Other components.
  | .get choice =>
    let (payload, pool) := s.pool.get choice []
    some { s with pool := pool, outside := payload :: s.outside }
  | .fill payload data =>
    if s.outside.contains payload then some { s with pool := s.pool.write payload data } else none
  | .put payload =>
    if s.outside.contains payload then
      some { s with pool := s.pool.put payload, outside := s.outside.erase payload }
    else none

/-- No two connections that are subscribed have the same socket id. -/
def Distinct (s : PubSub) : Event → Prop
  | .subscribe socketId =>
    ∀ sub ∈ s.subscriptions, sub.registered = true → sub.socketId ≠ socketId
  | _ => True

instance (s : PubSub) : (e : Event) → Decidable (s.Distinct e)
  | .subscribe socketId => inferInstanceAs (Decidable
      (∀ sub ∈ s.subscriptions, sub.registered = true → sub.socketId ≠ socketId))
  | .publish | .read _ _ | .readError | .receive | .exit | .lock | .send _ _ | .unlock
  | .decommission | .take _ | .leave _ | .write _ _ | .unsubscribe _ | .get _ | .fill _ _
  | .put _ => isTrue trivial

end PubSub

end Gosrt
