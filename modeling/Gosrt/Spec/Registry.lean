import Gosrt.Spec.Admission
import Gosrt.Lib.Run

/-!
# `Gosrt.Spec.Registry`: the two maps of a listener over time

Packets arrive, the application calls the methods of the requests that came out of them, and
connections shut down. Each of these happens at any time, in any order. The application may
call `Accept` and `Reject` on one request as often as it likes: `Server.Serve` does so when
`HandleConnect` has called `Reject` already.

A socket id belongs to an owner: a request on which neither `Accept` nor `Reject` has been
called yet, or a connection that is not shut down. `Corresponds` says that both maps hold
exactly the owners.

A connection shuts down once: `close` runs `onShutdown` under a `sync.Once`. A panic ends the
run.
-/

set_option autoImplicit false

namespace Gosrt

open Lib

/-- A request, and whether `Accept` or `Reject` has been called on it. -/
structure TrackedRequest where
  request : ConnRequest
  resolved : Bool
  deriving DecidableEq, Repr

/-- What a socket id is reserved for. A request has no connection yet. -/
structure Owner where
  socketId : UInt32
  peerSocketId : UInt32
  conn : Option SrtConn
  deriving DecidableEq, Repr

def TrackedRequest.owner (r : TrackedRequest) : Owner :=
  ⟨r.request.socketId, r.request.peerSocketId, none⟩

def SrtConn.owner (c : SrtConn) : Owner :=
  ⟨c.socketId, c.peerSocketId, some c⟩

/-- A listener, every request that it has made, and its connections. -/
structure Registry where
  listener : Listener
  requests : List TrackedRequest
  live : List SrtConn

namespace Registry

inductive Event where
  /-- A packet reaches `newConnRequest`. -/
  | arrival (p : Packet) (a : Arrival)
  /-- The application calls a method of a request. -/
  | setPassphrase (request : Nat) (passphrase : Bytes)
  | accept (request : Nat) (timestamp : UInt32)
  | reject (request : Nat) (reason : RejectionReason) (timestamp : UInt32)
  /-- A connection calls `handleShutdown`. -/
  | shutdown (conn : Nat)
  deriving DecidableEq, Repr

def init (listener : Listener) : Registry := ⟨listener, [], []⟩

/-- One event. -/
def step (prim : Primitives) (s : Registry) : Event → Option Registry
  | .arrival p a => do
    let (listener, request, _) ← (s.listener.newConnRequest prim p a).toOption
    return { s with
      listener := listener
      requests := s.requests ++ (request.map (TrackedRequest.mk · false)).toList }
  | .setPassphrase request passphrase => do
    let r ← s.requests[request]?
    match r.request.setPassphrase prim passphrase with
    | (_, .error .panic) => none
    | (req, _) => return { s with requests := s.requests.set request ⟨req, r.resolved⟩ }
  | .accept request timestamp => do
    let r ← s.requests[request]?
    let (listener, req, conn, _) ← (ConnRequest.accept s.listener r.request timestamp).toOption
    return {
      listener := listener
      requests := s.requests.set request ⟨req, true⟩
      live := s.live ++ conn.toOption.toList }
  | .reject request reason timestamp => do
    let r ← s.requests[request]?
    let (listener, req, _) ← (ConnRequest.reject s.listener r.request reason timestamp).toOption
    return { s with
      listener := listener
      requests := s.requests.set request ⟨req, true⟩ }
  | .shutdown conn => do
    let c ← s.live[conn]?
    return { s with
      listener := s.listener.handleShutdown c.socketId c.peerSocketId
      live := s.live.eraseIdx conn }

/-! ### The correspondence -/

/-- The requests that wait for `Accept` or `Reject`. -/
def pending (s : Registry) : List TrackedRequest := s.requests.filter (!·.resolved)

/-- What the maps should hold. -/
def owners (s : Registry) : List Owner :=
  s.pending.map TrackedRequest.owner ++ s.live.map SrtConn.owner

/-- The maps hold exactly the owners, each one under both of its ids with the same value. -/
structure Corresponds (s : Registry) : Prop where
  /-- A socket id belongs to one owner. -/
  socketIds : (s.owners.map Owner.socketId).Nodup
  /-- A peer has one owner. -/
  peers : (s.owners.map Owner.peerSocketId).Nodup
  conns : ∀ id conn, s.listener.conns.lookup id = some conn ↔
    ∃ o ∈ s.owners, o.socketId = id ∧ o.conn = conn
  connsByPeer : ∀ id conn, s.listener.connsByPeer.lookup id = some conn ↔
    ∃ o ∈ s.owners, o.peerSocketId = id ∧ o.conn = conn
  /-- No peer has two pending requests. -/
  pending : (s.pending.map (·.request.peerSocketId)).Nodup

/-- `Accept` or `Reject` on a request that is resolved already. -/
def Stale (s : Registry) : Event → Prop
  | .accept request _ | .reject request _ _ =>
    ∃ r, s.requests[request]? = some r ∧ r.resolved = true
  | _ => False

/-- The step leaves the maps in correspondence, and does not touch them on a stale call. -/
def Keeps (prim : Primitives) (s : Registry) (e : Event) : Prop :=
  ∀ s', step prim s e = some s' →
    s'.Corresponds ∧
    (s.Stale e → s'.listener.conns = s.listener.conns ∧
      s'.listener.connsByPeer = s.listener.connsByPeer)

/-- A call of `Accept` or `Reject` that cannot hit the request of another one: it is the first
call on its request, or the peer has no pending request. -/
def Unmistaken (s : Registry) (request : Nat) : Prop :=
  match s.requests[request]? with
  | some r =>
    r.resolved = false ∨ s.listener.connsByPeer.lookup r.request.peerSocketId ≠ some none
  | none => True

instance (s : Registry) (request : Nat) : Decidable (s.Unmistaken request) := by
  unfold Unmistaken
  split <;> infer_instance

/-- A CONCLUSION of a new peer that passes the checks finds a free socket id, and `Accept` and
`Reject` are not called on a resolved request while its peer has another one pending. -/
def Allowed (prim : Primitives) (s : Registry) : Event → Prop
  | .arrival p a =>
    s.listener.Takes prim p a →
      (Listener.generateSocketId s.listener.conns 10 a.socketIds).isSome = true
  | .accept request _ | .reject request _ _ => s.Unmistaken request
  | .setPassphrase _ _ | .shutdown _ => True

instance (prim : Primitives) (s : Registry) (e : Event) : Decidable (Allowed prim s e) := by
  unfold Allowed
  split <;> infer_instance

end Registry

end Gosrt
