import Gosrt.Spec.Listen
import Mathlib.Tactic.MkIffOfInductiveProp

/-!
# `Gosrt.Spec.Admission`: which CONCLUSION becomes a request (`conn_request.go`)

`newConnRequest` has about a dozen exits. Some come after a packet was sent or after the id of the
peer was reserved, so it is not plain that a message is registered as a whole or not at all. This
is what `Atomic` says.

`Verified` and `Passes` are the checks on the way: those before and after the MTU size is compared
with the smallest payload. They are the conditions of `newConnRequest`, in its order. `Takes` says
that a packet gets to the end of them. All three look at the packet, the listener and the draws
before the call.
-/

set_option autoImplicit false

namespace Gosrt

open Lib

/-- The packet as the socket gives it: with the address of its sender. -/
def Packet.receivedFrom (p : Packet) (addr : String) : Packet :=
  { p with header := { p.header with addr := some addr } }

namespace Listener

/-- All or nothing. With a request, nothing was sent, and the maps have one new entry each: a fresh
socket id, and the id of the peer. Without a request the maps are as before. -/
inductive AllOrNothing (ln : Listener) (peerSocketId : UInt32) :
    Listener → Option ConnRequest → List Packet → Prop where
  | registered (ln' : Listener) (req : ConnRequest)
      (hpeer : req.peerSocketId = peerSocketId)
      (hfresh : ln.conns.lookup req.socketId = none)
      (hnew : ln.connsByPeer.lookup peerSocketId = none)
      (hconns : ln'.conns = ln.conns.insert req.socketId none)
      (hconnsByPeer : ln'.connsByPeer = ln.connsByPeer.insert peerSocketId none) :
      AllOrNothing ln peerSocketId ln' (some req) []
  | nothing (ln' : Listener) (sent : List Packet) (hconns : ln'.conns = ln.conns)
      (hconnsByPeer : ln'.connsByPeer = ln.connsByPeer) :
      AllOrNothing ln peerSocketId ln' none sent

/-- The socket id in a message. A packet that cannot be decoded has none. -/
def peerOf (p : Packet) : UInt32 :=
  ((CIFHandshake.ofPacket p).toOption.map CIFHandshake.srtSocketId).getD 0

/-- `newConnRequest` returns, with all or nothing. -/
def Atomic (prim : Primitives) (ln : Listener) (p : Packet) (a : Arrival) : Prop :=
  ∃ ln' req sent, ln.newConnRequest prim p a = .ok (ln', req, sent) ∧
    ln.AllOrNothing (peerOf p) ln' req sent

/-- A CONCLUSION with a cookie for this address and an MTU size that is not too big. -/
@[mk_iff]
structure Verified (prim : Primitives) (ln : Listener) (addr : String) (cif : CIFHandshake)
    (a : Arrival) : Prop where
  handshakeType : cif.handshakeType = HandshakeType.conclusion
  synCookie : ln.syncookie.verify prim a.counter cif.synCookie addr = true
  maxTransmissionUnitSize : cif.maxTransmissionUnitSize ≤ maxMSSSize

/-- The CONCLUSION also passes the checks after the MTU size: the version and its extensions, and
the key length. The rejection for a small MTU size overwrites the type of a version 4 message with
the right one, so the check of the type that comes after it does not fail. -/
@[mk_iff]
structure Passes (prim : Primitives) (ln : Listener) (addr : String) (cif : CIFHandshake)
    (a : Arrival) : Prop extends Verified prim ln addr cif a where
  version : checkVersion ln.config cif = none ∨
    (cif.version = 4 ∧ ln.config.mssTooSmall cif.maxTransmissionUnitSize = true)
  crypto : (requestCrypto cif a.draws).isSome = true

instance (prim : Primitives) (ln : Listener) (addr : String) (cif : CIFHandshake) (a : Arrival) :
    Decidable (Verified prim ln addr cif a) :=
  decidable_of_iff' _ (verified_iff prim ln addr cif a)

instance (prim : Primitives) (ln : Listener) (addr : String) (cif : CIFHandshake) (a : Arrival) :
    Decidable (Passes prim ln addr cif a) :=
  decidable_of_iff' _ (passes_iff prim ln addr cif a)

/-- The packet is a CONCLUSION that passes the checks, of a peer that is not in the maps. This is
when `newConnRequest` reserves the id of the peer. -/
def Takes (prim : Primitives) (ln : Listener) (p : Packet) (a : Arrival) : Prop :=
  ∃ addr ∈ p.header.addr, ∃ cif ∈ (CIFHandshake.ofPacket p).toOption,
    ln.Passes prim addr cif a ∧ ln.connsByPeer.lookup cif.srtSocketId = none

instance (prim : Primitives) (ln : Listener) (p : Packet) (a : Arrival) :
    Decidable (Takes prim ln p a) := by
  unfold Takes
  infer_instance

end Listener

end Gosrt
