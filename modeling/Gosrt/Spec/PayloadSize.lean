import Gosrt.Spec.Dial
import Gosrt.Spec.Registry

/-!
# `Gosrt.Spec.PayloadSize`: the sizes of a connection (`conn_request.go`, `dial.go`)

Both ends take a smaller MTU size over from the message of their peer, and set the payload size to
what is left after the headers. The peer chooses the MTU size, and the subtraction is in `uint32`.

A connection comes into being in a run of a listener with its requests (`Registry`), or in a run of
a dialer (`Dialing`). `Creates` names the MTU size that it comes from.
-/

set_option autoImplicit false

namespace Gosrt

open Lib

namespace Config

/-- The sizes of a connection are in order, and its payloads are not larger than what was
configured. The sums are sums of numbers, so they do not wrap. -/
structure Sized (configured c : Config) : Prop where
  smallest : minPayloadSize ≤ c.payloadSize
  room : c.payloadSize.toNat + srtHeaderSize.toNat + udpHeaderSize.toNat ≤ c.mss.toNat
  largest : c.mss.toNat ≤ maxPayloadSize.toNat + srtHeaderSize.toNat + udpHeaderSize.toNat
  configured : c.payloadSize ≤ configured.payloadSize

/-- The MTU size does not matter, or it is large enough for the smallest payload and leaves no more
room than the configured payload needs. -/
def Fits (c : Config) (mtu : UInt32) : Prop :=
  c.mss ≤ mtu ∨ minMSSSize ≤ mtu ∧
    mtu.toNat ≤ c.payloadSize.toNat + srtHeaderSize.toNat + udpHeaderSize.toNat

instance (c : Config) (mtu : UInt32) : Decidable (c.Fits mtu) := inferInstanceAs (Decidable (_ ∨ _))

end Config

/-- The connection that `Accept` on a request makes, if any, and the MTU size in the message of the
request. -/
def Registry.creates? (s : Registry) (request : Nat) (timestamp : UInt32) :
    Option (UInt32 × SrtConn) := do
  let r ← s.requests[request]?
  let (_, _, conn, _) ← (ConnRequest.accept s.listener r.request timestamp).toOption
  let conn ← conn.toOption
  return (r.request.handshake.maxTransmissionUnitSize, conn)

/-- The connection that `handleHandshake` makes from a packet, if any, and the smallest MTU size
that the dialer has heard of. The dialer keeps what it takes over. -/
def Dialing.creates? (prim : Primitives) (s : Dialing) (e : Dialing.Event) :
    Option (UInt32 × SrtConn) := do
  let cif ← (CIFHandshake.ofPacket e.packet).toOption
  let (_, outputs) ← (s.dialer.handleHandshake prim e.packet e.draws e.now).toOption
  let conn ← ((outputs.filterMap response).filterMap Except.toOption).head?
  return (min s.dialer.config.mss cif.maxTransmissionUnitSize, conn)

/-- A connection is created, with the MTU size that it comes from, by a listener or by a dialer with
this configuration. -/
inductive Creates (prim : Primitives) (config : Config) : UInt32 → SrtConn → Prop where
  | accepted (ln : Listener) (hconfig : ln.config = config) (events : List Registry.Event)
      (s : Registry) (hrun : run (Registry.step prim) (Registry.init ln) events = some s)
      (request : Nat) (timestamp : UInt32) (mtu : UInt32) (conn : SrtConn)
      (hconn : s.creates? request timestamp = some (mtu, conn)) : Creates prim config mtu conn
  | dialed (dl : Dialer) (hconfig : dl.config = config) (events : List Dialing.Event)
      (s : Dialing) (hrun : run (Dialing.step prim) (Dialing.init dl) events = some s)
      (e : Dialing.Event) (mtu : UInt32) (conn : SrtConn)
      (hconn : s.creates? prim e = some (mtu, conn)) : Creates prim config mtu conn

end Gosrt
