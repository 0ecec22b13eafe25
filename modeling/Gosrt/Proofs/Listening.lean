import Gosrt.Lib.Index
import Gosrt.Proofs.Endpoint.Ends
import Gosrt.Proofs.Listen
import Gosrt.Proofs.Registry
import Gosrt.Spec.Listening

/-!
# `Gosrt.Proofs.Listening`: what a step of a listener can do

For the connections there are four kinds of steps (`StepCase`): a connection does something by
itself, `reader` gives it a packet, `Accept` makes a new one, or nothing happens to any of them. The
listener by itself sends handshake packets only, and only handshake packets are in the backlog.
`step_cases` has all that is needed of a step, so that later proofs do not open the steps again.

In the maps of the listener a step is one of `Gosrt.Spec.Registry`, or none. So the maps hold what
they should as long as the steps are allowed there (`Mapped`).
-/

set_option autoImplicit false

namespace Gosrt

open Lib

/-- A handshake packet. -/
def IsHandshake (p : Packet) : Prop :=
  p.header.isControlPacket = true ∧ p.header.controlType = CtrlType.handshake

/-! ### The packets of a listener -/

namespace Listener

section
variable {prim : Primitives} {ln ln' : Listener} {p q : Packet} {cif cif' : CIFHandshake}
  {a : Arrival} {req : Option ConnRequest} {sent before : List Packet} {config : Config}

theorem marshalCIF_header (h : marshalCIF p cif = .ok (cif', q)) : q.header = p.header := by
  unfold marshalCIF at h
  obtain ⟨data, -, h⟩ := bind_eq_ok_iff.mp h
  obtain ⟨c, -, h⟩ := bind_eq_ok_iff.mp h
  cases h
  rfl

theorem isHandshake_of_header (hp : IsHandshake p) (h : q.header = p.header) : IsHandshake q := by
  unfold IsHandshake
  rw [h]
  exact hp

theorem refuse_isHandshake (hp : IsHandshake p) {reason : RejectionReason}
    (h : ln.refuse before p cif reason = .ok (ln', req, sent)) : ∀ q ∈ sent, IsHandshake q := by
  unfold refuse at h
  split at h
  · obtain ⟨⟨c, q⟩, hmarshal, h⟩ := bind_eq_ok_iff.mp h
    cases h
    intro r hr
    rw [List.mem_singleton.mp hr]
    exact isHandshake_of_header hp (marshalCIF_header hmarshal)
  · cases h

theorem admission_isHandshake (hp : IsHandshake p) (hbefore : ∀ q ∈ before, IsHandshake q)
    (h : ln.admission config p cif before a = .ok (ln', req, sent)) :
    ∀ q ∈ sent, IsHandshake q := by
  unfold admission at h
  split at h
  · exact refuse_isHandshake hp h
  split at h
  · exact refuse_isHandshake hp h
  -- `register` sends nothing more.
  unfold register at h
  split at h
  · cases h
    exact hbefore
  dsimp only at h
  split at h
  · cases h
    exact hbefore
  · cases h
    exact hbefore

theorem checkSize_isHandshake (hp : IsHandshake p) (h : ln.checkSize p cif = .ok (cif', sent)) :
    ∀ q ∈ sent, IsHandshake q := by
  unfold checkSize at h
  split at h
  · obtain ⟨⟨c, q⟩, hmarshal, h⟩ := bind_eq_ok_iff.mp h
    cases h
    intro r hr
    rw [List.mem_singleton.mp hr]
    exact isHandshake_of_header hp (marshalCIF_header hmarshal)
  · cases h
    exact List.forall_mem_nil _

theorem request_isHandshake (hp : IsHandshake p)
    (h : ln.request prim p cif a = .ok (ln', req, sent)) : ∀ q ∈ sent, IsHandshake q := by
  unfold request at h
  obtain ⟨saddr, -, h⟩ := bind_eq_ok_iff.mp h
  split at h
  · exact refuse_isHandshake hp h
  split at h
  · exact refuse_isHandshake hp h
  obtain ⟨⟨cif', before⟩, hsize, h⟩ := bind_eq_ok_iff.mp h
  exact admission_isHandshake hp (checkSize_isHandshake hp hsize) h

/-- A handshake packet is answered with handshake packets. -/
theorem newConnRequest_isHandshake (hp : IsHandshake p)
    (h : ln.newConnRequest prim p a = .ok (ln', req, sent)) : ∀ q ∈ sent, IsHandshake q := by
  unfold newConnRequest at h
  split at h
  · cases h
  · cases h
    exact List.forall_mem_nil _
  rename_i cif _
  have hanswer : IsHandshake (answer p cif.srtSocketId a.timestamp) := ⟨hp.1, rfl⟩
  dsimp only at h
  split at h
  · unfold answerInduction at h
    obtain ⟨saddr, -, h⟩ := bind_eq_ok_iff.mp h
    obtain ⟨⟨c, q⟩, hmarshal, h⟩ := bind_eq_ok_iff.mp h
    cases h
    intro r hr
    rw [List.mem_singleton.mp hr]
    exact isHandshake_of_header hanswer (marshalCIF_header hmarshal)
  split at h
  · exact request_isHandshake hanswer h
  · cases h
    exact List.forall_mem_nil _

theorem newConnRequest_config (h : ln.newConnRequest prim p a = .ok (ln', req, sent)) :
    ln'.config = ln.config := by
  cases hcif : CIFHandshake.ofPacket p with
  | error e =>
    unfold newConnRequest at h
    rw [hcif] at h
    cases e with
    | panic => cases h
    | error text =>
      cases h
      rfl
  | ok cif =>
    cases newConnRequest_cases hcif h with
    | answered => rfl
    | dropped => rfl
    | concluded htype ln' req sent hcase => cases hcase <;> rfl

end

end Listener

namespace ConnRequest

section
variable {ln ln' : Listener} {req req' : ConnRequest} {timestamp : UInt32} {sent : List Packet}

theorem isHandshake_handshakePacket (req : ConnRequest) (timestamp : UInt32) :
    IsHandshake (req.handshakePacket timestamp) := ⟨rfl, rfl⟩

theorem reject_isHandshake {reason : RejectionReason}
    (h : reject ln req reason timestamp = .ok (ln', req', sent)) :
    ln'.config = ln.config ∧ ∀ q ∈ sent, IsHandshake q := by
  unfold reject at h
  split at h
  · obtain ⟨⟨handshake, q⟩, hmarshal, h⟩ := bind_eq_ok_iff.mp h
    cases h
    refine ⟨rfl, fun r hr => ?_⟩
    rw [List.mem_singleton.mp hr]
    exact Listener.isHandshake_of_header (req.isHandshake_handshakePacket timestamp)
      (Listener.marshalCIF_header hmarshal)
  · cases h
    exact ⟨rfl, List.forall_mem_nil _⟩

theorem accept_isHandshake {conn : Except String SrtConn}
    (h : accept ln req timestamp = .ok (ln', req', conn, sent)) :
    ln'.config = ln.config ∧ ∀ q ∈ sent, IsHandshake q := by
  unfold accept at h
  split at h
  · obtain ⟨⟨ln₁, req₁, sent₁⟩, hreject, h⟩ := bind_eq_ok_iff.mp h
    cases h
    exact reject_isHandshake hreject
  split at h
  · obtain ⟨⟨recv, send⟩, -, h⟩ := bind_eq_ok_iff.mp h
    obtain ⟨⟨handshake, q⟩, hmarshal, h⟩ := bind_eq_ok_iff.mp h
    cases h
    refine ⟨rfl, fun r hr => ?_⟩
    rw [List.mem_singleton.mp hr]
    exact Listener.isHandshake_of_header (req.isHandshake_handshakePacket timestamp)
      (Listener.marshalCIF_header hmarshal)
  · cases h
    exact ⟨rfl, List.forall_mem_nil _⟩

end

end ConnRequest

namespace Listening

/-- The connection that `Accept` made. -/
def newConn (s : Listening) (conn : SrtConn) : ListenerConn :=
  ⟨conn.madeWith, Endpoint.init conn.madeWith s.listener.config.mss.toNat⟩

/-- What a step of the listener does to its connections, to the packets from the socket and to what
is sent. -/
inductive StepCase (prim : Primitives) (sort : SortSlice) (s : Listening) : Listening → Prop where
  /-- Nothing happens to a connection. -/
  | quiet {s' : Listening} {sent : List Packet}
      (hconfig : s'.listener.config = s.listener.config) (hconns : s'.conns = s.conns)
      (hqueue : ∀ r ∈ s'.rcvQueue, r ∈ s.rcvQueue)
      (hbacklog : ∀ p ∈ s'.backlog, p ∈ s.backlog ∨ IsHandshake p)
      (hsent : ∀ p ∈ sent, IsHandshake p) (hwire : s'.wire = s.wire ++ addressed sent) :
      StepCase prim sort s s'
  | acts {i : Nat} {c : ListenerConn} {e : Endpoint.Event} {out : Endpoint × List Bytes}
      (hc : s.conns[i]? = some c) (hact : c.endpoint.act prim sort e = some out) :
      StepCase prim sort s (s.update i c out)
  | routed {i : Nat} {c : ListenerConn} {p : Packet} {localAddr : Option String}
      {rest : List Received} (toQueue : Bool) (hqueue : s.rcvQueue = ⟨p, localAddr⟩ :: rest)
      (hc : s.conns[i]? = some c) (hid : p.header.destinationSocketId = c.config.socketId)
      (hne : p.header.destinationSocketId ≠ 0) (hpeer : fromPeer s.listener.config c p = true) :
      StepCase prim sort s ({ s with rcvQueue := rest }.update i c
        (push c.endpoint p toQueue, []))
  | accepted {s' : Listening} {conn : SrtConn} {sent : List Packet}
      (hcaller : conn.isCaller = false)
      (hconfig : s'.listener.config = s.listener.config)
      (hconns : s'.conns = s.conns ++ [s.newConn conn]) (hqueue : s'.rcvQueue = s.rcvQueue)
      (hbacklog : s'.backlog = s.backlog) (hsent : ∀ p ∈ sent, IsHandshake p)
      (hwire : s'.wire = s.wire ++ addressed sent) : StepCase prim sort s s'

/-- What a step does to the connections that are gone and to those that `Close` waits for. -/
inductive Frame (s : Listening) : Listening → Prop where
  | same {s' : Listening} (hgone : s'.gone = s.gone) (hclosing : s'.closing = s.closing)
      (hshutdown : s'.shutdown = s.shutdown) : Frame s s'
  | gone {i : Nat} {c : ListenerConn} (hc : s.conns[i]? = some c)
      (hclosed : c.endpoint.stage = .closed) (ln : Listener) :
      Frame s { s with listener := ln, gone := s.gone ++ [i] }
  | close (hopen : s.shutdown = false) :
      Frame s { s with shutdown := true, closing := some s.registered }
  | closed {closing : List Nat} {k i : Nat} {c : ListenerConn} (hclosing : s.closing = some closing)
      (hk : closing[k]? = some i) (hc : s.conns[i]? = some c)
      (hclosed : c.endpoint.stage = .closed) :
      Frame s { s with closing := some (closing.eraseIdx k) }

section
variable {prim : Primitives} {sort : SortSlice} {s s' : Listening}

/-- Nothing is sent either. -/
theorem StepCase.silent (hconfig : s'.listener.config = s.listener.config)
    (hconns : s'.conns = s.conns) (hqueue : ∀ r ∈ s'.rcvQueue, r ∈ s.rcvQueue)
    (hbacklog : ∀ p ∈ s'.backlog, p ∈ s.backlog ∨ IsHandshake p) (hwire : s'.wire = s.wire) :
    StepCase prim sort s s' := by
  refine .quiet hconfig hconns hqueue hbacklog (List.forall_mem_nil _) ?_
  rw [hwire]
  exact (List.append_nil _).symm

/-! ### The maps -/

theorem registry_congr (hlistener : s'.listener = s.listener)
    (hrequests : s'.requests = s.requests) (hgone : s'.gone = s.gone)
    (hconns : s'.conns.map ListenerConn.config = s.conns.map ListenerConn.config) :
    s'.registry = s.registry := by
  unfold registry live
  rw [hlistener, hrequests, hgone, hconns]

/-- A connection that goes on keeps what it was made with. -/
theorem map_config_set {i : Nat} {c : ListenerConn} (hc : s.conns[i]? = some c) (e : Endpoint) :
    (s.conns.set i { c with endpoint := e }).map ListenerConn.config =
      s.conns.map ListenerConn.config := by
  obtain ⟨l₁, l₂, hl, hset, -⟩ := exists_cut hc
  rw [hset, hl]
  simp

/-- The places of the connections that are not gone are in the list, and each of them once. -/
theorem mem_live_iff {config : SrtConnConfig} {i : Nat} :
    (config, i) ∈ s.live ↔ (∃ c, s.conns[i]? = some c ∧ c.config = config) ∧ i ∉ s.gone := by
  unfold live
  rw [List.mem_filter, List.mem_zipIdx_iff_getElem?, List.getElem?_map, Option.map_eq_some_iff,
    decide_eq_true_eq]

theorem nodup_live (s : Listening) : (s.live.map Prod.snd).Nodup := by
  refine List.Nodup.sublist (List.Sublist.map _ List.filter_sublist) ?_
  rw [List.zipIdx_map_snd]
  exact List.nodup_range' _

theorem registry_onShutdown (prim : Primitives) {i : Nat} (h : s.onShutdown i = some s') :
    ∃ k, s.live.findIdx? (·.2 == i) = some k ∧
      Registry.step prim s.registry (.shutdown k) = some s'.registry := by
  obtain ⟨c, hc, h⟩ := Option.bind_eq_some_iff.mp h
  split at h
  · rename_i hopen
    cases h
    have hmem : (c.config, i) ∈ s.live := mem_live_iff.mpr ⟨⟨c, hc, rfl⟩, hopen.2⟩
    obtain ⟨k, hk⟩ : ∃ k, s.live.findIdx? (·.2 == i) = some k := by
      rw [← Option.isSome_iff_exists, List.findIdx?_isSome, List.any_eq_true]
      exact ⟨_, hmem, beq_self_eq_true i⟩
    refine ⟨k, hk, ?_⟩
    obtain ⟨hlt, hsnd, -⟩ := List.findIdx?_eq_some_iff_getElem.mp hk
    -- The element there is the one of this connection.
    have hat : s.live[k]? = some (c.config, i) := by
      rw [List.getElem?_eq_getElem hlt]
      obtain ⟨⟨c', hc', hconfig⟩, -⟩ := mem_live_iff.mp
        (show (s.live[k].1, s.live[k].2) ∈ s.live from List.getElem_mem hlt)
      have hi : s.live[k].2 = i := beq_iff_eq.mp hsnd
      rw [hi, hc] at hc'
      cases hc'
      exact congrArg some (Prod.ext hconfig.symm hi)
    have hlive : live { s with
        listener := s.listener.handleShutdown c.config.socketId c.config.peerSocketId
        gone := s.gone ++ [i] } = s.live.eraseIdx k := by
      rw [← filter_ne_eq_eraseIdx Prod.snd s.nodup_live hat]
      unfold live
      rw [List.filter_filter]
      refine List.filter_congr fun x _ => ?_
      rw [Bool.eq_iff_iff]
      simp [and_comm]
    unfold Registry.step registry
    dsimp only
    rw [List.getElem?_map, hat, hlive, List.eraseIdx_map]
    rfl
  · cases h

/-- `Accept` in the maps. -/
theorem registry_accept {request : Nat} {timestamp : UInt32}
    (hgone : ∀ i ∈ s.gone, i < s.conns.length) (h : s.accept request timestamp = some s') :
    Registry.step prim s.registry (.accept request timestamp) = some s'.registry := by
  obtain ⟨r, hr, h⟩ := Option.bind_eq_some_iff.mp h
  obtain ⟨⟨ln, req, conn, sent⟩, haccept, h⟩ := Option.bind_eq_some_iff.mp h
  have hmade : ∀ c ∈ conn.toOption, newSRTConn c.madeWith = c := by
    intro c hc
    cases ConnRequest.accept_cases (eq_ok_of_toOption haccept) with
    | noPassphrase => cases hc
    | resolved => cases hc
    | created =>
      cases hc
      rfl
  cases h
  unfold Registry.step registry
  dsimp only
  rw [hr]
  dsimp only [Option.bind_eq_bind, Option.bind_some]
  rw [haccept]
  dsimp only [Option.bind_some, Option.pure_def]
  congr 2
  -- The new connection has a place of its own.
  cases hconn : conn.toOption with
  | none => simp [live]
  | some c =>
    have hlast : s.conns.length ∉ s.gone := fun hmem => Nat.lt_irrefl _ (hgone _ hmem)
    simp [live, List.zipIdx_append, hlast, hmade c hconn]

/-- The connection that the map has for a socket id is one with this socket id. -/
theorem pointer_spec {socketId : UInt32} {i : Nat} (h : s.pointer socketId = some i) :
    ∃ c, s.conns[i]? = some c ∧ c.config.socketId = socketId := by
  unfold pointer at h
  split at h
  · have hany := List.find?_some h
    cases hc : s.conns[i]? with
    | none =>
      rw [hc] at hany
      cases hany
    | some c =>
      rw [hc] at hany
      exact ⟨c, rfl, beq_iff_eq.mp hany⟩
  · cases h

/-! ### Steps -/

/-- Only handshake packets are in the backlog. -/
def Waiting (s : Listening) : Prop := ∀ p ∈ s.backlog, IsHandshake p

/-- All that a step of the listener does. In the maps it is a step too, or nothing. -/
structure Steps (prim : Primitives) (sort : SortSlice) (s : Listening) (e : Event)
    (s' : Listening) : Prop where
  conns : StepCase prim sort s s'
  frame : Frame s s'
  maps : (∀ i ∈ s.gone, i < s.conns.length) → s'.registry = s.registry ∨
    ∃ f ∈ s.registryEvent e, Registry.step prim s.registry f = some s'.registry

/-- What a connection does is a step of that connection. -/
theorem act_steps {e : Event} {i : Nat} {f : Endpoint.Event}
    (h : s.act prim sort i f = some s') : Steps prim sort s e s' := by
  obtain ⟨c, hc, h⟩ := Option.bind_eq_some_iff.mp h
  obtain ⟨out, hact, h⟩ := Option.bind_eq_some_iff.mp h
  cases h
  exact ⟨.acts hc hact, .same rfl rfl rfl,
    fun _ => .inl (registry_congr rfl rfl rfl (map_config_set hc _))⟩

theorem read_steps {toQueue : Bool} (h : s.read toQueue = some s') :
    Steps prim sort s (.read toQueue) s' := by
  unfold read at h
  split at h
  · cases h
  rename_i p localAddr rest hqueue
  have hrest : ∀ r ∈ rest, r ∈ s.rcvQueue := fun r hr => hqueue ▸ List.mem_cons_of_mem _ hr
  -- The packet is dropped.
  have hdropped : Steps prim sort s (.read toQueue) { s with rcvQueue := rest } :=
    ⟨.silent rfl rfl hrest (fun p hp => .inl hp) rfl, .same rfl rfl rfl, fun _ => .inl rfl⟩
  dsimp only at h
  split at h
  · cases h
    exact hdropped
  split at h
  · split at h
    · rename_i htype
      cases h
      refine ⟨.silent rfl rfl hrest (fun q hq => ?_) rfl, .same rfl rfl rfl, fun _ => .inl rfl⟩
      refine (mem_offer hq).imp id fun heq => ?_
      rw [heq]
      simpa [IsHandshake] using htype
    · cases h
      exact hdropped
  rename_i hne
  cases h
  unfold route
  split
  · exact hdropped
  rename_i i hpointer
  obtain ⟨c, hc, hid⟩ := pointer_spec hpointer
  rw [hc]
  dsimp only
  split
  · rename_i hpeer
    exact ⟨.routed toQueue hqueue hc hid.symm hne hpeer, .same rfl rfl rfl,
      fun _ => .inl (registry_congr rfl rfl rfl (map_config_set hc _))⟩
  · exact hdropped

theorem accept_cases {request : Nat} {timestamp : UInt32}
    (h : s.accept request timestamp = some s') : StepCase prim sort s s' := by
  obtain ⟨req, -, h⟩ := Option.bind_eq_some_iff.mp h
  obtain ⟨⟨ln, req', conn, sent⟩, haccept, h⟩ := Option.bind_eq_some_iff.mp h
  cases h
  have haccept := eq_ok_of_toOption haccept
  obtain ⟨hconfig, hsent⟩ := ConnRequest.accept_isHandshake haccept
  cases ConnRequest.accept_cases haccept with
  | noPassphrase =>
    exact .quiet hconfig (List.append_nil _) (fun r hr => hr) (fun p hp => .inl hp) hsent rfl
  | resolved =>
    exact .quiet hconfig (List.append_nil _) (fun r hr => hr) (fun p hp => .inl hp) hsent rfl
  | created => exact .accepted rfl hconfig rfl rfl rfl hsent rfl

/-- Every step of the listener and its connections is one of these cases. -/
theorem step_cases {e : Event} (hwaiting : s.Waiting) (h : s.step prim sort e = some s') :
    Steps prim sort s e s' := by
  cases e with
  | read toQueue => exact read_steps h
  | accept2 a =>
    change s.accept2 prim a = some s' at h
    unfold accept2 at h
    split at h
    · cases h
    rename_i p rest hbacklog
    obtain ⟨⟨ln, req, sent⟩, hnew, h⟩ := Option.bind_eq_some_iff.mp h
    cases h
    have hok := eq_ok_of_toOption hnew
    have hp : IsHandshake p := hwaiting p (hbacklog ▸ List.mem_cons_self)
    refine ⟨.quiet (Listener.newConnRequest_config hok) rfl (fun r hr => hr)
      (fun q hq => .inl (hbacklog ▸ List.mem_cons_of_mem _ hq))
      (Listener.newConnRequest_isHandshake hp hok) rfl, .same rfl rfl rfl, fun _ => .inr ?_⟩
    refine ⟨.arrival p a, ?_, ?_⟩
    · show s.backlog.head?.map _ = some _
      rw [hbacklog]
      rfl
    · show ((s.listener.newConnRequest prim p a).toOption.bind _) = _
      rw [hnew]
      rfl
  | setPassphrase request passphrase =>
    obtain ⟨r, hr, h⟩ := Option.bind_eq_some_iff.mp h
    split at h
    · cases h
    rename_i req result hne hset
    cases h
    refine ⟨.silent rfl rfl (fun r hr => hr) (fun p hp => .inl hp) rfl, .same rfl rfl rfl,
      fun _ => .inr ⟨.setPassphrase request passphrase, rfl, ?_⟩⟩
    show (s.requests[request]?.bind _) = _
    rw [hr, Option.bind_some, hset]
    cases result with
    | ok => rfl
    | error fault =>
      cases fault with
      | panic => exact (hne rfl).elim
      | error text => rfl
  | accept request timestamp =>
    refine ⟨accept_cases h, ?_, fun hgone => .inr ⟨_, rfl, registry_accept hgone h⟩⟩
    obtain ⟨r, -, h⟩ := Option.bind_eq_some_iff.mp h
    obtain ⟨⟨ln, req, conn, sent⟩, -, h⟩ := Option.bind_eq_some_iff.mp h
    cases h
    exact .same rfl rfl rfl
  | reject request reason timestamp =>
    obtain ⟨r, hr, h⟩ := Option.bind_eq_some_iff.mp h
    obtain ⟨⟨ln, req, sent⟩, hreject, h⟩ := Option.bind_eq_some_iff.mp h
    cases h
    obtain ⟨hconfig, hsent⟩ := ConnRequest.reject_isHandshake (eq_ok_of_toOption hreject)
    refine ⟨.quiet hconfig rfl (fun r hr => hr) (fun p hp => .inl hp) hsent rfl,
      .same rfl rfl rfl, fun _ => .inr ⟨.reject request reason timestamp, rfl, ?_⟩⟩
    show (s.requests[request]?.bind _) = _
    rw [hr, Option.bind_some]
    show ((ConnRequest.reject s.listener r.request reason timestamp).toOption.bind _) = _
    rw [hreject]
    rfl
  | act i f => exact act_steps h
  | onShutdown i =>
    obtain ⟨k, hk, hstep⟩ := registry_onShutdown prim h
    obtain ⟨c, hc, h⟩ := Option.bind_eq_some_iff.mp h
    split at h
    · rename_i hopen
      cases h
      refine ⟨.silent rfl rfl (fun r hr => hr) (fun p hp => .inl hp) rfl, .gone hc hopen.1 _,
        fun _ => .inr ⟨.shutdown k, ?_, hstep⟩⟩
      show (s.live.findIdx? (·.2 == i)).map _ = some _
      rw [hk]
      rfl
    · cases h
  | close =>
    cases h
    unfold close
    split
    · exact ⟨.silent rfl rfl (fun r hr => hr) (fun p hp => .inl hp) rfl, .same rfl rfl rfl,
        fun _ => .inl rfl⟩
    · rename_i hopen
      exact ⟨.silent rfl rfl (fun r hr => hr) (fun p hp => .inl hp) rfl,
        .close (Bool.eq_false_iff.mpr hopen), fun _ => .inl rfl⟩
  | closeConn k timestamp =>
    obtain ⟨closing, -, h⟩ := Option.bind_eq_some_iff.mp h
    obtain ⟨i, -, h⟩ := Option.bind_eq_some_iff.mp h
    exact act_steps h
  | closedConn k =>
    obtain ⟨closing, hclosing, h⟩ := Option.bind_eq_some_iff.mp h
    obtain ⟨i, hk, h⟩ := Option.bind_eq_some_iff.mp h
    obtain ⟨c, hc, h⟩ := Option.bind_eq_some_iff.mp h
    split at h
    · rename_i hclosed
      cases h
      exact ⟨.silent rfl rfl (fun r hr => hr) (fun p hp => .inl hp) rfl,
        .closed hclosing hk hc hclosed, fun _ => .inl rfl⟩
    · cases h

/-- A packet that is pushed into the queue leaves the ends. -/
theorem push_steady (e : Endpoint) (p : Packet) (toQueue : Bool) :
    e.Steady (push e p toQueue) := by
  unfold push
  split
  · exact .refl e
  · exact ⟨⟨.refl _, List.prefix_rfl, Nat.le_refl _⟩, rfl, id⟩

/-- A connection stays in its place. It keeps what it was made with, and it stays closed. -/
theorem StepCase.conn (hcase : StepCase prim sort s s') {i : Nat} {c : ListenerConn}
    (hc : s.conns[i]? = some c) :
    ∃ c', s'.conns[i]? = some c' ∧ c'.config = c.config ∧
      (c.endpoint.stage = .closed → c'.endpoint.stage = .closed) := by
  have hset : ∀ {k : Nat} {c₀ : ListenerConn} {x : Endpoint}, s.conns[k]? = some c₀ →
      c₀.endpoint.Steady x →
      ∃ c', (s.conns.set k { c₀ with endpoint := x })[i]? = some c' ∧ c'.config = c.config ∧
        (c.endpoint.stage = .closed → c'.endpoint.stage = .closed) := by
    intro k c₀ x hk hsteady
    by_cases hik : k = i
    · subst hik
      cases hk.symm.trans hc
      exact ⟨_, List.getElem?_set_self (List.getElem?_eq_some_iff.mp hc).1, rfl, hsteady.closed⟩
    · exact ⟨c, by rw [List.getElem?_set_ne hik, hc], rfl, id⟩
  cases hcase with
  | quiet hconfig hconns => exact ⟨c, hconns ▸ hc, rfl, id⟩
  | acts hk hact => exact hset hk (Endpoint.act_steady hact)
  | routed toQueue hqueue hk => exact hset hk (push_steady _ _ toQueue)
  | accepted hcaller hconfig hconns =>
    refine ⟨c, ?_, rfl, id⟩
    rw [hconns, List.getElem?_append_left (List.getElem?_eq_some_iff.mp hc).1, hc]

theorem StepCase.waiting (hcase : StepCase prim sort s s') (h : s.Waiting) : s'.Waiting := by
  cases hcase with
  | quiet hconfig hconns hqueue hbacklog => exact fun p hp => (hbacklog p hp).elim (h p) id
  | acts => exact h
  | routed => exact h
  | accepted hcaller hconfig hconns hqueue hbacklog => exact fun p hp => h p (hbacklog ▸ hp)

/-! ### The maps -/

/-- What holds as long as the steps are allowed. -/
structure Mapped (s : Listening) : Prop where
  waiting : s.Waiting
  gone : ∀ i ∈ s.gone, i < s.conns.length
  indexed : s.registry.Indexed

theorem mapped_init (ln : Listener) (hconns : ln.conns = ∅) (hpeers : ln.connsByPeer = ∅) :
    (init ln).Mapped where
  waiting := List.forall_mem_nil _
  gone := List.forall_mem_nil _
  indexed := Registry.indexed_init ln hconns hpeers

/-- Only a connection that was made can be gone. -/
theorem Frame.gone_lt (hframe : Frame s s') (hcase : StepCase prim sort s s')
    (h : ∀ i ∈ s.gone, i < s.conns.length) : ∀ i ∈ s'.gone, i < s'.conns.length := by
  have hkept : ∀ {i : Nat}, i < s.conns.length → i < s'.conns.length := by
    intro i hi
    obtain ⟨c', hc', -⟩ := hcase.conn (List.getElem?_eq_getElem hi)
    exact (List.getElem?_eq_some_iff.mp hc').1
  intro i hi
  cases hframe with
  | same hgone => exact hkept (h i (hgone ▸ hi))
  | gone hc =>
    rcases List.mem_append.mp hi with hi | hi
    · exact h i hi
    · rw [List.mem_singleton.mp hi]
      exact (List.getElem?_eq_some_iff.mp hc).1
  | close => exact h i hi
  | closed => exact h i hi

/-- The step lemma. -/
theorem Mapped.step {e : Event} (h : s.Mapped) (hallowed : s.Allowed prim e)
    (hs : s.step prim sort e = some s') : s'.Mapped := by
  obtain ⟨hcase, hframe, hmaps⟩ := step_cases h.waiting hs
  refine ⟨hcase.waiting h.waiting, hframe.gone_lt hcase h.gone, ?_⟩
  rcases hmaps h.gone with heq | ⟨f, hf, hstep⟩
  · exact heq ▸ h.indexed
  · exact h.indexed.step (hallowed f hf) hstep

end

end Listening

end Gosrt
