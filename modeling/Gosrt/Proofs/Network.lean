import Gosrt.Proofs.Established
import Gosrt.Proofs.Listening

/-!
# `Gosrt.Proofs.Network`: a connection among many

A listener has one socket for all its connections, and anybody can send to it. Still a connection
and its peer are by themselves: whatever the listener, its other connections and the rest of the
world do, the two of them go through a run of `Duplex` (`run_projects`). So what holds of two
connections holds of each pair in the network, and the results of `Gosrt.Proofs.Duplex` carry over
(`network_reads`).

The state of the pair is read off the state of the network (`Projects`). A connection that does not
exist yet is one that has done nothing.

The maps of the listener are as `Gosrt.Spec.Registry` has them, whatever else is going on
(`maps_correspond`).
-/

set_option autoImplicit false

namespace Gosrt

open Lib

/-- The address of a packet is the one that the socket gives. -/
theorem addr_newPacketFromData {addr : Option String} {data : Bytes} {p : Packet}
    (h : newPacketFromData addr data = .ok p) : p.header.addr = addr := by
  unfold newPacketFromData at h
  split at h
  · replace h := wrap_eq_ok_iff.mp h
    by_cases hlen : 16 ≤ data.length
    · obtain ⟨b0, b1, b2, b3, b4, b5, b6, b7, b8, b9, b10, b11, b12, b13, b14, b15, rest, rfl⟩ :=
        exists_sixteen_cons hlen
      rw [Packet.unmarshal_cons] at h
      split at h <;> cases h <;> rfl
    · unfold Packet.unmarshal at h
      rw [if_pos (by omega)] at h
      cases h
  · cases h
    rfl

namespace Endpoint

section
variable {x : Endpoint} {p : Packet}

/-- A dialer does not give a handshake packet to its connection. -/
theorem receive_handshake (hcaller : x.conn.isCaller = true) (hsize : 16 ≤ x.readSize)
    (hp : IsHandshake p) (toQueue : Bool) : x.receive p.marshal toQueue = x := by
  obtain ⟨hcontrol, htype⟩ := hp
  obtain ⟨r, hdecode, hrestores⟩ := decode_control (p := p) hsize hcontrol (by
    rw [htype]
    decide)
  have hr : r.header.isControlPacket = true ∧ r.header.controlType = CtrlType.handshake :=
    ⟨hrestores.kind.trans hcontrol, (hrestores.control hcontrol).1.trans htype⟩
  have hfor : isFor x.conn r = false := by
    unfold isFor
    rw [hcaller, hr.1, hr.2]
    simp
  unfold receive
  rw [hdecode]
  dsimp only
  rw [hfor, if_pos (by simp)]

/-- What `reader` of a listener gives to a connection is what the connection receives. -/
theorem receive_eq_push {m : Bytes} (hcaller : x.conn.isCaller = false)
    (hdecode : x.decode m = .ok p) (hid : p.header.destinationSocketId = x.conn.socketId)
    (hne : p.header.destinationSocketId ≠ 0) (toQueue : Bool) :
    x.receive m toQueue = Listening.push x p toQueue := by
  have hfor : isFor x.conn p = true := by
    unfold isFor
    rw [hcaller]
    simp [hid, hid ▸ hne]
  unfold receive Listening.push
  rw [hdecode]
  dsimp only
  rw [hfor, Bool.not_true, Bool.false_or]

end

end Endpoint

namespace Network

/-- What a step of the network does. -/
inductive StepCase (prim : Primitives) (sort : SortSlice) (s : Network) :
    Event → Network → Prop where
  | hub {e : Listening.Event} {next : Listening} (hnext : s.hub.step prim sort e = some next) :
      StepCase prim sort s (.hub e) { s with hub := next }
  | toHub {j index : Nat} {localAddr : Option String} {p : NetworkPeer} {data : Bytes}
      (hp : s.peers[j]? = some p) (hdata : p.sent[index]? = some data) :
      StepCase prim sort s (.toHub j index localAddr)
        { s with hub := s.hub.arrive p.addr localAddr data }
  | foreign (addr : String) (localAddr : Option String) (data : Bytes) :
      StepCase prim sort s (.foreign addr localAddr data)
        { s with hub := s.hub.arrive addr localAddr data }
  | peer {j : Nat} {e : Endpoint.Event} {p : NetworkPeer} {out : Endpoint × List Bytes}
      (hp : s.peers[j]? = some p) (hact : p.endpoint.act prim sort e = some out) :
      StepCase prim sort s (.peer j e) (s.update j p out)
  | toPeer {j index : Nat} (toQueue : Bool) {p : NetworkPeer} {data : Bytes}
      (hp : s.peers[j]? = some p) (hwire : s.hub.wire[index]? = some (some p.addr, data)) :
      StepCase prim sort s (.toPeer j index toQueue)
        (s.update j p (p.endpoint.receive data toQueue, []))

/-- Every step of the network is one of these cases. -/
theorem step_cases {prim : Primitives} {sort : SortSlice} {s s' : Network} {e : Event}
    (h : s.step prim sort e = some s') : StepCase prim sort s e s' := by
  cases e with
  | hub e =>
    obtain ⟨next, hnext, rfl⟩ := Option.map_eq_some_iff.mp h
    exact .hub hnext
  | toHub j index localAddr =>
    obtain ⟨p, hp, h⟩ := Option.bind_eq_some_iff.mp h
    obtain ⟨data, hdata, h⟩ := Option.bind_eq_some_iff.mp h
    cases h
    exact .toHub hp hdata
  | foreign addr localAddr data =>
    cases h
    exact .foreign addr localAddr data
  | peer j e =>
    obtain ⟨p, hp, h⟩ := Option.bind_eq_some_iff.mp h
    obtain ⟨out, hact, h⟩ := Option.bind_eq_some_iff.mp h
    cases h
    exact .peer hp hact
  | toPeer j index toQueue =>
    obtain ⟨p, hp, h⟩ := Option.bind_eq_some_iff.mp h
    obtain ⟨⟨addr, data⟩, hwire, h⟩ := Option.bind_eq_some_iff.mp h
    dsimp only at h
    split at h
    · rename_i hto
      cases h
      exact .toPeer toQueue hp (hto ▸ hwire)
    · cases h

/-! ### What every run keeps -/

/-- The configurations and the addresses stay, and the connections of the listener are what became
of new ones. -/
structure Wellformed (config : Config) (peers : List (String × SrtConnConfig)) (s : Network) :
    Prop where
  configured : s.hub.listener.config = config
  waiting : s.hub.Waiting
  roles : ∀ c ∈ s.hub.conns, c.config.isCaller = false
  steady : ∀ c ∈ s.hub.conns, (Endpoint.init c.config config.mss.toNat).Steady c.endpoint
  peers : s.peers.map (fun p => (p.addr, p.config)) = peers

section
variable {prim : Primitives} {sort : SortSlice} {config : Config}
  {peers : List (String × SrtConnConfig)} {s : Network} {next : Listening}

/-- Nothing is accepted when the network starts. -/
theorem wellformed_init (ln : Listener) (peers : List (String × SrtConnConfig)) :
    Wellformed ln.config peers (init ln peers) where
  configured := rfl
  waiting := List.forall_mem_nil _
  roles := List.forall_mem_nil _
  steady := List.forall_mem_nil _
  peers := by
    show (peers.map _).map _ = peers
    rw [List.map_map]
    exact List.map_id peers

/-- A connection of the listener goes on. -/
theorem Wellformed.update (h : Wellformed config peers s) {rest : List Received} {i : Nat}
    {c : ListenerConn} {out : Endpoint × List Bytes} (hc : s.hub.conns[i]? = some c)
    (hout : c.endpoint.Steady out.1) :
    Wellformed config peers { s with hub := { s.hub with rcvQueue := rest }.update i c out } where
  configured := h.configured
  waiting := h.waiting
  roles := by
    intro c' hc'
    rcases List.mem_or_eq_of_mem_set hc' with hc' | rfl
    · exact h.roles c' hc'
    · exact h.roles c (List.mem_of_getElem? hc)
  steady := by
    intro c' hc'
    rcases List.mem_or_eq_of_mem_set hc' with hc' | rfl
    · exact h.steady c' hc'
    · exact (h.steady c (List.mem_of_getElem? hc)).trans hout
  peers := h.peers

/-- A step of the listener keeps them. -/
theorem Wellformed.hub (h : Wellformed config peers s)
    (hcase : Listening.StepCase prim sort s.hub next) :
    Wellformed config peers { s with hub := next } := by
  have hwaiting := hcase.waiting h.waiting
  cases hcase with
  | quiet hconfig hconns =>
    exact
      { configured := hconfig.trans h.configured
        waiting := hwaiting
        roles := hconns ▸ h.roles
        steady := hconns ▸ h.steady
        peers := h.peers }
  | acts hc hact => exact h.update hc (Endpoint.act_steady hact)
  | routed toQueue hqueue hc => exact h.update hc (Listening.push_steady _ _ toQueue)
  | accepted hcaller hconfig hconns =>
    refine
      { configured := hconfig.trans h.configured
        waiting := hwaiting
        roles := ?_
        steady := ?_
        peers := h.peers }
    · intro c hc
      rw [hconns] at hc
      rcases List.mem_append.mp hc with hc | hc
      · exact h.roles c hc
      · rw [List.mem_singleton.mp hc]
        exact hcaller
    · intro c hc
      rw [hconns] at hc
      rcases List.mem_append.mp hc with hc | hc
      · exact h.steady c hc
      · rw [List.mem_singleton.mp hc, ← h.configured]
        exact .refl _

/-- A datagram goes to the queue, or is dropped. -/
theorem arrive_cases (s : Listening) (addr : String) (localAddr : Option String) (data : Bytes) :
    s.arrive addr localAddr data = s ∨
      ∃ p, newPacketFromData (some addr) (data.take s.listener.config.mss.toNat) = .ok p ∧
        s.arrive addr localAddr data =
          { s with rcvQueue := offer rcvQueueCapacity s.rcvQueue ⟨p, localAddr⟩ } := by
  unfold Listening.arrive
  split
  · exact .inl rfl
  · rename_i p hp
    exact .inr ⟨p, hp, rfl⟩

/-- Nothing but the queue changes. -/
theorem arrive_eq (s : Listening) (addr : String) (localAddr : Option String) (data : Bytes) :
    ∃ queue, s.arrive addr localAddr data = { s with rcvQueue := queue } := by
  rcases arrive_cases s addr localAddr data with heq | ⟨p, -, heq⟩
  · exact ⟨s.rcvQueue, heq⟩
  · exact ⟨_, heq⟩

theorem Wellformed.arrive (h : Wellformed config peers s) (addr : String)
    (localAddr : Option String) (data : Bytes) :
    Wellformed config peers { s with hub := s.hub.arrive addr localAddr data } := by
  obtain ⟨queue, heq⟩ := arrive_eq s.hub addr localAddr data
  rw [heq]
  exact ⟨h.configured, h.waiting, h.roles, h.steady, h.peers⟩

theorem map_peers_update {j : Nat} {p : NetworkPeer} (hp : s.peers[j]? = some p)
    (out : Endpoint × List Bytes) :
    (s.update j p out).peers.map (fun p => (p.addr, p.config)) =
      s.peers.map (fun p => (p.addr, p.config)) := by
  refine List.ext_getElem? fun k => ?_
  unfold update
  rw [List.getElem?_map, List.getElem?_map, List.getElem?_set]
  split
  · rename_i hk
    rw [← hk, hp, if_pos (List.getElem?_eq_some_iff.mp hp).1]
    rfl
  · rfl

/-- A step of a peer keeps them. -/
theorem Wellformed.peer (h : Wellformed config peers s) {j : Nat} {p : NetworkPeer}
    (hp : s.peers[j]? = some p) (out : Endpoint × List Bytes) :
    Wellformed config peers (s.update j p out) :=
  ⟨h.configured, h.waiting, h.roles, h.steady, (map_peers_update hp out).trans h.peers⟩

/-- A step of the network. -/
theorem Wellformed.step {s' : Network} {e : Event} (h : Wellformed config peers s)
    (hs : s.step prim sort e = some s') : Wellformed config peers s' := by
  cases step_cases hs with
  | hub hnext => exact h.hub (Listening.step_cases h.waiting hnext).conns
  | @toHub _ _ localAddr p data => exact h.arrive p.addr localAddr data
  | foreign addr localAddr data => exact h.arrive addr localAddr data
  | peer hp => exact h.peer hp _
  | toPeer _ hp => exact h.peer hp _

end

/-! ### The pair -/

/-- The place of a pair: the number of the connection and of the peer, with the address and what
both were made with. -/
structure Pairing where
  i : Nat
  j : Nat
  addr : String
  caller : SrtConnConfig
  listener : SrtConnConfig

/-- No other connection of the listener has the address. -/
structure Separate (t : Pairing) (s : Listening) : Prop where
  conn : ∀ c, s.conns[t.i]? = some c → c.config = t.listener
  only : ∀ i c, s.conns[i]? = some c → c.config.remoteAddr = some t.addr → i = t.i

/-- The pair in the network is in the state `d`. -/
structure Projects (t : Pairing) (config : Config) (s : Network) (d : Duplex) : Prop where
  left : s.peers[t.j]? = some ⟨t.addr, t.caller, d.left, d.fromLeft⟩
  right : ∀ c, s.hub.conns[t.i]? = some c → c.endpoint = d.right
  fresh : s.hub.conns[t.i]? = none → d.right = Endpoint.init t.listener config.mss.toNat
  /-- What is sent to the address is from this connection, or it is a handshake. -/
  toPeer : ∀ m, (some t.addr, m) ∈ s.hub.wire →
    m ∈ d.fromRight ∨ ∃ p, m = p.marshal ∧ IsHandshake p
  /-- What comes from the address is from this peer, or for no connection. -/
  toConn : ∀ r ∈ s.hub.rcvQueue, r.packet.header.addr = some t.addr →
    r.packet.header.destinationSocketId = 0 ∨
      ∃ m ∈ d.fromLeft,
        newPacketFromData (some t.addr) (m.take config.mss.toNat) = .ok r.packet

section
variable {prim : Primitives} {sort : SortSlice} {config : Config}
  {peers : List (String × SrtConnConfig)} {s : Network} {next : Listening} {t : Pairing}
  {d : Duplex}

/-- Seen from one pair, the network starts as two connections on a wire. -/
theorem projects_init (ln : Listener) {peers : List (String × SrtConnConfig)}
    (hpeer : peers[t.j]? = some (t.addr, t.caller)) :
    Projects t ln.config (init ln peers)
      (Duplex.init t.caller t.listener maxMSSSize.toNat ln.config.mss.toNat) where
  left := by
    show (peers.map _)[t.j]? = _
    rw [List.getElem?_map, hpeer]
    rfl
  right := fun c hc => by cases hc
  fresh := fun _ => rfl
  toPeer := fun m hm => by cases hm
  toConn := fun r hr => by cases hr

/-- Handshake packets are sent. -/
theorem mem_addressed {sent : List Packet} (hsent : ∀ p ∈ sent, IsHandshake p)
    {addr : Option String} {m : Bytes} (hm : (addr, m) ∈ Listening.addressed sent) :
    ∃ p, m = p.marshal ∧ IsHandshake p := by
  obtain ⟨p, hp, heq⟩ := List.mem_map.mp hm
  exact ⟨p, (congrArg Prod.snd heq).symm, hsent p hp⟩

/-- Nothing happens to the pair. -/
theorem Projects.quiet (h : Projects t config s d)
    (hconn : next.conns[t.i]? = s.hub.conns[t.i]?)
    (hqueue : ∀ r ∈ next.rcvQueue, r ∈ s.hub.rcvQueue)
    (hwire : ∀ m, (some t.addr, m) ∈ next.wire →
      (some t.addr, m) ∈ s.hub.wire ∨ ∃ p, m = p.marshal ∧ IsHandshake p) :
    Projects t config { s with hub := next } d where
  left := h.left
  right := fun c hc => h.right c (hconn ▸ hc)
  fresh := fun hnone => h.fresh (hconn ▸ hnone)
  toPeer := fun m hm => (hwire m hm).elim (h.toPeer m) .inr
  toConn := fun r hr => h.toConn r (hqueue r hr)

/-- The address of a connection is the one that it was made with. -/
theorem Wellformed.remoteAddr (h : Wellformed config peers s) {i : Nat} {c : ListenerConn}
    (hc : s.hub.conns[i]? = some c) : c.endpoint.conn.remoteAddr = c.config.remoteAddr :=
  (h.steady c (List.mem_of_getElem? hc)).same.remoteAddr

/-- Another connection does something. -/
theorem Projects.other (hwf : Wellformed config peers s) (h : Projects t config s d)
    (hsep : Separate t s.hub) {rest : List Received} (hrest : ∀ r ∈ rest, r ∈ s.hub.rcvQueue)
    {i : Nat} {c : ListenerConn} (hc : s.hub.conns[i]? = some c) (hi : i ≠ t.i)
    (out : Endpoint × List Bytes) :
    Projects t config { s with hub := { s.hub with rcvQueue := rest }.update i c out } d := by
  refine h.quiet ?_ hrest fun m hm => ?_
  · show (s.hub.conns.set i _)[t.i]? = _
    rw [List.getElem?_set_ne hi]
  · rcases List.mem_append.mp hm with hm | hm
    · exact .inl hm
    · -- It sends to its own address.
      obtain ⟨m', -, heq⟩ := List.mem_map.mp hm
      have haddr : c.endpoint.conn.remoteAddr = some t.addr := congrArg Prod.fst heq
      exact absurd (hsep.only i c hc ((hwf.remoteAddr hc).symm.trans haddr)) hi

/-- The connection of the pair does something. -/
theorem Projects.conn (h : Projects t config s d) {rest : List Received}
    (hrest : ∀ r ∈ rest, r ∈ s.hub.rcvQueue) {c : ListenerConn}
    (hc : s.hub.conns[t.i]? = some c) (out : Endpoint × List Bytes) :
    Projects t config { s with hub := { s.hub with rcvQueue := rest }.update t.i c out }
      { d with right := out.1, fromRight := d.fromRight ++ out.2 } where
  left := h.left
  right := by
    intro c' hc'
    have hset : (s.hub.conns.set t.i { c with endpoint := out.1 })[t.i]? = some c' := hc'
    rw [List.getElem?_set_self (List.getElem?_eq_some_iff.mp hc).1] at hset
    cases hset
    rfl
  fresh := by
    intro hnone
    have hset : (s.hub.conns.set t.i { c with endpoint := out.1 })[t.i]? = none := hnone
    rw [List.getElem?_set_self (List.getElem?_eq_some_iff.mp hc).1] at hset
    cases hset
  toPeer := by
    intro m hm
    rcases List.mem_append.mp hm with hm | hm
    · exact (h.toPeer m hm).imp_left (List.mem_append_left _)
    · obtain ⟨m', hm', heq⟩ := List.mem_map.mp hm
      obtain rfl : m' = m := congrArg Prod.snd heq
      exact .inl (List.mem_append_right _ hm')
  toConn := fun r hr => h.toConn r (hrest r hr)

/-- A step of the listener is a step of the pair, or nothing. -/
theorem Projects.hub (hwf : Wellformed config peers s) (hfixed : config.allowPeerIpChange = false)
    (haddr : t.listener.remoteAddr = some t.addr) (h : Projects t config s d)
    (hcase : Listening.StepCase prim sort s.hub next) (hsep : Separate t s.hub)
    (hsep' : Separate t next) :
    ∃ es d', run (Duplex.step prim sort) d es = some d' ∧
      Projects t config { s with hub := next } d' := by
  cases hcase with
  | quiet hconfig hconns hqueue hbacklog hsent hwire =>
    refine ⟨[], d, rfl, h.quiet (by rw [hconns]) hqueue fun m hm => ?_⟩
    rw [hwire] at hm
    exact (List.mem_append.mp hm).imp_right (mem_addressed hsent)
  | @acts i c e out hc hact =>
    by_cases hi : i = t.i
    · subst hi
      rw [h.right c hc] at hact
      refine ⟨[.act .right e], _, ?_, h.conn (fun r hr => hr) hc out⟩
      rw [run_cons]
      unfold Duplex.step
      rw [Pair.step_act_right hact]
      rfl
    · exact ⟨[], d, rfl, h.other hwf hsep (fun r hr => hr) hc hi out⟩
  | @routed i c p localAddr rest toQueue hqueue hc hid hne hpeer =>
    have hrest : ∀ r ∈ rest, r ∈ s.hub.rcvQueue := fun r hr => hqueue ▸ List.mem_cons_of_mem _ hr
    by_cases hi : i = t.i
    · subst hi
      -- The packet is from the peer of this connection.
      have hsteady := hwf.steady c (List.mem_of_getElem? hc)
      have hremote : c.endpoint.conn.remoteAddr = some t.addr := by
        rw [hwf.remoteAddr hc, hsep.conn c hc, haddr]
      have hfrom : p.header.addr = some t.addr := by
        unfold Listening.fromPeer at hpeer
        rw [hwf.configured, hfixed, Bool.false_or, hremote] at hpeer
        exact beq_iff_eq.mp hpeer
      obtain ⟨m, hm, hdecode⟩ :=
        (h.toConn ⟨p, localAddr⟩ (hqueue ▸ List.mem_cons_self) hfrom).resolve_left hne
      obtain ⟨index, hindex⟩ := List.getElem?_of_mem hm
      have hreceive : c.endpoint.receive m toQueue = Listening.push c.endpoint p toQueue := by
        refine Endpoint.receive_eq_push ?_ ?_ ?_ hne toQueue
        · rw [hsteady.same.isCaller]
          exact hwf.roles c (List.mem_of_getElem? hc)
        · unfold Endpoint.decode
          rw [hremote, hsteady.readSize]
          exact hdecode
        · rw [hsteady.same.socketId]
          exact hid
      refine ⟨[.receive .right index toQueue], _, ?_, h.conn hrest hc (_, [])⟩
      rw [run_cons]
      unfold Duplex.step
      have hparty : (Endpoint.party prim sort).receive d.right m toQueue =
          some (Listening.push c.endpoint p toQueue, []) := by
        rw [← h.right c hc, ← hreceive]
        rfl
      rw [Pair.step_receive_right hindex hparty]
      rfl
    · exact ⟨[], d, rfl, h.other hwf hsep hrest hc hi (_, [])⟩
  | @accepted _ conn _ hcaller hconfig hconns hqueue hbacklog hsent hwire =>
    refine ⟨[], d, rfl, ?_⟩
    have hnext : ∀ m, (some t.addr, m) ∈ next.wire →
        (some t.addr, m) ∈ s.hub.wire ∨ ∃ p, m = p.marshal ∧ IsHandshake p := by
      intro m hm
      rw [hwire] at hm
      exact (List.mem_append.mp hm).imp_right (mem_addressed hsent)
    by_cases hi : t.i = s.hub.conns.length
    · -- This is the connection of the pair.
      have hnone : s.hub.conns[t.i]? = none := List.getElem?_eq_none (Nat.le_of_eq hi.symm)
      have hnew : next.conns[t.i]? = some (s.hub.newConn conn) := by
        rw [hconns, hi]
        exact List.getElem?_concat_length
      have hmade : conn.madeWith = t.listener := hsep'.conn _ hnew
      refine
        { left := h.left
          right := fun c hc => ?_
          fresh := fun hnone' => ?_
          toPeer := fun m hm => (hnext m hm).elim (h.toPeer m) .inr
          toConn := fun r hr => h.toConn r (hqueue ▸ hr) }
      · obtain rfl : s.hub.newConn conn = c := Option.some.inj (hnew.symm.trans hc)
        rw [h.fresh hnone, ← hmade, ← hwf.configured]
        rfl
      · exact absurd (hnew.symm.trans hnone') (by simp)
    · refine h.quiet ?_ (fun r hr => hqueue ▸ hr) hnext
      rw [hconns]
      by_cases hlt : t.i < s.hub.conns.length
      · exact List.getElem?_append_left hlt
      · have hlength : (s.hub.conns ++ [s.hub.newConn conn]).length = s.hub.conns.length + 1 :=
          List.length_append
        rw [List.getElem?_eq_none (by omega : s.hub.conns.length ≤ t.i),
          List.getElem?_eq_none (by omega)]

/-- Connections that are separate after a step were separate before it. -/
theorem Separate.of_case (hcase : Listening.StepCase prim sort s.hub next)
    (h : Separate t next) : Separate t s.hub where
  conn := by
    intro c hc
    obtain ⟨c', hc', hconfig, -⟩ := hcase.conn hc
    exact hconfig.symm.trans (h.conn c' hc')
  only := by
    intro i c hc haddr
    obtain ⟨c', hc', hconfig, -⟩ := hcase.conn hc
    exact h.only i c' hc' (hconfig ▸ haddr)

/-- The connections of a later state are separate only if those of an earlier one are. -/
theorem separate_of_step {s' : Network} {e : Event} (hwf : Wellformed config peers s)
    (hs : s.step prim sort e = some s') (h : Separate t s'.hub) : Separate t s.hub := by
  have harrive : ∀ addr localAddr data,
      Separate t (s.hub.arrive addr localAddr data) → Separate t s.hub := by
    intro addr localAddr data h
    obtain ⟨queue, heq⟩ := arrive_eq s.hub addr localAddr data
    rw [heq] at h
    exact ⟨h.conn, h.only⟩
  cases step_cases hs with
  | hub hnext => exact .of_case (Listening.step_cases hwf.waiting hnext).conns h
  | toHub => exact harrive _ _ _ h
  | foreign => exact harrive _ _ _ h
  | peer => exact h
  | toPeer => exact h

/-- A datagram reaches the socket of the listener. -/
theorem Projects.arrive (hwf : Wellformed config peers s) (h : Projects t config s d)
    {addr : String} {data : Bytes} (localAddr : Option String)
    (hfrom : addr = t.addr → ∀ p,
      newPacketFromData (some addr) (data.take config.mss.toNat) = .ok p →
        p.header.destinationSocketId = 0 ∨ data ∈ d.fromLeft) :
    Projects t config { s with hub := s.hub.arrive addr localAddr data } d := by
  rcases arrive_cases s.hub addr localAddr data with heq | ⟨p, hp, heq⟩
  · rw [heq]
    exact h
  · rw [heq]
    refine ⟨h.left, h.right, h.fresh, h.toPeer, fun r hr haddr => ?_⟩
    rcases mem_offer hr with hr | rfl
    · exact h.toConn r hr haddr
    · rw [hwf.configured] at hp
      have hpaddr := addr_newPacketFromData hp
      obtain rfl : addr = t.addr := Option.some.inj (hpaddr.symm.trans haddr)
      exact (hfrom rfl p hp).imp_right fun hmem => ⟨data, hmem, hp⟩

/-- The peer of the pair goes on. -/
theorem Projects.peer (h : Projects t config s d) {p : NetworkPeer}
    (hp : s.peers[t.j]? = some p) (out : Endpoint × List Bytes) :
    Projects t config (s.update t.j p out)
      { d with left := out.1, fromLeft := d.fromLeft ++ out.2 } where
  left := by
    obtain rfl := Option.some.inj (hp.symm.trans h.left)
    exact List.getElem?_set_self (List.getElem?_eq_some_iff.mp hp).1
  right := h.right
  fresh := h.fresh
  toPeer := h.toPeer
  toConn := fun r hr haddr => (h.toConn r hr haddr).imp_right fun ⟨m, hm, hdecode⟩ =>
    ⟨m, List.mem_append_left _ hm, hdecode⟩

/-- Another peer goes on. -/
theorem Projects.otherPeer (h : Projects t config s d) {j : Nat} (hj : j ≠ t.j) (p : NetworkPeer)
    (out : Endpoint × List Bytes) : Projects t config (s.update j p out) d where
  left := by
    show (s.peers.set j _)[t.j]? = _
    rw [List.getElem?_set_ne hj]
    exact h.left
  right := h.right
  fresh := h.fresh
  toPeer := h.toPeer
  toConn := h.toConn

/-- No other peer has the address of the pair. -/
theorem Wellformed.onlyPeer (hwf : Wellformed config peers s)
    (honly : ∀ j q, peers[j]? = some q → q.1 = t.addr → j = t.j) {j : Nat} {p : NetworkPeer}
    (hp : s.peers[j]? = some p) (haddr : p.addr = t.addr) : j = t.j := by
  refine honly j (p.addr, p.config) ?_ haddr
  rw [← hwf.peers, List.getElem?_map, hp]
  rfl

/-- A step of the network is a step of the pair, or nothing. -/
theorem Projects.step {s' : Network} {e : Event} (hwf : Wellformed config peers s)
    (hfixed : config.allowPeerIpChange = false)
    (haddr : t.listener.remoteAddr = some t.addr) (hcaller : t.caller.isCaller = true)
    (honly : ∀ j q, peers[j]? = some q → q.1 = t.addr → j = t.j)
    (hsteady : (Endpoint.init t.caller maxMSSSize.toNat).Steady d.left)
    (h : Projects t config s d) (hhonest : s.Honest e) (hs : s.step prim sort e = some s')
    (hsep : Separate t s'.hub) :
    ∃ es d', run (Duplex.step prim sort) d es = some d' ∧ Projects t config s' d' := by
  cases step_cases hs with
  | hub hnext =>
    have hcase := (Listening.step_cases hwf.waiting hnext).conns
    exact h.hub hwf hfixed haddr hcase (.of_case hcase hsep) hsep
  | @toHub _ _ localAddr _ _ hp hdata =>
    refine ⟨[], d, rfl, h.arrive hwf localAddr fun heq q hq => .inr ?_⟩
    obtain rfl := hwf.onlyPeer honly hp heq
    obtain rfl := Option.some.inj (hp.symm.trans h.left)
    exact List.mem_of_getElem? hdata
  | foreign addr localAddr data =>
    refine ⟨[], d, rfl, h.arrive hwf localAddr fun heq q hq => .inl ?_⟩
    -- The address is the one of a peer, so the packet is for no connection.
    have hforeign := hhonest.resolve_left fun hall =>
      hall _ (List.mem_of_getElem? h.left) heq.symm
    rw [hwf.configured, hq] at hforeign
    exact hforeign
  | @peer j e p out hp hact =>
    by_cases hj : j = t.j
    · subst hj
      refine ⟨[.act .left e], _, ?_, h.peer hp out⟩
      obtain rfl := Option.some.inj (hp.symm.trans h.left)
      rw [run_cons]
      unfold Duplex.step
      rw [Pair.step_act_left hact]
      rfl
    · exact ⟨[], d, rfl, h.otherPeer hj p out⟩
  | @toPeer j index toQueue p data hp hwire =>
    by_cases hj : j = t.j
    · subst hj
      have hnext := h.peer hp (p.endpoint.receive data toQueue, [])
      obtain rfl := Option.some.inj (hp.symm.trans h.left)
      rcases h.toPeer data (List.mem_of_getElem? hwire) with hmem | ⟨q, rfl, hq⟩
      · obtain ⟨k, hk⟩ := List.getElem?_of_mem hmem
        refine ⟨[.receive .left k toQueue], _, ?_, hnext⟩
        rw [run_cons]
        unfold Duplex.step
        rw [Pair.step_receive_left hk rfl]
        rfl
      · -- A handshake is not for the connection.
        have hsame : d.left.receive q.marshal toQueue = d.left := by
          refine Endpoint.receive_handshake (hsteady.same.isCaller.trans hcaller) ?_ hq toQueue
          rw [hsteady.readSize]
          show 16 ≤ maxMSSSize.toNat
          decide
        refine ⟨[], d, rfl, ?_⟩
        show Projects t config (s.update t.j _ (d.left.receive q.marshal toQueue, [])) d
        rw [hsame]
        rw [hsame, List.append_nil] at hnext
        exact hnext
    · exact ⟨[], d, rfl, h.otherPeer hj p _⟩

/-- Whatever happens in the network, the pair goes through a run of its own. -/
theorem run_projects {ln : Listener} {peers : List (String × SrtConnConfig)}
    {events : List Event} (hfixed : ln.config.allowPeerIpChange = false)
    (haddr : t.listener.remoteAddr = some t.addr) (hcaller : t.caller.isCaller = true)
    (hpeer : peers[t.j]? = some (t.addr, t.caller))
    (honly : ∀ j q, peers[j]? = some q → q.1 = t.addr → j = t.j)
    (hrun : run (step prim sort) (init ln peers) events = some s)
    (hhonest : RunMeets (step prim sort) Honest (init ln peers) events)
    (hsep : Separate t s.hub) :
    ∃ es d, run (Duplex.step prim sort)
        (Duplex.init t.caller t.listener maxMSSSize.toNat ln.config.mss.toNat) es = some d ∧
      Projects t ln.config s d := by
  have hinv := run_induct_of (C := Honest) (fun s => Wellformed ln.config peers s ∧
      (Separate t s.hub → ∃ es d, run (Duplex.step prim sort)
          (Duplex.init t.caller t.listener maxMSSSize.toNat ln.config.mss.toNat) es = some d ∧
        Projects t ln.config s d)) ?_ hhonest
    ⟨wellformed_init ln peers, fun _ => ⟨[], _, rfl, projects_init ln hpeer⟩⟩ hrun
  · exact hinv.2 hsep
  · rintro s e s' hhonest ⟨hwf, hprojects⟩ hs
    refine ⟨hwf.step hs, fun hsep' => ?_⟩
    obtain ⟨es, d, hes, h⟩ := hprojects (separate_of_step hwf hs hsep')
    obtain ⟨es', d', hes', h'⟩ := h.step hwf hfixed haddr hcaller honly
      (Duplex.run_steady hes).1 hhonest hs hsep'
    refine ⟨es ++ es', d', ?_, h'⟩
    rw [run_append, hes]
    exact hes'

/-- A listener with any number of connections, peers and strangers, in any order of steps, with
`Close` at any time. The address of a peer may not change, and nobody sends to a connection from the
address of a peer. Then a connection of the listener and its peer are as if they were alone: there
is a run of the two of them with this end. If the handshake has matched them and they are within
their limits, each of them reads, in order and none of them twice, payloads that the other one has
written. -/
theorem network_reads (prim : Primitives) (sort : SortSlice) (ln : Listener)
    (peers : List (String × SrtConnConfig)) (events : List Event) (s : Network)
    (hfixed : ln.config.allowPeerIpChange = false)
    (hrun : run (step prim sort) (init ln peers) events = some s)
    (hhonest : RunMeets (step prim sort) Honest (init ln peers) events)
    (i j : Nat) (c : ListenerConn) (p : NetworkPeer) (hpaired : s.Paired i j c p) :
    (∃ es d, run (Duplex.step prim sort)
        (Duplex.init p.config c.config maxMSSSize.toNat ln.config.mss.toNat) es = some d ∧
      d.left = p.endpoint ∧ d.right = c.endpoint) ∧
    (Duplex.Matched p.config c.config maxMSSSize.toNat ln.config.mss.toNat →
      Duplex.WithinLimits p.config p.endpoint → Duplex.WithinLimits c.config c.endpoint →
      Duplex.Reads p.endpoint c.endpoint ∧ Duplex.Reads c.endpoint p.endpoint) := by
  let t : Pairing := ⟨i, j, p.addr, p.config, c.config⟩
  have hwf : Wellformed ln.config peers s :=
    run_induct (Wellformed ln.config peers) (fun _ _ _ h hs => h.step hs)
      (wellformed_init ln peers) hrun
  have hat : peers[j]? = some (p.addr, p.config) := by
    rw [← hwf.peers, List.getElem?_map, hpaired.peer]
    rfl
  have honly : ∀ k q, peers[k]? = some q → q.1 = p.addr → k = j := by
    intro k q hq haddr
    rw [← hwf.peers, List.getElem?_map] at hq
    obtain ⟨q', hq', rfl⟩ := Option.map_eq_some_iff.mp hq
    exact hpaired.onlyPeer k q' hq' haddr
  have hsep : Separate t s.hub := by
    refine ⟨fun c' hc' => ?_, hpaired.onlyConn⟩
    obtain rfl := Option.some.inj (hpaired.conn.symm.trans hc')
    rfl
  obtain ⟨es, d, hes, h⟩ := run_projects (t := t) hfixed hpaired.addr hpaired.caller
    hat honly hrun hhonest hsep
  have hd : d.left = p.endpoint :=
    (congrArg NetworkPeer.endpoint (Option.some.inj (hpaired.peer.symm.trans h.left))).symm
  have hd' : d.right = c.endpoint := (h.right c hpaired.conn).symm
  refine ⟨⟨es, d, hes, hd, hd'⟩, fun hmatched hleft hright => ?_⟩
  rw [← hd] at hleft ⊢
  rw [← hd'] at hright ⊢
  obtain ⟨hA, hB⟩ := Duplex.run_sound hmatched hes hleft hright
  exact ⟨Duplex.reads_of_local hA hB hright.pushed, Duplex.reads_of_local hB hA hleft.pushed⟩

/-- Two callers: an address, the socket id of the caller, and the one that the listener draws for
the connection with it. -/
def crowd : List (String × UInt32 × UInt32) :=
  [("127.0.0.1:50000", 7, 8), ("127.0.0.1:50001", 17, 18)]

def crowdArrival (socketId : UInt32) : Arrival :=
  { Exchange.sampleArrival with socketIds := [some socketId] }

/-- The handshake of one of them with the listener. -/
def crowdExchange : String × UInt32 × UInt32 → Exchange
  | (addr, socketId, peerSocketId) =>
    runD (Exchange.step Sample.primitives)
      (Exchange.init
        (Dialer.new Exchange.sampleCaller (some addr) (some "127.0.0.1:6000")
          (IP.ipv4 127 0 0 1) socketId 1)
        Exchange.sampleListener addr 0)
      [.listenerReceives 0 Exchange.sampleArrival,
        .dialerReceives 0 ⟨some Sample.salt, some Sample.evenSEK, some Sample.oddSEK⟩ 2000,
        .listenerReceives 1 (crowdArrival peerSocketId),
        .setPassphrase 0 Sample.passphrase, .accept 0 3000,
        .dialerReceives 1 ⟨none, none, none⟩ 4000]

/-- The callers after their handshakes. -/
def crowdPeers : List (String × SrtConnConfig) :=
  crowd.map fun x =>
    (x.1, (((crowdExchange x).conns.head?).getD (newSRTConn Duplex.sampleCaller)).madeWith)

def crowdHandshake (x : String × UInt32 × UInt32) : List Event :=
  (crowdExchange x).toListener.flatMap fun p =>
    [.foreign x.1 none p.marshal, .hub (.read true), .hub (.accept2 (crowdArrival x.2.2))]

/-- The caller `i` writes. -/
def crowdWrite (i : Nat) (data : Bytes) : List Event :=
  [.peer i (.write (.write data [⟨100, true⟩])), .peer i .sendQueued,
    .peer i (.sndTickDeliver 100 [])]

/-- The connection `i` reads. -/
def crowdRead (i : Nat) : List Event :=
  [.hub (.act i (.handle Duplex.sampleInputs)),
    .hub (.act i (.recvTickACK 1000000000 default 400 0)),
    .hub (.act i (.recvTickDeliver 1000000000 [])), .hub (.act i (.read 10 true))]

/-- The handshakes of the callers, and a packet of each of them. The listener gets the packet of the
second one first. A stranger sends a packet to the first connection in between. -/
def crowdEvents : List Event :=
  crowd.flatMap crowdHandshake ++
  [.hub (.setPassphrase 0 Sample.passphrase), .hub (.setPassphrase 1 Sample.passphrase),
    .hub (.accept 0 3000), .hub (.accept 1 3000)] ++
  crowdWrite 0 [1, 2, 3] ++ crowdWrite 1 [4, 5] ++
  [.foreign "10.0.0.9:9" none
      ((newSRTConn Duplex.dialed).address (dataPacket [6] 0)).marshal,
    .toHub 1 0 none, .toHub 0 0 none, .hub (.read true), .hub (.read true), .hub (.read true)] ++
  crowdRead 0 ++ crowdRead 1 ++ [.hub .close]

def crowdEnd : Network :=
  runD (step Sample.primitives SortSlice.insertion) (init Exchange.sampleListener crowdPeers)
    crowdEvents

def crowdConn (i : Nat) : ListenerConn :=
  (crowdEnd.hub.conns[i]?).getD ⟨Duplex.answered, Endpoint.init Duplex.answered 0⟩

def crowdPeer (i : Nat) : NetworkPeer := (crowdEnd.peers[i]?).getD (peer "" Duplex.dialed)

/-- Connections and peers in one order, with the same addresses, all of them different. -/
theorem paired_of_nodup {s : Network}
    (haddr : s.hub.conns.map (fun c => c.config.remoteAddr) = s.peers.map fun p => some p.addr)
    (hnodup : (s.peers.map NetworkPeer.addr).Nodup) {i : Nat} {c : ListenerConn} {p : NetworkPeer}
    (hc : s.hub.conns[i]? = some c) (hp : s.peers[i]? = some p)
    (hcaller : p.config.isCaller = true) : s.Paired i i c p := by
  have hconn : ∀ {i' : Nat} {c' : ListenerConn}, s.hub.conns[i']? = some c' →
      (s.peers.map fun p => some p.addr)[i']? = some c'.config.remoteAddr := by
    intro i' c' hc'
    rw [← haddr, List.getElem?_map, hc']
    rfl
  have hat : (s.peers.map NetworkPeer.addr)[i]? = some p.addr := by
    rw [List.getElem?_map, hp]
    rfl
  -- A place with the address of `p` is the place of `p`.
  have honly : ∀ {i' : Nat}, (s.peers.map NetworkPeer.addr)[i']? = some p.addr → i' = i := by
    intro i' hi'
    exact (List.getElem?_inj (List.getElem?_eq_some_iff.mp hi').1 hnodup).mp
      (hi'.trans hat.symm)
  refine ⟨hc, hp, hcaller, ?_, fun i' c' hc' hsame => honly ?_, fun i' p' hp' hsame => honly ?_⟩
  · have hi := hconn hc
    rw [List.getElem?_map, hp] at hi
    exact (Option.some.inj hi).symm
  · have hi := hconn hc'
    rw [hsame] at hi
    rw [List.getElem?_map] at hi ⊢
    obtain ⟨p', hp', heq⟩ := Option.map_eq_some_iff.mp hi
    rw [hp', ← Option.some.inj heq]
    rfl
  · rw [List.getElem?_map, hp', ← hsame]
    rfl

/-- Both callers have written, and each connection has read what its own caller wrote. -/
theorem network_reads_crowd :
    [0, 1].map (fun i => (crowdConn i).endpoint.history.returned) = [[1, 2, 3], [4, 5]] ∧
      ∀ i ∈ [0, 1],
        Duplex.Reads (crowdPeer i).endpoint (crowdConn i).endpoint ∧
          Duplex.Reads (crowdConn i).endpoint (crowdPeer i).endpoint := by
  obtain ⟨⟨hrun, hhonest, hreturned, haddr, hnodup, hends⟩, hmatched, hlimits⟩ :
      ((run (step Sample.primitives SortSlice.insertion)
          (init Exchange.sampleListener crowdPeers) crowdEvents).isSome = true ∧
        RunMeets (step Sample.primitives SortSlice.insertion) Honest
          (init Exchange.sampleListener crowdPeers) crowdEvents ∧
        [0, 1].map (fun i => (crowdConn i).endpoint.history.returned) = [[1, 2, 3], [4, 5]] ∧
        crowdEnd.hub.conns.map (fun c => c.config.remoteAddr) =
          (crowdEnd.peers.map fun p => some p.addr) ∧
        (crowdEnd.peers.map NetworkPeer.addr).Nodup ∧
        ∀ i ∈ [0, 1], crowdEnd.hub.conns[i]?.isSome = true ∧ crowdEnd.peers[i]?.isSome = true ∧
          (crowdPeer i).config.isCaller = true) ∧
      (∀ i ∈ [0, 1], Duplex.Matched (crowdPeer i).config (crowdConn i).config maxMSSSize.toNat
        Exchange.sampleListener.config.mss.toNat) ∧
      ∀ i ∈ [0, 1], Duplex.WithinLimits (crowdPeer i).config (crowdPeer i).endpoint ∧
        Duplex.WithinLimits (crowdConn i).config (crowdConn i).endpoint := by
    decide +kernel
  refine ⟨hreturned, fun i hi => ?_⟩
  obtain ⟨hconn, hpeer, hcaller⟩ := hends i hi
  have hpaired : crowdEnd.Paired i i (crowdConn i) (crowdPeer i) :=
    paired_of_nodup haddr hnodup
      ((Option.eq_some_of_isSome hconn).trans (congrArg some (Option.get_eq_getD _)))
      ((Option.eq_some_of_isSome hpeer).trans (congrArg some (Option.get_eq_getD _))) hcaller
  exact (network_reads Sample.primitives SortSlice.insertion Exchange.sampleListener crowdPeers
    crowdEvents crowdEnd rfl (run_eq_some_runD hrun) hhonest i i (crowdConn i) (crowdPeer i)
    hpaired).2 (hmatched i hi) (hlimits i hi).1 (hlimits i hi).2

end

/-! ### The maps of the listener -/

section
variable {prim : Primitives} {sort : SortSlice} {s s' : Network} {e : Event}

theorem mapped_arrive (h : s.hub.Mapped) (addr : String) (localAddr : Option String)
    (data : Bytes) : (s.hub.arrive addr localAddr data).Mapped := by
  obtain ⟨queue, heq⟩ := arrive_eq s.hub addr localAddr data
  rw [heq]
  exact ⟨h.waiting, h.gone, h.indexed⟩

theorem mapped_step (hallowed : s.Allowed prim e) (h : s.hub.Mapped)
    (hs : s.step prim sort e = some s') : s'.hub.Mapped := by
  cases step_cases hs with
  | hub hnext => exact h.step hallowed hnext
  | toHub => exact mapped_arrive h _ _ _
  | foreign => exact mapped_arrive h _ _ _
  | peer => exact h
  | toPeer => exact h

/-- The maps hold exactly the pending requests and the connections that are not gone, after every
run of the network whose steps are allowed. -/
theorem maps_correspond (config : Config) (addr : String) (ip : IP) (secret1 secret2 : Bytes)
    (peers : List (String × SrtConnConfig)) (events : List Event)
    (hallowed : RunMeets (step prim sort) (Allowed prim)
      (init (Listener.new config addr ip secret1 secret2) peers) events)
    (hrun : run (step prim sort) (init (Listener.new config addr ip secret1 secret2) peers) events
      = some s) :
    s.hub.registry.Corresponds := by
  have hmapped : s.hub.Mapped :=
    run_induct_of (fun s => s.hub.Mapped) (fun _ _ _ => mapped_step) hallowed
      (Listening.mapped_init _ rfl rfl) hrun
  exact hmapped.indexed.corresponds

end

end Network

end Gosrt
