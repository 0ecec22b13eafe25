import Gosrt.Lib.Run
import Gosrt.Proofs.Circular
import Gosrt.Proofs.Config
import Gosrt.Proofs.Exchange.Messages

/-!
# `Gosrt.Proofs.Exchange.Parameters`: the caller and the listener agree on the parameters

The invariant is about the packets in the network as much as about the two ends: whatever is
on its way to an end is a message of the other one. `StepCase` is what an event can do in a
state with the invariant.

A listener makes at most one connection for a caller: once it has one, the entry of the peer
in its map is never free again. So the connection of the caller belongs to the one of the
listener (`parametersAgree_of_run`).
-/

set_option autoImplicit false

namespace Gosrt

open Lib

namespace Exchange

open Dialer

/-- What holds of both ends and of the network, with the dialer as it started and the
configuration of the listener. -/
structure Inv (caller : Dialer) (listener : Config) (s : Exchange) : Prop where
  dialer : Evolves caller s.dialer
  config : s.listener.config = listener
  toListener : ∀ p ∈ s.toListener, p.header.controlType = CtrlType.handshake →
    FromCaller caller p.payload
  toDialer : ∀ p ∈ s.toDialer, FromListener caller listener s.accepted p.payload
  peer : ∀ r ∈ s.requests, r.2.peerSocketId = caller.socketId
  requests : s.accepted = [] → ∀ r ∈ s.requests, Requested caller listener r.2
  accepted : ∀ a ∈ s.accepted, Accepted caller listener a.2
  registered : s.accepted ≠ [] →
    ∃ conn, s.listener.connsByPeer.lookup caller.socketId = some (some conn)
  single : s.accepted.length ≤ 1
  conns : ∀ conn ∈ s.conns, ∃ a ∈ s.accepted, ParametersAgree caller.config listener conn a.2

/-! ### What an event does -/

/-- The state after the dialer has handled a message. -/
def afterDialer (s : Exchange) (dl : Dialer) (outputs : List Output) : Exchange :=
  { s with
    dialer := dl
    toListener := s.toListener ++ sends outputs
    responses := s.responses ++ Dialing.written outputs
    concluded := (lastHandshake (sends outputs)).or s.concluded }

/-- The state after the listener has handled a message. -/
def afterListener (s : Exchange) (payload : Bytes) (ln : Listener) (req : Option ConnRequest)
    (sent : List Packet) : Exchange :=
  { s with
    listener := ln
    toDialer := s.toDialer ++ sent
    requests := s.requests ++ (req.map (payload, ·)).toList }

/-- The state after a method of a request. -/
def afterRequest (s : Exchange) (request : Nat) (r : Bytes × ConnRequest) (ln : Listener)
    (sent : List Packet) : Exchange :=
  { s with
    listener := ln
    toDialer := s.toDialer ++ sent
    requests := s.requests.set request r }

/-- What an event can do in a state with the invariant. -/
inductive StepCase (prim : Primitives) (caller : Dialer) (listener : Config) (s : Exchange) :
    Event → Exchange → Prop where
  /-- The packet is not for the handshake. -/
  | unread (e : Event) : StepCase prim caller listener s e s
  | dialer (index : Nat) (draws : Draws) (now : UInt64) (p : Packet) (cif : CIFHandshake)
      (dl : Dialer) (outputs : List Output) (hp : s.toDialer[index]? = some p)
      (hcif : CIFHandshake.unmarshal {} p.payload = .ok cif)
      (hcontrol : p.header.isControlPacket = true)
      (hmessage : ListenerSays caller listener s.accepted cif)
      (hcase : DialerCase prim s.dialer cif draws now dl (sends outputs) (made outputs)) :
      StepCase prim caller listener s (.dialerReceives index draws now)
        (s.afterDialer dl outputs)
  | listener (index : Nat) (a : Arrival) (addr : Option String) (p : Packet)
      (cif : CIFHandshake) (ln : Listener) (req : Option ConnRequest) (sent : List Packet)
      (hp : p ∈ s.toListener) (hhandshake : p.header.controlType = CtrlType.handshake)
      (hcif : CIFHandshake.unmarshal {} p.payload = .ok cif) (hmessage : CallerSays caller cif)
      (hcase : Listener.MessageCase s.listener (arrives addr p) cif a ln req sent) :
      StepCase prim caller listener s (.listenerReceives index a)
        (s.afterListener p.payload ln req sent)
  | setPassphrase (request : Nat) (passphrase : Bytes) (r : Bytes × ConnRequest)
      (hr : r ∈ s.requests) :
      StepCase prim caller listener s (.setPassphrase request passphrase)
        { s with
          requests := s.requests.set request (r.1, (r.2.setPassphrase prim passphrase).1) }
  | accept (request : Nat) (timestamp : UInt32) (r : Bytes × ConnRequest) (hr : r ∈ s.requests)
      (ln : Listener) (req : ConnRequest) (conn : Except String SrtConn) (sent : List Packet)
      (hcase : ConnRequest.AcceptCase s.listener r.2 ln req conn sent) :
      StepCase prim caller listener s (.accept request timestamp)
        { s.afterRequest request (r.1, req) ln sent with
          accepted := s.accepted ++ (conn.toOption.map (r.1, ·)).toList }
  | reject (request : Nat) (reason : RejectionReason) (timestamp : UInt32)
      (r : Bytes × ConnRequest) (hr : r ∈ s.requests)
      (hreason : HandshakeType.isRejection reason = true) (ln : Listener) (req : ConnRequest)
      (sent : List Packet)
      (hcase : ConnRequest.RejectCase s.listener r.2 reason ln req sent) :
      StepCase prim caller listener s (.reject request reason timestamp)
        (s.afterRequest request (r.1, req) ln sent)

section
variable {prim : Primitives} {caller : Dialer} {listener : Config} {s s' : Exchange}
  {r : Bytes × ConnRequest} {req : ConnRequest} {ln : Listener} {sent : List Packet}

/-- The dialer adds the connections that it makes. -/
theorem conns_afterDialer (dl : Dialer) (outputs : List Output) :
    (s.afterDialer dl outputs).conns = s.conns ++ made outputs := by
  unfold Exchange.conns afterDialer
  exact List.filterMap_append

/-- What holds of all requests and of the new one holds after one of them is replaced. -/
theorem forall_mem_set {P : Bytes × ConnRequest → Prop} (h : ∀ r ∈ s.requests, P r) (request : Nat)
    (hr : P r) : ∀ r' ∈ s.requests.set request r, P r' :=
  fun r' hr' => (List.mem_or_eq_of_mem_set hr').elim (h r') fun heq => heq ▸ hr

theorem Inv.dialerReceives (h : Inv caller listener s) {index : Nat} {p : Packet}
    {addr : Option String} {draws : Draws} {now : UInt64} (hp : s.toDialer[index]? = some p)
    (hs : s.dialerReceives prim (arrives addr p) draws now = some s') :
    StepCase prim caller listener s (.dialerReceives index draws now) s' := by
  unfold Exchange.dialerReceives at hs
  split at hs
  · rename_i hreads
    unfold reads at hreads
    rw [Bool.and_eq_true, Bool.and_eq_true] at hreads
    obtain ⟨cif, hcif, hmessage⟩ := h.toDialer p (List.mem_of_getElem? hp)
    obtain ⟨⟨dl, outputs⟩, hhandle, hs⟩ := Option.bind_eq_some_iff.mp hs
    cases hs
    exact .dialer index draws now p cif dl outputs hp hcif hreads.1.1 hmessage
      (handleHandshake_cases ((ofPacket_arrives hreads.1.1).trans hcif) hmessage.induces
        (eq_ok_of_toOption hhandle))
  · cases hs
    exact .unread _

theorem Inv.listenerReceives (h : Inv caller listener s) {index : Nat} {p : Packet}
    {addr : Option String} {a : Arrival} (hp : s.toListener[index]? = some p)
    (hs : s.listenerReceives prim (arrives addr p) a = some s') :
    StepCase prim caller listener s (.listenerReceives index a) s' := by
  unfold Exchange.listenerReceives at hs
  split at hs
  · rename_i hreads
    unfold Listener.reads at hreads
    rw [Bool.and_eq_true, Bool.and_eq_true, beq_iff_eq, beq_iff_eq] at hreads
    obtain ⟨⟨-, hcontrol⟩, hhandshake⟩ := hreads
    obtain ⟨cif, hcif, hmessage⟩ := h.toListener p (List.mem_of_getElem? hp) hhandshake
    obtain ⟨⟨ln, req, sent⟩, hrequest, hs⟩ := Option.bind_eq_some_iff.mp hs
    cases hs
    exact .listener index a addr p cif ln req sent (List.mem_of_getElem? hp) hhandshake hcif
      hmessage (Listener.newConnRequest_cases ((ofPacket_arrives hcontrol).trans hcif)
        (eq_ok_of_toOption hrequest))
  · cases hs
    exact .unread _

/-- The cases of a step, with what the invariant says of the message in it. -/
theorem Inv.step_cases (h : Inv caller listener s) {e : Event} (hs : step prim s e = some s') :
    StepCase prim caller listener s e s' := by
  cases e with
  | dialerReceives index draws now =>
    obtain ⟨p, hp, hs⟩ := Option.bind_eq_some_iff.mp hs
    exact h.dialerReceives hp hs
  | listenerReceives index a =>
    obtain ⟨p, hp, hs⟩ := Option.bind_eq_some_iff.mp hs
    exact h.listenerReceives hp hs
  | setPassphrase request passphrase =>
    obtain ⟨r, hr, hs⟩ := Option.bind_eq_some_iff.mp hs
    have hcase : StepCase prim caller listener s (.setPassphrase request passphrase)
        { s with
          requests := s.requests.set request (r.1, (r.2.setPassphrase prim passphrase).1) } :=
      .setPassphrase request passphrase r (List.mem_of_getElem? hr)
    -- A panic is no step. An error is one: the request keeps what was set before it.
    dsimp only at hs
    split at hs
    · cases hs
    · rename_i heq
      cases hs
      rw [heq] at hcase
      exact hcase
  | accept request timestamp =>
    obtain ⟨r, hr, hs⟩ := Option.bind_eq_some_iff.mp hs
    obtain ⟨⟨ln, req, conn, sent⟩, haccept, hs⟩ := Option.bind_eq_some_iff.mp hs
    cases hs
    exact .accept request timestamp r (List.mem_of_getElem? hr) ln req conn sent
      (ConnRequest.accept_cases (eq_ok_of_toOption haccept))
  | reject request reason timestamp =>
    rw [Exchange.step] at hs
    split at hs
    · rename_i hreason
      obtain ⟨r, hr, hs⟩ := Option.bind_eq_some_iff.mp hs
      obtain ⟨⟨ln, req, sent⟩, hreject, hs⟩ := Option.bind_eq_some_iff.mp hs
      cases hs
      exact .reject request reason timestamp r (List.mem_of_getElem? hr) hreason ln req sent
        (ConnRequest.reject_cases (eq_ok_of_toOption hreject))
    · cases hs

/-! ### The invariant -/

theorem FromListener.mono {before after : List (Bytes × SrtConn)} {payload : Bytes}
    (h : FromListener caller listener before payload) (hsub : ∀ a ∈ before, a ∈ after) :
    FromListener caller listener after payload := by
  obtain ⟨cif, hdecode, hind | hreject | ⟨htype, a, ha, hconcludes⟩⟩ := h
  · exact ⟨cif, hdecode, Or.inl hind⟩
  · exact ⟨cif, hdecode, Or.inr (Or.inl hreject)⟩
  · exact ⟨cif, hdecode, Or.inr (Or.inr ⟨htype, a, hsub a ha, hconcludes⟩)⟩

/-- While the entry of the caller is free, nothing is accepted. -/
theorem Inv.accepted_eq_nil (h : Inv caller listener s)
    (hopen : s.listener.connsByPeer.lookup caller.socketId = some none) : s.accepted = [] := by
  by_contra hne
  obtain ⟨conn, hlookup⟩ := h.registered hne
  rw [hopen] at hlookup
  cases hlookup

/-- At the start the network holds the INDUCTION only. -/
theorem inv_init (caller : Dialer) (ln : Listener) (callerAddr : String) (timestamp : UInt32) :
    Inv caller ln.config (init caller ln callerAddr timestamp) where
  dialer := Evolves.refl caller
  config := rfl
  toListener := by
    intro p hp _
    obtain ⟨cif, hdecode, hinduction⟩ := unmarshal_sendInduction hp
    exact ⟨cif, hdecode, Or.inl hinduction⟩
  toDialer := List.forall_mem_nil _
  peer := List.forall_mem_nil _
  requests := fun _ => List.forall_mem_nil _
  accepted := List.forall_mem_nil _
  registered := fun hne => absurd rfl hne
  single := Nat.zero_le 1
  conns := List.forall_mem_nil _

/-- What the dialer sends and makes follows from the caller's configuration. -/
theorem Inv.dialer_step (h : Inv caller listener s) (hcaller : IsCaller caller)
    {cif : CIFHandshake} {draws : Draws} {now : UInt64} {dl : Dialer} {outputs : List Output}
    (hmessage : ListenerSays caller listener s.accepted cif)
    (hcase : DialerCase prim s.dialer cif draws now dl (sends outputs) (made outputs)) :
    Inv caller listener (s.afterDialer dl outputs) := by
  obtain ⟨hdialer, hsent, hmade⟩ := dialer_spec hcaller h.dialer h.accepted hmessage hcase
  exact
    { h with
      dialer := hdialer
      toListener := fun q hq => (List.mem_append.mp hq).elim (h.toListener q) (hsent q)
      conns := by
        rw [conns_afterDialer]
        exact List.forall_mem_append.mpr ⟨h.conns, hmade⟩ }

/-- What the listener sends and registers follows from the message. -/
theorem Inv.listener_step (h : Inv caller listener s) {p : Packet} {payload : Bytes}
    {cif : CIFHandshake} {a : Arrival} {req : Option ConnRequest} (hmessage : CallerSays caller cif)
    (hcase : Listener.MessageCase s.listener p cif a ln req sent) :
    Inv caller listener (s.afterListener payload ln req sent) := by
  obtain ⟨hconfig, hlookup, hsent, hreq⟩ := listener_spec h.config hmessage hcase
  have hnew : ∀ r ∈ (req.map (payload, ·)).toList,
      r.2.peerSocketId = caller.socketId ∧ Requested caller listener r.2 := by
    intro r hr
    obtain ⟨r', hr', rfl⟩ := Option.map_eq_some_iff.mp (Option.mem_toList.mp hr)
    exact hreq r' hr'
  exact
    { h with
      config := hconfig
      toDialer := fun q hq => (List.mem_append.mp hq).elim (h.toDialer q) (hsent q)
      peer := fun r hr => (List.mem_append.mp hr).elim (h.peer r) fun hr => (hnew r hr).1
      requests := fun hnil r hr =>
        (List.mem_append.mp hr).elim (h.requests hnil r) fun hr => (hnew r hr).2
      registered := by
        intro hne
        obtain ⟨conn, hconn⟩ := h.registered hne
        exact ⟨conn, hlookup _ hconn⟩ }

/-- A request is replaced by one with the same peer, and with the parameters of the caller as
long as nothing is accepted. -/
theorem Inv.set (h : Inv caller listener s) (request : Nat)
    (hpeer : r.2.peerSocketId = caller.socketId)
    (hreq : s.accepted = [] → Requested caller listener r.2) :
    Inv caller listener { s with requests := s.requests.set request r } :=
  { h with
    peer := forall_mem_set h.peer request hpeer
    requests := fun hnil => forall_mem_set (h.requests hnil) request (hreq hnil) }

theorem Inv.setPassphrase_step (h : Inv caller listener s) (prim : Primitives) (request : Nat)
    (hr : r ∈ s.requests) (passphrase : Bytes) :
    Inv caller listener
      { s with
        requests := s.requests.set request (r.1, (r.2.setPassphrase prim passphrase).1) } := by
  obtain ⟨hhandshake, hconfig, hpeer, -⟩ := r.2.setPassphrase_fields prim passphrase
  refine h.set request (hpeer.trans (h.peer r hr)) fun hnil => ?_
  have hreq := h.requests hnil r hr
  exact
    { receiverLatency := hconfig ▸ hreq.receiverLatency
      peerLatency := hconfig ▸ hreq.peerLatency
      concludes := hhandshake ▸ hreq.concludes
      handshakeType := hhandshake ▸ hreq.handshakeType }

theorem Inv.reject_step (h : Inv caller listener s) (request : Nat) {reason : RejectionReason}
    (hr : r ∈ s.requests) (hreason : HandshakeType.isRejection reason = true)
    (hcase : ConnRequest.RejectCase s.listener r.2 reason ln req sent) :
    Inv caller listener (s.afterRequest request (r.1, req) ln sent) := by
  unfold afterRequest
  cases hcase with
  | resolved _ =>
    rw [List.append_nil]
    exact h.set request (h.peer r hr) fun hnil => h.requests hnil r hr
  | rejected hopen handshake q hprepare hdata =>
    -- The entry was free, so nothing is accepted, and it may go.
    rw [h.peer r hr] at hopen
    have hnil := h.accepted_eq_nil hopen
    have hreq := h.requests hnil r hr
    obtain ⟨hconcludes, htype⟩ := hreq.concludes.of_prepare hprepare
    have hset := h.set request (r := (r.1, { r.2 with handshake := handshake })) (h.peer r hr)
      fun _ => { hreq with concludes := hconcludes, handshakeType := Or.inr (htype ▸ hreason) }
    exact
      { hset with
        toDialer := by
          intro p hp
          rcases List.mem_append.mp hp with hp | hp
          · exact h.toDialer p hp
          · rw [List.mem_singleton.mp hp]
            exact fromListener_of_isRejection
              ⟨{ r.2.handshake with handshakeType := reason }, hreason, hdata⟩
        registered := fun hne => absurd hnil hne }

/-- An accepted request has the parameters of both parties. -/
theorem Inv.accept_step (h : Inv caller listener s) (request : Nat) (hcaller : IsCaller caller)
    {conn : Except String SrtConn} (hr : r ∈ s.requests)
    (hcase : ConnRequest.AcceptCase s.listener r.2 ln req conn sent) :
    Inv caller listener
      { s.afterRequest request (r.1, req) ln sent with
        accepted := s.accepted ++ (conn.toOption.map (r.1, ·)).toList } := by
  have hnone : ∀ message : String,
      ((Except.error message : Except String SrtConn).toOption.map (r.1, ·)).toList = [] :=
    fun _ => rfl
  cases hcase with
  | noPassphrase _ _ _ hreject =>
    rw [hnone, List.append_nil]
    exact h.reject_step request hr rfl hreject
  | resolved _ =>
    unfold afterRequest
    rw [hnone, List.append_nil, List.append_nil]
    exact h.set request (h.peer r hr) fun hnil => h.requests hnil r hr
  | created hopen _ recv send hdelays handshake q _ hdata =>
    -- The entry was free, so this is the first connection, and it takes the entry.
    have hpeer := h.peer r hr
    rw [hpeer] at hopen
    have hnil := h.accepted_eq_nil hopen
    obtain ⟨haccepted, hanswer⟩ :=
      (h.requests hnil r hr).accept s.listener r.1 hcaller hpeer hdelays hdata
    rw [hnil, List.nil_append]
    exact
      { h with
        toDialer := by
          intro p hp
          rcases List.mem_append.mp hp with hp | hp
          · exact (h.toDialer p hp).mono fun a ha => by rw [hnil] at ha; cases ha
          · rw [List.mem_singleton.mp hp]
            exact hanswer
        peer := forall_mem_set h.peer request hpeer
        requests := fun hnil => nomatch hnil
        accepted := List.forall_mem_singleton.mpr haccepted
        registered := by
          intro _
          refine ⟨r.2.newConn s.listener recv send, ?_⟩
          rw [← hpeer]
          exact AList.lookup_insert _
        single := Nat.le_refl 1
        conns := by
          intro conn hconn
          obtain ⟨a, ha, -⟩ := h.conns conn hconn
          rw [hnil] at ha
          cases ha }

/-- The invariant survives every step of the exchange. -/
theorem Inv.step (h : Inv caller listener s) (hcaller : IsCaller caller) {e : Event}
    (hs : step prim s e = some s') : Inv caller listener s' := by
  cases h.step_cases hs with
  | unread => exact h
  | dialer _ _ _ _ _ _ _ _ _ _ hmessage hcase => exact h.dialer_step hcaller hmessage hcase
  | listener _ _ _ _ _ _ _ _ _ _ _ hmessage hcase => exact h.listener_step hmessage hcase
  | setPassphrase request passphrase r hr => exact h.setPassphrase_step prim request hr passphrase
  | accept request _ r hr _ _ _ _ hcase => exact h.accept_step request hcaller hr hcase
  | reject request _ _ r hr hreason _ _ _ hcase => exact h.reject_step request hr hreason hcase

/-! ### Runs -/

/-- A dialer with a validated configuration. -/
theorem isCaller_new {c config : Config} (hvalid : c.validate = .ok config)
    (localAddr remoteAddr : Option String) (localIP : IP) (socketId seqNum : UInt32) :
    IsCaller (Dialer.new config localAddr remoteAddr localIP socketId seqNum) :=
  ⟨Number.isSequenceNumber_new seqNum, Config.length_streamId_of_validate hvalid⟩

section
variable {callerAddr : String} {timestamp : UInt32} {events : List Event}

/-- Every exchange keeps the invariant. What its steps keep besides, in a state with the invariant
and under a condition that they all meet, holds at the end too. -/
theorem run_keeps {P : Exchange → Prop} {C : Exchange → Event → Prop} (hcaller : IsCaller caller)
    (hinit : P (init caller ln callerAddr timestamp))
    (hstep : ∀ {s s' : Exchange} {e : Event}, Inv caller ln.config s → P s → C s e →
      step prim s e = some s' → P s')
    (hC : RunMeets (step prim) C (init caller ln callerAddr timestamp) events)
    (hrun : run (step prim) (init caller ln callerAddr timestamp) events = some s) :
    Inv caller ln.config s ∧ P s :=
  run_induct_of (fun s => Inv caller ln.config s ∧ P s)
    (fun _ _ _ hC h hs => ⟨h.1.step hcaller hs, hstep h.1 h.2 hC hs⟩) hC
    ⟨inv_init _ ln callerAddr timestamp, hinit⟩ hrun

end

/-- The listener has one connection, and the one of the caller fits to it. -/
theorem Inv.agree (h : Inv caller listener s) {conn : SrtConn} (hconn : conn ∈ s.conns)
    {a : Bytes × SrtConn} (ha : a ∈ s.accepted) :
    ParametersAgree caller.config listener conn a.2 := by
  obtain ⟨a', ha', hagree⟩ := h.conns conn hconn
  obtain ⟨b, hb⟩ := List.length_eq_one_iff.mp
    (Nat.le_antisymm h.single (List.length_pos_of_mem ha))
  rw [hb, List.mem_singleton] at ha ha'
  rw [ha, ← ha']
  exact hagree

/-- A connection of the caller and a connection of the listener have the same parameters, in
opposite roles, however the network treats the packets. -/
theorem parametersAgree_of_run (prim : Primitives) {c config : Config}
    (hvalid : c.validate = .ok config) (localAddr remoteAddr : Option String) (localIP : IP)
    (socketId seqNum : UInt32) (ln : Listener) (callerAddr : String) (timestamp : UInt32)
    (events : List Event)
    (hrun : run (step prim)
      (init (Dialer.new config localAddr remoteAddr localIP socketId seqNum) ln callerAddr
        timestamp) events = some s) :
    ∀ conn ∈ s.conns, ∀ a ∈ s.accepted, ParametersAgree config ln.config conn a.2 := by
  have hcaller := isCaller_new hvalid localAddr remoteAddr localIP socketId seqNum
  have hinv := run_induct _ (fun _ _ _ h hs => Inv.step h hcaller hs)
    (inv_init _ ln callerAddr timestamp) hrun
  exact fun conn hconn a ha => hinv.agree hconn ha

end

/-! ### A sample exchange -/

/-- The caller of the sample, with different latencies in the two directions. -/
def sampleCaller : Config :=
  { Sample.config 4 1 with receiverLatency := 300000000, peerLatency := 120000000 }

/-- The listener of the sample, with other latencies. -/
def sampleListening : Config := { receiverLatency := 80000000, peerLatency := 500000000 }

def sampleListener : Listener :=
  Listener.new sampleListening "127.0.0.1:6000" (IP.ipv4 127 0 0 1)
    "abcdefghijklmnopqrstuvwxyzABCDEF".toUTF8.toList
    "ABCDEFGHIJKLMNOPQRSTUVWXYZ012345".toUTF8.toList

def sampleInit : Exchange :=
  init
    (Dialer.new sampleCaller (some "127.0.0.1:50000") (some "127.0.0.1:6000")
      (IP.ipv4 127 0 0 1) 7 1)
    sampleListener "127.0.0.1:50000" 0

def sampleArrival : Arrival where
  timestamp := 1000
  counter := 27343750
  draws := ⟨some Sample.oddSEK, some Sample.oddSEK, some Sample.oddSEK⟩
  socketIds := [some 8]

/-- The dialer gets the listener's INDUCTION once for each SEK, which it draws then. The
listener accepts the first CONCLUSION, and the dialer gets the answer. -/
def sampleEvents (seks : List Bytes) : List Event :=
  [.listenerReceives 0 sampleArrival] ++
    seks.map (fun sek => .dialerReceives 0 ⟨some Sample.salt, some sek, some Sample.oddSEK⟩ 2000) ++
    [.listenerReceives 1 sampleArrival, .setPassphrase 0 Sample.passphrase, .accept 0 3000,
      .dialerReceives 1 ⟨none, none, none⟩ 4000]

def sampleEnd (seks : List Bytes) : Exchange :=
  runD (step Sample.primitives) sampleInit (sampleEvents seks)

/-- The exchange with one SEK can happen, and each end makes a connection. -/
theorem run_sampleEvents :
    run (step Sample.primitives) sampleInit (sampleEvents [Sample.evenSEK])
        = some (sampleEnd [Sample.evenSEK]) ∧
      (sampleEnd [Sample.evenSEK]).conns.length = 1 ∧
      (sampleEnd [Sample.evenSEK]).accepted.length = 1 :=
  ⟨run_eq_some_runD (by decide +kernel), by decide +kernel⟩

/-- The latencies of the two parties differ, and both connections settle on the larger ones. -/
theorem parametersAgree_sampleEnd :
    sampleCaller.validate = .ok sampleCaller ∧
      run (step Sample.primitives) sampleInit (sampleEvents [Sample.evenSEK])
        = some (sampleEnd [Sample.evenSEK]) ∧
      (sampleEnd [Sample.evenSEK]).conns.length = 1 ∧
      (sampleEnd [Sample.evenSEK]).accepted.length = 1 ∧
      ∀ conn ∈ (sampleEnd [Sample.evenSEK]).conns, ∀ a ∈ (sampleEnd [Sample.evenSEK]).accepted,
        ParametersAgree sampleCaller sampleListening conn a.2 :=
  ⟨by decide +kernel, run_sampleEvents.1, run_sampleEvents.2.1, run_sampleEvents.2.2,
    parametersAgree_of_run Sample.primitives (c := sampleCaller) (by decide +kernel)
      (some "127.0.0.1:50000") (some "127.0.0.1:6000") (IP.ipv4 127 0 0 1) 7 1 sampleListener
      "127.0.0.1:50000" 0 (sampleEvents [Sample.evenSEK]) run_sampleEvents.1⟩

end Exchange

end Gosrt
