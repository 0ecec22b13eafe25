import Gosrt.Lib.Index
import Gosrt.Proofs.Admission
import Gosrt.Spec.Registry

/-!
# `Gosrt.Proofs.Registry`: when the two maps of a listener correspond

`Accept` and `Reject` look for a `nil` connection under the id of the peer. They do not check
that it is their own request which is waiting there. A call on a resolved request therefore
acts on the next request of the same peer. `newConnRequest` reserves the id of the peer before
it draws a socket id, and does not free it when the draw fails.

`corresponds_iff_allowed` says that there is nothing else: in a run the maps correspond and
stale calls are without effect exactly when none of the two happens.

`Indexed` is the invariant. Both maps index the owners (`Lib.Indexes`), and each operation of
the listener is one operation on the index. `Registers` and `Resolves` say what the functions
of the listener do to the maps, and `StepCase` what a step does.
-/

set_option autoImplicit false

namespace Gosrt

open Lib

/-! ### The functions of the listener on the maps -/

/-- What `newConnRequest` does to the maps. -/
inductive Listener.Registers (prim : Primitives) (ln : Listener) (p : Packet) (a : Arrival) :
    Listener → Option ConnRequest → Prop where
  | unchanged (hnot : ¬ln.Takes prim p a) : Registers prim ln p a ln none
  /-- The peer is reserved without a request. -/
  | exhausted (peer : UInt32) (htakes : ln.Takes prim p a)
      (hnew : ln.connsByPeer.lookup peer = none)
      (hsocket : generateSocketId ln.conns 10 a.socketIds = none) :
      Registers prim ln p a { ln with connsByPeer := ln.connsByPeer.insert peer none } none
  | reserved (req : ConnRequest) (hnew : ln.connsByPeer.lookup req.peerSocketId = none)
      (hsocket : generateSocketId ln.conns 10 a.socketIds = some req.socketId) :
      Registers prim ln p a
        { ln with
          conns := ln.conns.insert req.socketId none
          connsByPeer := ln.connsByPeer.insert req.peerSocketId none }
        (some req)

/-- What a handshake puts into the maps. -/
theorem Listener.newConnRequest_registers {prim : Primitives} {ln ln' : Listener} {p : Packet}
    {a : Arrival} {req : Option ConnRequest} {sent : List Packet}
    (h : ln.newConnRequest prim p a = .ok (ln', req, sent)) : Registers prim ln p a ln' req := by
  by_cases htakes : ln.Takes prim p a
  swap
  · obtain ⟨rfl, rfl⟩ := newConnRequest_of_not_takes htakes h
    exact .unchanged htakes
  obtain ⟨before, request, hnew, hok⟩ := newConnRequest_of_takes htakes
  rw [h] at hok
  unfold register at hok
  rw [hnew] at hok
  cases hsocket : generateSocketId ln.conns 10 a.socketIds with
  | none =>
    rw [hsocket] at hok
    cases hok
    exact .exhausted request.peerSocketId htakes hnew hsocket
  | some socketId =>
    rw [hsocket] at hok
    cases hok
    exact .reserved { request with socketId := socketId } hnew hsocket

/-- What `Accept` and `Reject` do to the maps, and the connection that they make. -/
inductive ConnRequest.Resolves (ln : Listener) (req : ConnRequest) :
    Listener → Option SrtConn → Prop where
  | refused (hresolved : ln.connsByPeer.lookup req.peerSocketId ≠ some none) :
      Resolves ln req ln none
  | rejected (hopen : ln.connsByPeer.lookup req.peerSocketId = some none) :
      Resolves ln req (ln.handleShutdown req.socketId req.peerSocketId) none
  | accepted (hopen : ln.connsByPeer.lookup req.peerSocketId = some none) (conn : SrtConn)
      (hsocket : conn.socketId = req.socketId) (hpeer : conn.peerSocketId = req.peerSocketId) :
      Resolves ln req
        { ln with
          conns := ln.conns.insert req.socketId (some conn)
          connsByPeer := ln.connsByPeer.insert req.peerSocketId (some conn) }
        (some conn)

section
variable {ln ln' : Listener} {req req' : ConnRequest} {sent : List Packet}

theorem ConnRequest.RejectCase.resolves {reason : RejectionReason}
    (h : RejectCase ln req reason ln' req' sent) : Resolves ln req ln' none := by
  cases h with
  | resolved hresolved => exact .refused hresolved
  | rejected hopen => exact .rejected hopen

theorem ConnRequest.AcceptCase.resolves {conn : Except String SrtConn}
    (h : AcceptCase ln req ln' req' conn sent) : Resolves ln req ln' conn.toOption := by
  cases h with
  | noPassphrase _ _ _ hreject => exact hreject.resolves
  | resolved hresolved => exact .refused hresolved
  | created hopen => exact .accepted hopen _ rfl rfl

end

namespace Registry

section
variable {prim : Primitives} {s s' : Registry} {e : Event} {i : Nat} {r : TrackedRequest}
  {req : ConnRequest} {conn : Option SrtConn}

/-- The request that an event resolves. -/
def resolves? : Event → Option Nat
  | .accept request _ | .reject request _ _ => some request
  | _ => none

/-- What a step does. -/
inductive StepCase (prim : Primitives) (s : Registry) : Event → Registry → Prop where
  | arrived (p : Packet) (a : Arrival) (ln : Listener) (req : Option ConnRequest)
      (sent : List Packet) (hok : s.listener.newConnRequest prim p a = .ok (ln, req, sent)) :
      StepCase prim s (.arrival p a)
        { s with
          listener := ln
          requests := s.requests ++ (req.map (TrackedRequest.mk · false)).toList }
  | passphraseSet (i : Nat) (passphrase : Bytes) (r : TrackedRequest) (req : ConnRequest)
      (hr : s.requests[i]? = some r) (howner : TrackedRequest.owner ⟨req, r.resolved⟩ = r.owner) :
      StepCase prim s (.setPassphrase i passphrase)
        { s with requests := s.requests.set i ⟨req, r.resolved⟩ }
  | resolved (e : Event) (i : Nat) (r : TrackedRequest) (req : ConnRequest) (ln : Listener)
      (conn : Option SrtConn) (he : resolves? e = some i) (hr : s.requests[i]? = some r)
      (hcase : ConnRequest.Resolves s.listener r.request ln conn) :
      StepCase prim s e ⟨ln, s.requests.set i ⟨req, true⟩, s.live ++ conn.toList⟩
  | shutDown (i : Nat) (c : SrtConn) (hc : s.live[i]? = some c) :
      StepCase prim s (.shutdown i)
        { s with
          listener := s.listener.handleShutdown c.socketId c.peerSocketId
          live := s.live.eraseIdx i }

/-- Every step is one of these cases. -/
theorem step_cases (h : step prim s e = some s') : StepCase prim s e s' := by
  cases e with
  | arrival p a =>
    unfold step at h
    obtain ⟨⟨ln, req, sent⟩, hok, h⟩ := Option.bind_eq_some_iff.mp h
    cases h
    exact .arrived p a ln req sent (eq_ok_of_toOption hok)
  | setPassphrase i passphrase =>
    unfold step at h
    obtain ⟨r, hr, h⟩ := Option.bind_eq_some_iff.mp h
    obtain ⟨-, -, hpeer, hsocket⟩ := r.request.setPassphrase_fields prim passphrase
    split at h
    · cases h
    · rename_i req _ _ hset
      rw [hset] at hpeer hsocket
      cases h
      refine .passphraseSet i passphrase r req hr ?_
      unfold TrackedRequest.owner
      rw [hpeer, hsocket]
  | accept i timestamp =>
    unfold step at h
    obtain ⟨r, hr, h⟩ := Option.bind_eq_some_iff.mp h
    obtain ⟨⟨ln, req, conn, sent⟩, hok, h⟩ := Option.bind_eq_some_iff.mp h
    cases h
    exact .resolved _ i r req ln conn.toOption rfl hr
      (ConnRequest.accept_cases (eq_ok_of_toOption hok)).resolves
  | reject i reason timestamp =>
    unfold step at h
    obtain ⟨r, hr, h⟩ := Option.bind_eq_some_iff.mp h
    obtain ⟨⟨ln, req, sent⟩, hok, h⟩ := Option.bind_eq_some_iff.mp h
    cases h
    have hcase : StepCase prim s (.reject i reason timestamp) _ :=
      .resolved _ i r req ln none rfl hr
        (ConnRequest.reject_cases (eq_ok_of_toOption hok)).resolves
    rw [Option.toList_none, List.append_nil] at hcase
    exact hcase
  | shutdown i =>
    unfold step at h
    obtain ⟨c, hc, h⟩ := Option.bind_eq_some_iff.mp h
    cases h
    exact .shutDown i c hc

/-! ### The owners -/

section
variable (ln : Listener)

/-- A request that a step replaces keeps its owner. -/
theorem owners_set (r' : TrackedRequest) (hr : s.requests[i]? = some r)
    (hresolved : r'.resolved = r.resolved) (howner : r.resolved = false → r'.owner = r.owner) :
    owners ⟨ln, s.requests.set i r', s.live⟩ = s.owners := by
  -- A resolved request is no owner, so only a pending one has to keep its ids.
  obtain ⟨l₁, l₂, hl, hset, -⟩ := exists_cut hr
  unfold owners pending
  rw [hset, hl]
  simp only [List.filter_append, List.filter_cons, hresolved, List.map_append]
  cases hpending : r.resolved with
  | true => rfl
  | false =>
    rw [hpending] at howner
    simp [howner rfl]

/-- A request that is resolved is no owner any more. -/
theorem owners_resolve (hr : s.requests[i]? = some r) (hpending : r.resolved = false)
    (req : ConnRequest) :
    s.owners.Perm (r.owner :: owners ⟨ln, s.requests.set i ⟨req, true⟩, s.live⟩) := by
  obtain ⟨l₁, l₂, hl, hset, -⟩ := exists_cut hr
  unfold owners pending
  rw [hset, hl]
  simp only [List.filter_append, List.filter_cons, hpending, Bool.not_false, Bool.not_true,
    if_true, Bool.false_eq_true, if_false, List.map_append, List.map_cons, List.append_assoc,
    List.cons_append]
  exact List.perm_middle

theorem owners_connect (requests : List TrackedRequest) (live : List SrtConn) (conn : SrtConn) :
    (conn.owner :: owners ⟨ln, requests, live⟩).Perm (owners ⟨ln, requests, live ++ [conn]⟩) := by
  unfold owners
  simp only [List.map_append, List.map_cons, List.map_nil, ← List.append_assoc]
  exact (List.perm_append_singleton _ _).symm

theorem owners_request (requests : List TrackedRequest) (live : List SrtConn)
    (req : ConnRequest) :
    (TrackedRequest.owner ⟨req, false⟩ :: owners ⟨ln, requests, live⟩).Perm
      (owners ⟨ln, requests ++ [⟨req, false⟩], live⟩) := by
  unfold owners pending
  simp only [List.filter_append, List.filter_cons, Bool.not_false, if_true, List.filter_nil,
    List.map_append, List.map_cons, List.map_nil, List.append_assoc, List.cons_append,
    List.nil_append]
  exact List.perm_middle.symm

theorem owners_shutdown {c : SrtConn} (hc : s.live[i]? = some c) :
    s.owners.Perm (c.owner :: owners ⟨ln, s.requests, s.live.eraseIdx i⟩) := by
  obtain ⟨l₁, l₂, hl, -, herase⟩ := exists_cut hc
  unfold owners
  rw [herase, hl]
  simp only [pending, List.map_append, List.map_cons, ← List.append_assoc]
  exact List.perm_middle

end

/-! ### The invariant -/

/-- Both maps index the owners. -/
structure Indexed (s : Registry) : Prop where
  conns : Indexes s.listener.conns Owner.socketId Owner.conn s.owners
  connsByPeer : Indexes s.listener.connsByPeer Owner.peerSocketId Owner.conn s.owners

theorem indexed_init (ln : Listener) (hconns : ln.conns = ∅) (hpeers : ln.connsByPeer = ∅) :
    (init ln).Indexed := by
  constructor
  · show Indexes ln.conns _ _ _
    rw [hconns]
    exact indexes_empty
  · show Indexes ln.connsByPeer _ _ _
    rw [hpeers]
    exact indexes_empty

/-- Indexed maps correspond to the owners. -/
theorem Indexed.corresponds (h : s.Indexed) : s.Corresponds where
  socketIds := h.conns.nodup
  peers := h.connsByPeer.nodup
  conns _ _ := h.conns.lookup_iff
  connsByPeer _ _ := h.connsByPeer.lookup_iff
  pending := by
    have hpeers := h.connsByPeer.nodup
    unfold owners at hpeers
    rw [List.map_append, List.map_map] at hpeers
    exact hpeers.of_append_left

/-- The peer of a pending request is reserved. -/
theorem Indexed.lookup_pending (h : s.Indexed) (hr : s.requests[i]? = some r)
    (hpending : r.resolved = false) :
    s.listener.connsByPeer.lookup r.request.peerSocketId = some none := by
  refine h.connsByPeer.lookup_of_mem (x := r.owner) (List.mem_append_left _ ?_)
  refine List.mem_map_of_mem (List.mem_filter.mpr ⟨List.mem_of_getElem? hr, ?_⟩)
  rw [hpending]
  rfl

/-- An allowed arrival keeps the index. -/
theorem Indexed.arrived (h : s.Indexed) {p : Packet} {a : Arrival} {ln : Listener}
    {req : Option ConnRequest} (hcase : Listener.Registers prim s.listener p a ln req)
    (hallowed : Allowed prim s (.arrival p a)) :
    Indexed
      { s with
        listener := ln
        requests := s.requests ++ (req.map (TrackedRequest.mk · false)).toList } := by
  cases hcase with
  | unchanged =>
    rw [Option.map_none, Option.toList_none, List.append_nil]
    exact h
  | exhausted peer htakes hnew hsocket =>
    have hfound := hallowed htakes
    rw [hsocket] at hfound
    cases hfound
  | reserved req hnew hsocket =>
    have hfree := Listener.lookup_generateSocketId hsocket
    constructor
    · exact (h.conns.insert (x := TrackedRequest.owner ⟨req, false⟩) hfree).perm
        (owners_request _ _ _ _)
    · exact (h.connsByPeer.insert (x := TrackedRequest.owner ⟨req, false⟩) hnew).perm
        (owners_request _ _ _ _)

/-- The first call on a request. -/
theorem Indexed.resolved (h : s.Indexed) {ln : Listener} (hr : s.requests[i]? = some r)
    (hpending : r.resolved = false) (hcase : ConnRequest.Resolves s.listener r.request ln conn) :
    Indexed ⟨ln, s.requests.set i ⟨req, true⟩, s.live ++ conn.toList⟩ := by
  have hperm := owners_resolve ln hr hpending req
  have hconns := h.conns.perm hperm
  have hpeers := h.connsByPeer.perm hperm
  cases hcase with
  -- Its own entry is there, so the first call finds it.
  | refused hresolved => exact absurd (h.lookup_pending hr hpending) hresolved
  | rejected _ =>
    rw [Option.toList_none, List.append_nil]
    exact ⟨hconns.erase, hpeers.erase⟩
  | accepted _ conn hsocket hpeer =>
    -- The connection takes the place of the request, under the same two ids.
    have hconns := hconns.replace (y := conn.owner) hsocket
    have hpeers := hpeers.replace (y := conn.owner) hpeer
    rw [show conn.owner.socketId = r.request.socketId from hsocket] at hconns
    rw [show conn.owner.peerSocketId = r.request.peerSocketId from hpeer] at hpeers
    exact ⟨hconns.perm (owners_connect _ _ _ _), hpeers.perm (owners_connect _ _ _ _)⟩

/-- A call on a resolved request that finds no request of the peer does nothing. -/
theorem resolves_of_ne {ln ln' : Listener} (hcase : ConnRequest.Resolves ln req ln' conn)
    (hne : ln.connsByPeer.lookup req.peerSocketId ≠ some none) : ln' = ln ∧ conn = none := by
  cases hcase with
  | refused => exact ⟨rfl, rfl⟩
  | rejected hopen => exact absurd hopen hne
  | accepted hopen => exact absurd hopen hne

/-- A call that finds a request of the peer changes the map. -/
theorem lookup_ne_of_resolves {ln ln' : Listener} (hcase : ConnRequest.Resolves ln req ln' conn)
    (hopen : ln.connsByPeer.lookup req.peerSocketId = some none) :
    ln'.connsByPeer ≠ ln.connsByPeer := by
  -- After the call the entry of the peer is gone or has a connection.
  intro hsame
  rw [← hsame] at hopen
  cases hcase with
  | refused hresolved => exact hresolved hopen
  | rejected _ =>
    change (ln.connsByPeer.erase req.peerSocketId).lookup req.peerSocketId = some none at hopen
    rw [AList.lookup_erase] at hopen
    cases hopen
  | accepted _ conn =>
    change (ln.connsByPeer.insert req.peerSocketId (some conn)).lookup req.peerSocketId
      = some none at hopen
    rw [AList.lookup_insert] at hopen
    cases hopen

/-- The condition on a call, in terms of its request. -/
theorem allowed_iff (he : resolves? e = some i) (hr : s.requests[i]? = some r) :
    Allowed prim s e ↔ r.resolved = false ∨
      s.listener.connsByPeer.lookup r.request.peerSocketId ≠ some none := by
  cases e <;> cases he
  all_goals simp only [Allowed, Unmistaken, hr]

theorem stale_iff (he : resolves? e = some i) (hr : s.requests[i]? = some r) :
    s.Stale e ↔ r.resolved = true := by
  cases e <;> cases he
  all_goals simp [Stale, hr]

/-! ### Steps and runs -/

/-- The step lemma: an allowed step keeps the invariant. -/
theorem Indexed.step (hallowed : Allowed prim s e) (h : s.Indexed)
    (hs : Registry.step prim s e = some s') : s'.Indexed := by
  cases step_cases hs with
  | arrived p a ln req sent hok =>
    exact h.arrived (Listener.newConnRequest_registers hok) hallowed
  | passphraseSet i passphrase r req hr howner =>
    have howners := owners_set s.listener ⟨req, r.resolved⟩ hr rfl
      fun _ => howner
    exact ⟨howners ▸ h.conns, howners ▸ h.connsByPeer⟩
  | resolved e i r req ln conn he hr hcase =>
    cases hresolved : r.resolved with
    | false => exact h.resolved hr hresolved hcase
    | true =>
      -- A stale call is allowed only where it finds nothing to act on.
      have hne := ((allowed_iff he hr).mp hallowed).resolve_left (by simp [hresolved])
      obtain ⟨rfl, rfl⟩ := resolves_of_ne hcase hne
      have howners := owners_set s.listener ⟨req, true⟩ hr hresolved.symm
        fun hpending => nomatch hresolved.symm.trans hpending
      rw [Option.toList_none, List.append_nil]
      exact ⟨howners ▸ h.conns, howners ▸ h.connsByPeer⟩
  | shutDown i c hc =>
    have hperm := owners_shutdown s.listener hc
    exact ⟨(h.conns.perm hperm).erase, (h.connsByPeer.perm hperm).erase⟩

/-- A stale call that is allowed does not touch the maps. -/
theorem listener_of_stale (hallowed : Allowed prim s e) (hstale : s.Stale e)
    (hs : Registry.step prim s e = some s') : s'.listener = s.listener := by
  cases step_cases hs with
  | arrived => exact hstale.elim
  | passphraseSet => exact hstale.elim
  | shutDown => exact hstale.elim
  | resolved e i r req ln conn he hr hcase =>
    have hresolved := (stale_iff he hr).mp hstale
    have hne := ((allowed_iff he hr).mp hallowed).resolve_left (by simp [hresolved])
    exact (resolves_of_ne hcase hne).1

/-- Only an allowed step leaves the maps in correspondence. -/
theorem Indexed.allowed (h : s.Indexed) (hs : Registry.step prim s e = some s')
    (hkeeps : Keeps prim s e) : Allowed prim s e := by
  obtain ⟨hcorresponds, hstale⟩ := hkeeps s' hs
  cases step_cases hs with
  | passphraseSet => trivial
  | shutDown => trivial
  | arrived p a ln req sent hok =>
    cases Listener.newConnRequest_registers hok with
    | unchanged hnot => exact fun htakes => absurd htakes hnot
    | exhausted peer _ hnew _ =>
      -- The reserved peer would need an owner, but there is no new one.
      obtain ⟨o, ho, hpeer, hconn⟩ :=
        (hcorresponds.connsByPeer peer none).mp (AList.lookup_insert _)
      rw [Option.map_none, Option.toList_none, List.append_nil] at ho
      have hlookup := h.connsByPeer.lookup_iff.mpr ⟨o, ho, hpeer, hconn⟩
      rw [hnew] at hlookup
      cases hlookup
    -- A request was made, so the draw has found an id.
    | reserved req _ hsocket =>
      intro _
      rw [hsocket]
      rfl
  | resolved e i r req ln conn he hr hcase =>
    rw [allowed_iff he hr]
    cases hresolved : r.resolved with
    | false => exact Or.inl rfl
    | true =>
      right
      intro hopen
      exact lookup_ne_of_resolves hcase hopen (hstale ((stale_iff he hr).mpr hresolved)).2

/-- The allowed steps are those that keep the correspondence. -/
theorem Indexed.allowed_iff_keeps (h : s.Indexed) (hs : Registry.step prim s e = some s') :
    Allowed prim s e ↔ Keeps prim s e := by
  refine ⟨fun hallowed s₁ hs₁ => ⟨(h.step hallowed hs₁).corresponds, fun hstale => ?_⟩,
    h.allowed hs⟩
  rw [listener_of_stale hallowed hstale hs₁]
  exact ⟨rfl, rfl⟩

/-- The maps of a new listener correspond, and they do so after every step of a run, with stale
calls without effect, exactly when every step of the run is allowed. -/
theorem corresponds_iff_allowed (prim : Primitives) (config : Config) (addr : String) (ip : IP)
    (secret1 secret2 : Bytes) (events : List Event)
    (hrun : run (step prim) (init (Listener.new config addr ip secret1 secret2)) events
      = some s) :
    ((init (Listener.new config addr ip secret1 secret2)).Corresponds ∧
        RunMeets (step prim) (Keeps prim) (init (Listener.new config addr ip secret1 secret2))
          events) ↔
      RunMeets (step prim) (Allowed prim) (init (Listener.new config addr ip secret1 secret2))
        events := by
  have h0 := indexed_init (Listener.new config addr ip secret1 secret2) rfl rfl
  rw [and_iff_right h0.corresponds]
  exact (runMeets_congr Indexed (fun _ _ _ h hs => h.allowed_iff_keeps hs)
    (fun _ _ _ hallowed h hs => h.step hallowed hs) h0 hrun).symm

end

/-! ### Sample runs -/

/-- The CONCLUSION arrives, and the socket id is drawn. -/
def sampleArrival (peer socketId : UInt32) : Event :=
  let p := newPacket (some "127.0.0.1:50000")
  .arrival
    { header := { p.header with isControlPacket := true, controlType := CtrlType.handshake }
      payload := (sampleConclusion peer).marshal.toOption.getD [] }
    { timestamp := 1000, counter := 27343750, draws := ⟨none, none, none⟩,
      socketIds := [some socketId] }

def sampleEnd (events : List Event) : Registry :=
  runD (step Sample.primitives) (init sampleListener) events

/-- A peer sends its CONCLUSION twice and is accepted, another one is rejected. Both requests
are resolved again. The connection shuts down, and its peer comes back. -/
def allowedEvents : List Event :=
  [sampleArrival 7 8, sampleArrival 7 9, .accept 0 2000, .reject 0 RejectionReason.rogue 2001,
    sampleArrival 17 18, .reject 1 RejectionReason.rogue 2002, .accept 1 2003, .shutdown 0,
    sampleArrival 7 28]

/-- The stale calls have no effect, and the maps correspond all along. -/
theorem corresponds_allowedEvents :
    run (step Sample.primitives) (init sampleListener) allowedEvents
        = some (sampleEnd allowedEvents) ∧
      (sampleEnd allowedEvents).requests.length = 3 ∧
      (init sampleListener).Corresponds ∧
      RunMeets (step Sample.primitives) (Keeps Sample.primitives) (init sampleListener)
        allowedEvents :=
  ⟨run_eq_some_runD (by decide +kernel), by decide +kernel,
    (corresponds_iff_allowed Sample.primitives {} "127.0.0.1:6000" (IP.ipv4 127 0 0 1) _ _
      allowedEvents (run_eq_some_runD (by decide +kernel))).mpr (by decide +kernel)⟩

/-- A peer is rejected and sends its CONCLUSION again. `Reject` is called a second time on the
first request. -/
def staleEvents : List Event :=
  [sampleArrival 7 8, .reject 0 RejectionReason.rogue 2000, sampleArrival 7 9,
    .reject 0 RejectionReason.rogue 2001]

/-- The stale call frees the peer of the second request, which is still pending and keeps its
socket id. -/
theorem not_corresponds_staleEvents :
    run (step Sample.primitives) (init sampleListener) staleEvents
        = some (sampleEnd staleEvents) ∧
      (sampleEnd staleEvents).pending.map TrackedRequest.owner = [⟨9, 7, none⟩] ∧
      (sampleEnd staleEvents).listener.conns.lookup 9 = some none ∧
      (sampleEnd staleEvents).listener.connsByPeer.lookup 7 = none ∧
      ¬(sampleEnd staleEvents).Corresponds := by
  refine ⟨run_eq_some_runD (by decide +kernel), by decide +kernel, by decide +kernel,
    by decide +kernel, fun h => ?_⟩
  have hlookup := (h.connsByPeer 7 none).mpr (by decide +kernel)
  exact absurd hlookup (by decide +kernel)

end Registry

end Gosrt
