import Gosrt.Proofs.Crypto
import Gosrt.Proofs.Listen
import Gosrt.Spec.Admission

/-!
# `Gosrt.Proofs.Admission`: when `newConnRequest` is all or nothing

A CONCLUSION that is not verified is refused, and leaves the maps alone (`request_of_not_verified`).
A message that passes all checks reaches `register`, and the only packet that was sent by then is
the rejection for its MTU size, after which the source does not return (`request_of_passes`). A
message that fails a check after the MTU size is refused, unless its packet is used up by that
rejection: then the call panics (`request_of_fails`). `register` reserves the peer before it looks
for a socket id.

So there are four ways to get neither all nor nothing: the decoder panics, a rejected message is
registered, a rejected message is rejected again, or the peer stays reserved without a request.
`atomic_iff` says that these are all.
-/

set_option autoImplicit false

namespace Gosrt

open Lib

/-! ### Messages that can be encoded again -/

namespace CIFHandshake

/-- The extensions that the message says it has are there, and the key material can be encoded. -/
structure Carries (c : CIFHandshake) : Prop where
  hs : c.hasHS = true → c.srtHS.isSome = true
  km : c.hasKM = true → c.srtKM.isSome = true
  marshal_km : ∀ km ∈ c.srtKM, Returns km.marshal

section
variable {c c' : CIFHandshake}

theorem ExtensionCase.carries {extensionType : CtrlSubType} {rest : Bytes} (h : c.Carries)
    (hcase : ExtensionCase c extensionType rest c') : c'.Carries := by
  cases hcase with
  | hs _ srtHS => exact { h with hs := fun _ => rfl }
  | km _ km hok encryptionField =>
    refine { h with km := fun _ => rfl, marshal_km := ?_ }
    intro km' hmem
    cases hmem
    exact ⟨_, CIFKeyMaterialExtension.marshal_of_unmarshal hok⟩
  | other _ _ _ _ _ => exact { h with }

/-- A decoded message has the extensions that its flags promise. -/
theorem unmarshal_carries {data : Bytes} (h : c.Carries) (hok : c.unmarshal data = .ok c') :
    c'.Carries := by
  obtain ⟨c₁, hheader, hrest⟩ := unmarshal_parts hok
  obtain ⟨-, hhasHS, hsrtHS, hhasKM, hsrtKM⟩ := unmarshalHeader_extensions hheader
  have h₁ : c₁.Carries := by
    refine ⟨?_, ?_, ?_⟩
    · rw [hhasHS, hsrtHS]
      exact h.hs
    · rw [hhasKM, hsrtKM]
      exact h.km
    · rw [hsrtKM]
      exact h.marshal_km
  rcases hrest with rfl | hrest
  · exact h₁
  · exact unmarshalExtensions_keeps ExtensionCase.carries h₁ hrest

/-- What comes out of a packet carries its extensions. -/
theorem carries_of_ofPacket {p : Packet} (hok : ofPacket p = .ok c) : c.Carries := by
  have hempty : ({} : CIFHandshake).Carries := ⟨nofun, nofun, nofun⟩
  unfold ofPacket at hok
  split at hok
  · exact unmarshal_carries hempty hok
  · cases hok
    exact hempty

/-- `Marshal` can prepare such a message. -/
theorem Carries.prepare (h : c.Carries) : ∃ c', c.prepare = .ok c' ∧ c'.Carries := by
  have hreturns : Returns c.prepare := by
    obtain ⟨hasSID, hsid⟩ := c.withoutEmptySID
    unfold CIFHandshake.prepare
    dsimp only
    rw [hsid]
    refine returns_ite (fun _ => ?_) fun _ => returns_ok _
    refine returns_ite (fun hkm => ?_) fun _ => returns_ok _
    exact returns_bind (returns_orPanic (h.km hkm)) fun _ _ => returns_ok _
  obtain ⟨c', hok⟩ := hreturns
  obtain ⟨_, _, _, rfl⟩ := prepare_fields hok
  exact ⟨_, hok, { h with }⟩

theorem returns_marshalString (extensionType : CtrlSubType) (s : Bytes) :
    Returns (marshalString extensionType s) :=
  returns_bind (returns_orPanic (swapWords_isSome _ _ (by omega))) fun _ _ => returns_ok _

/-- A message that carries its extensions can be encoded. -/
theorem Carries.marshal (h : c.Carries) : Returns c.marshal := by
  obtain ⟨c', hprepare, h'⟩ := h.prepare
  unfold CIFHandshake.marshal
  rw [hprepare, ok_bind]
  refine returns_bind ?_ fun _ _ => returns_bind ?_ fun _ _ => returns_bind ?_ fun _ _ =>
    returns_bind ?_ fun _ _ => returns_ok _
  · refine returns_ite (fun hhs => ?_) fun _ => returns_ok _
    exact returns_bind (returns_orPanic (h'.hs hhs)) fun _ _ => returns_ok _
  · refine returns_ite (fun hkm => ?_) fun _ => returns_ok _
    refine returns_bind (returns_orPanic (h'.km hkm)) fun km hsome => ?_
    exact returns_bind (h'.marshal_km km (orPanic_eq_ok_iff.mp hsome)) fun _ _ => returns_ok _
  · exact returns_ite (fun _ => returns_marshalString _ _) fun _ => returns_ok _
  · exact returns_ite (fun _ => returns_marshalString _ _) fun _ => returns_ok _

end

end CIFHandshake

/-! ### The checks -/

namespace Listener

section
variable {prim : Primitives} {ln : Listener} {addr : String} {p : Packet} {cif cif' : CIFHandshake}
  {a : Arrival}

/-- A message with its extensions can be written, so a refusal never panics. -/
theorem returns_marshalCIF (p : Packet) {cif : CIFHandshake} (h : cif.Carries) :
    ∃ cif' q, marshalCIF p cif = .ok (cif', q) := by
  have hreturns : Returns (marshalCIF p cif) := by
    obtain ⟨cif', hprepare, -⟩ := h.prepare
    exact returns_bind h.marshal fun _ _ => returns_bind ⟨cif', hprepare⟩ fun _ _ => returns_ok _
  obtain ⟨⟨cif', q⟩, hok⟩ := hreturns
  exact ⟨cif', q, hok⟩

/-- A refused message leaves the listener as it is. -/
theorem refuse_ok (ln : Listener) (p : Packet) (h : cif.Carries) (reason : RejectionReason) :
    ∃ sent, ln.refuse [] p cif reason = .ok (ln, none, sent) := by
  have hreject : { cif with handshakeType := reason }.Carries := { h with }
  obtain ⟨cif', q, hok⟩ := returns_marshalCIF p hreject
  exact ⟨[q], by unfold refuse; rw [if_pos List.isEmpty_nil, hok]; rfl⟩

/-- A packet that was sent already cannot be sent again. -/
theorem refuse_panic {sent : List Packet} (hsent : sent ≠ []) (reason : RejectionReason) :
    ln.refuse sent p cif reason = .error .panic := by
  unfold refuse
  rw [if_neg (by simpa using hsent)]

/-- The check of the version does not look at the sizes. -/
theorem checkVersion_adjustMSS (config : Config) (mtu : UInt32) (cif : CIFHandshake) :
    checkVersion (config.adjustMSS mtu) cif = checkVersion config cif := by
  unfold Config.adjustMSS
  split
  · rfl
  · rfl

/-- The check of the version, for a message that was encoded as a rejection before. -/
theorem checkVersion_of_prepare (config : Config)
    (h : { cif with handshakeType := RejectionReason.rogue }.prepare = .ok cif') :
    checkVersion config cif' = none ↔ checkVersion config cif = none ∨ cif.version = 4 := by
  by_cases hversion : cif.version = 4
  · have hne : cif.version ≠ 5 := by
      rw [hversion]
      decide
    obtain ⟨hasSID, hok⟩ := CIFHandshake.prepare_of_version_ne
      (c := { cif with handshakeType := RejectionReason.rogue }) hne
    rw [hok] at h
    cases h
    unfold checkVersion
    simp [hversion]
  · obtain ⟨_, _, _, rfl⟩ := CIFHandshake.prepare_fields h
    unfold checkVersion
    simp [hversion]

/-- What comes out of the check of the MTU size, for the checks after it. -/
theorem checkSize_ok (ln : Listener) (p : Packet) (h : cif.Carries) :
    ∃ cif' sent, ln.checkSize p cif = .ok (cif', sent) ∧ cif'.Carries ∧
      cif'.srtSocketId = cif.srtSocketId ∧ cif'.srtKM = cif.srtKM ∧
      (sent = [] ↔ ln.config.mssTooSmall cif.maxTransmissionUnitSize = false) ∧
      (checkVersion ln.config cif' = none ↔ checkVersion ln.config cif = none ∨
        (cif.version = 4 ∧ ln.config.mssTooSmall cif.maxTransmissionUnitSize = true)) := by
  unfold checkSize
  by_cases hsmall : ln.config.mssTooSmall cif.maxTransmissionUnitSize = true
  · have hreject : { cif with handshakeType := RejectionReason.rogue }.Carries := { h with }
    obtain ⟨cif', q, hok⟩ := returns_marshalCIF p hreject
    have hprepare := (marshalCIF_ok hok).1
    have hversion := checkVersion_of_prepare ln.config hprepare
    obtain ⟨_, _, _, rfl⟩ := CIFHandshake.prepare_fields hprepare
    rw [if_pos hsmall, hok]
    refine ⟨_, _, rfl, { h with }, rfl, rfl, ?_, ?_⟩
    · simp [hsmall]
    · rw [hversion]
      simp [hsmall]
  · rw [if_neg hsmall]
    refine ⟨_, _, rfl, h, rfl, rfl, ?_, ?_⟩
    · simpa using hsmall
    · simp [hsmall]

/-- A message that passes the checks after the MTU size is registered. -/
theorem admission_of_passes {config : Config} (p : Packet) (sent : List Packet)
    (hversion : checkVersion config cif = none)
    (hcrypto : (requestCrypto cif a.draws).isSome = true) :
    ∃ req : ConnRequest, req.peerSocketId = cif.srtSocketId ∧
      ln.admission config p cif sent a = .ok (ln.register sent req a.socketIds) := by
  obtain ⟨crypto, hcrypto⟩ := Option.isSome_iff_exists.mp hcrypto
  unfold admission
  rw [hversion]
  dsimp only
  rw [hcrypto]
  exact ⟨_, rfl, rfl⟩

/-- A message that fails one of the checks after the MTU size is refused. -/
theorem admission_of_fails {config : Config} (ln : Listener) (p : Packet) (sent : List Packet)
    (hnot : ¬(checkVersion config cif = none ∧ (requestCrypto cif a.draws).isSome = true)) :
    ∃ reason, ln.admission config p cif sent a = ln.refuse sent p cif reason := by
  unfold admission
  cases hversion : checkVersion config cif with
  | some reason => exact ⟨reason, rfl⟩
  | none =>
    cases hcrypto : requestCrypto cif a.draws with
    | none => exact ⟨RejectionReason.rogue, rfl⟩
    | some crypto =>
      rw [hversion, hcrypto] at hnot
      exact absurd ⟨rfl, rfl⟩ hnot

/-- A message with a wrong cookie or with an MTU size that is too big is refused. -/
theorem request_of_not_verified (h : cif.Carries) (haddr : p.header.addr = some addr)
    (htype : cif.handshakeType = HandshakeType.conclusion) (hnot : ¬ln.Verified prim addr cif a) :
    ∃ sent, ln.request prim p cif a = .ok (ln, none, sent) := by
  unfold request
  rw [haddr, orPanic_some, ok_bind]
  by_cases hcookie : ln.syncookie.verify prim a.counter cif.synCookie addr = true
  swap
  · rw [if_pos (by simpa using hcookie)]
    exact ln.refuse_ok p h RejectionReason.rogue
  rw [if_neg (by simp [hcookie])]
  by_cases hmtu : cif.maxTransmissionUnitSize > maxMSSSize
  · rw [if_pos hmtu]
    exact ln.refuse_ok p h RejectionReason.rogue
  · exact absurd ⟨htype, hcookie, UInt32.not_lt.mp hmtu⟩ hnot

/-- A verified message reaches the checks after the MTU size, after at most a rejection for that
size. They see the message as this rejection left it. -/
theorem request_of_verified (h : cif.Carries) (haddr : p.header.addr = some addr)
    (hverified : ln.Verified prim addr cif a) :
    ∃ (config : Config) (cif' : CIFHandshake) (sent : List Packet),
      ln.request prim p cif a = ln.admission config p cif' sent a ∧ cif'.Carries ∧
      cif'.srtSocketId = cif.srtSocketId ∧
      (sent = [] ↔ ln.config.mssTooSmall cif.maxTransmissionUnitSize = false) ∧
      (checkVersion config cif' = none ∧ (requestCrypto cif' a.draws).isSome = true ↔
        ln.Passes prim addr cif a) := by
  obtain ⟨cif', sent, hsize, h', hid, hkm, hsent, hversion⟩ := ln.checkSize_ok p h
  refine ⟨ln.config.adjustMSS cif.maxTransmissionUnitSize, cif', sent, ?_, h', hid, hsent, ?_⟩
  · unfold request
    rw [haddr, orPanic_some, ok_bind, if_neg (by simp [hverified.synCookie]),
      if_neg (UInt32.not_lt.mpr hverified.maxTransmissionUnitSize)]
    dsimp only
    rw [hsize, ok_bind]
  · have hcrypto : requestCrypto cif' a.draws = requestCrypto cif a.draws := by
      unfold requestCrypto
      rw [hkm]
    rw [checkVersion_adjustMSS, hversion, hcrypto]
    exact ⟨fun hchecks => ⟨hverified, hchecks.1, hchecks.2⟩,
      fun hpasses => ⟨hpasses.version, hpasses.crypto⟩⟩

/-- A message that passes the checks is registered, after at most a rejection for its MTU size. -/
theorem request_of_passes (h : cif.Carries) (haddr : p.header.addr = some addr)
    (hpasses : ln.Passes prim addr cif a) :
    ∃ (sent : List Packet) (req : ConnRequest), req.peerSocketId = cif.srtSocketId ∧
      (sent = [] ↔ ln.config.mssTooSmall cif.maxTransmissionUnitSize = false) ∧
      ln.request prim p cif a = .ok (ln.register sent req a.socketIds) := by
  obtain ⟨config, cif', sent, hrequest, -, hid, hsent, hchecks⟩ :=
    request_of_verified h haddr hpasses.toVerified
  obtain ⟨hversion, hcrypto⟩ := hchecks.mpr hpasses
  obtain ⟨req, hpeer, hok⟩ := admission_of_passes p sent hversion hcrypto
  exact ⟨sent, req, hpeer.trans hid, hsent, hrequest.trans hok⟩

/-- A verified message that fails a check after the MTU size is refused. This panics when it was
rejected for its MTU size before. -/
theorem request_of_fails (h : cif.Carries) (haddr : p.header.addr = some addr)
    (hverified : ln.Verified prim addr cif a) (hnot : ¬ln.Passes prim addr cif a) :
    (ln.config.mssTooSmall cif.maxTransmissionUnitSize = true ∧
        ln.request prim p cif a = .error .panic) ∨
      (ln.config.mssTooSmall cif.maxTransmissionUnitSize = false ∧
        ∃ sent, ln.request prim p cif a = .ok (ln, none, sent)) := by
  obtain ⟨config, cif', sent, hrequest, h', -, hsent, hchecks⟩ :=
    request_of_verified h haddr hverified
  obtain ⟨reason, hrefuse⟩ :=
    ln.admission_of_fails p sent (mt hchecks.mp hnot)
  rw [hrequest, hrefuse]
  cases hsmall : ln.config.mssTooSmall cif.maxTransmissionUnitSize with
  | true =>
    refine Or.inl ⟨rfl, refuse_panic (fun hnil => ?_) reason⟩
    rw [hsent.mp hnil] at hsmall
    cases hsmall
  | false =>
    refine Or.inr ⟨rfl, ?_⟩
    rw [hsent.mpr hsmall]
    exact ln.refuse_ok p h' reason

/-! ### The reservation -/

theorem insert_ne_self {m : ConnMap} {id : UInt32} (h : m.lookup id = none)
    (conn : Option SrtConn) : m.insert id conn ≠ m := by
  intro heq
  have hlookup := AList.lookup_insert m (a := id) (b := conn)
  rw [heq, h] at hlookup
  cases hlookup

/-- `register` is all or nothing when the peer is known, or nothing was sent before and there is a
socket id. -/
theorem allOrNothing_register (ln : Listener) (sent : List Packet) (req : ConnRequest)
    (socketIds : List (Option UInt32)) :
    ln.AllOrNothing req.peerSocketId (ln.register sent req socketIds).1
        (ln.register sent req socketIds).2.1 (ln.register sent req socketIds).2.2 ↔
      (ln.connsByPeer.lookup req.peerSocketId = none →
        sent = [] ∧ (generateSocketId ln.conns 10 socketIds).isSome = true) := by
  unfold register
  cases hknown : ln.connsByPeer.lookup req.peerSocketId with
  | some conn =>
    refine iff_of_true (.nothing ln sent rfl rfl) ?_
    intro hnone
    cases hnone
  | none =>
    cases hsocket : generateSocketId ln.conns 10 socketIds with
    | none =>
      constructor
      · -- The peer is reserved, and there is no request.
        intro hcase
        cases hcase with
        | nothing _ _ hconnsByPeer => exact absurd hconnsByPeer (insert_ne_self hknown none)
      · intro himp
        cases (himp rfl).2
    | some socketId =>
      constructor
      · intro hcase _
        cases hcase
        exact ⟨rfl, rfl⟩
      · intro himp
        obtain ⟨rfl, -⟩ := himp rfl
        exact .registered _ _ rfl (lookup_generateSocketId hsocket) hknown rfl rfl

/-! ### All or nothing -/

/-- The one way in which decoding a handshake panics. -/
theorem ofPacket_panic_iff (p : Packet) :
    CIFHandshake.ofPacket p = .error .panic ↔
      p.header.isControlPacket = true ∧ CIFHandshake.StrayMessage p.payload := by
  unfold CIFHandshake.ofPacket
  by_cases hcontrol : p.header.isControlPacket = true
  · have hiff := not_iff_not.mp (CIFHandshake.unmarshal_noPanic_iff {} p.payload)
    rw [if_pos hcontrol, hiff]
    simp [hcontrol]
  · rw [if_neg hcontrol]
    simp [hcontrol]

/-- Where the call returns, atomicity is about what it returns. -/
theorem atomic_of_ok {ln' : Listener} {req : Option ConnRequest} {sent : List Packet}
    (h : ln.newConnRequest prim p a = .ok (ln', req, sent)) :
    ln.Atomic prim p a ↔ ln.AllOrNothing (peerOf p) ln' req sent := by
  unfold Atomic
  rw [h]
  constructor
  · rintro ⟨_, _, _, heq, hcase⟩
    cases heq
    exact hcase
  · intro hcase
    exact ⟨_, _, _, rfl, hcase⟩

/-- An INDUCTION is answered, and any other message that is no CONCLUSION is dropped. -/
theorem newConnRequest_of_ne (prim : Primitives) (ln : Listener) (a : Arrival) (h : cif.Carries)
    (haddr : p.header.addr = some addr)
    (hcif : CIFHandshake.ofPacket p = .ok cif)
    (htype : cif.handshakeType ≠ HandshakeType.conclusion) :
    ∃ sent, ln.newConnRequest prim p a = .ok (ln, none, sent) := by
  unfold newConnRequest
  rw [hcif]
  dsimp only
  by_cases hinduction : cif.handshakeType = HandshakeType.induction
  · rw [if_pos hinduction]
    have hanswer : { cif with
        peerIP := ln.ip
        version := 5
        encryptionField := 0
        extensionField := 0x4A17
        synCookie := ln.syncookie.get prim a.counter addr }.Carries := { h with }
    obtain ⟨cif', q, hok⟩ := returns_marshalCIF (answer p cif.srtSocketId a.timestamp) hanswer
    refine ⟨[q], ?_⟩
    unfold answerInduction
    rw [show (answer p cif.srtSocketId a.timestamp).header.addr = some addr from haddr,
      orPanic_some, ok_bind, hok]
    rfl
  · rw [if_neg hinduction, if_neg htype]
    exact ⟨[], rfl⟩

/-- A CONCLUSION reaches `request`. -/
theorem newConnRequest_of_conclusion (prim : Primitives) (ln : Listener) (a : Arrival)
    (hcif : CIFHandshake.ofPacket p = .ok cif)
    (htype : cif.handshakeType = HandshakeType.conclusion) :
    ln.newConnRequest prim p a = ln.request prim (answer p cif.srtSocketId a.timestamp)
      { cif with peerIP := ln.ip } a := by
  unfold newConnRequest
  rw [hcif]
  dsimp only
  rw [if_neg (by rw [htype]; decide), if_pos htype]

/-- The listener writes its own address into the message. The checks do not look at it. -/
theorem passes_peerIP {ip : IP} :
    ln.Passes prim addr { cif with peerIP := ip } a ↔ ln.Passes prim addr cif a :=
  ⟨fun h => { h with }, fun h => { h with }⟩

/-- A packet that the listener takes is registered. -/
theorem newConnRequest_of_takes (h : ln.Takes prim p a) :
    ∃ (sent : List Packet) (req : ConnRequest), ln.connsByPeer.lookup req.peerSocketId = none ∧
      ln.newConnRequest prim p a = .ok (ln.register sent req a.socketIds) := by
  obtain ⟨addr, haddr, cif, hcif, hpasses, hnew⟩ := h
  have hcif := eq_ok_of_toOption hcif
  have hcarries : { cif with peerIP := ln.ip }.Carries :=
    { CIFHandshake.carries_of_ofPacket hcif with }
  have haddr' : (answer p cif.srtSocketId a.timestamp).header.addr = some addr := haddr
  obtain ⟨sent, req, hpeer, -, hok⟩ :=
    request_of_passes hcarries haddr' (passes_peerIP.mpr hpasses)
  refine ⟨sent, req, ?_, ?_⟩
  · rw [hpeer]
    exact hnew
  · rw [newConnRequest_of_conclusion prim ln a hcif hpasses.handshakeType]
    exact hok

/-- Any other packet leaves the listener as it is, if the call returns. -/
theorem newConnRequest_of_not_takes {ln' : Listener} {req : Option ConnRequest}
    {sent : List Packet} (hnot : ¬ln.Takes prim p a)
    (h : ln.newConnRequest prim p a = .ok (ln', req, sent)) : ln' = ln ∧ req = none := by
  cases hcif : CIFHandshake.ofPacket p with
  | error fault =>
    unfold newConnRequest at h
    rw [hcif] at h
    cases fault with
    | panic => cases h
    | error message =>
      cases h
      exact ⟨rfl, rfl⟩
  | ok cif =>
    cases newConnRequest_cases hcif h with
    | answered => exact ⟨rfl, rfl⟩
    | dropped => exact ⟨rfl, rfl⟩
    | concluded htype ln' req sent =>
      rw [newConnRequest_of_conclusion prim ln a hcif htype] at h
      have hcarries : { cif with peerIP := ln.ip }.Carries :=
        { CIFHandshake.carries_of_ofPacket hcif with }
      -- A packet without an address panics at the check of the cookie.
      obtain ⟨addr, haddr⟩ : ∃ addr, p.header.addr = some addr := by
        unfold request at h
        obtain ⟨addr, haddr, -⟩ := bind_eq_ok_iff.mp h
        exact ⟨addr, orPanic_eq_ok_iff.mp haddr⟩
      have haddr' : (answer p cif.srtSocketId a.timestamp).header.addr = some addr := haddr
      by_cases hpasses : ln.Passes prim addr cif a
      · obtain ⟨before, request, hpeer, -, hok⟩ :=
          request_of_passes hcarries haddr' (passes_peerIP.mpr hpasses)
        -- The peer is known, or the packet would be taken.
        have hknown : (ln.connsByPeer.lookup request.peerSocketId).isSome = true := by
          rw [hpeer, Option.isSome_iff_ne_none]
          intro hnew
          exact hnot ⟨addr, haddr, cif, by rw [hcif]; rfl, hpasses, hnew⟩
        unfold register at hok
        rw [if_pos hknown, h] at hok
        cases hok
        exact ⟨rfl, rfl⟩
      · have hrefused : ∃ sent, ln.request prim (answer p cif.srtSocketId a.timestamp)
            { cif with peerIP := ln.ip } a = .ok (ln, none, sent) := by
          by_cases hverified : ln.Verified prim addr cif a
          · rcases request_of_fails hcarries haddr' { hverified with }
              (mt passes_peerIP.mp hpasses) with ⟨-, hpanic⟩ | ⟨-, hok⟩
            · rw [hpanic] at h
              cases h
            · exact hok
          · exact request_of_not_verified hcarries haddr' htype fun h => hverified { h with }
        obtain ⟨sent', hok⟩ := hrefused
        rw [h] at hok
        cases hok
        exact ⟨rfl, rfl⟩

/-- When a CONCLUSION is handled with all or nothing. -/
theorem atomic_of_conclusion (prim : Primitives) (ln : Listener) (a : Arrival)
    (hcif : CIFHandshake.ofPacket p = .ok cif) (haddr : p.header.addr = some addr)
    (htype : cif.handshakeType = HandshakeType.conclusion) :
    ln.Atomic prim p a ↔ (ln.Verified prim addr cif a →
      (ln.config.mssTooSmall cif.maxTransmissionUnitSize = true →
        ln.Passes prim addr cif a ∧ (ln.connsByPeer.lookup cif.srtSocketId).isSome = true) ∧
      (ln.config.mssTooSmall cif.maxTransmissionUnitSize = false → ln.Passes prim addr cif a →
        ln.connsByPeer.lookup cif.srtSocketId = none →
        (generateSocketId ln.conns 10 a.socketIds).isSome = true)) := by
  have hcarries : { cif with peerIP := ln.ip }.Carries :=
    { CIFHandshake.carries_of_ofPacket hcif with }
  have hpeerOf : peerOf p = cif.srtSocketId := by
    unfold peerOf
    rw [hcif]
    rfl
  have hreach := newConnRequest_of_conclusion prim ln a hcif htype
  have haddr' : (answer p cif.srtSocketId a.timestamp).header.addr = some addr := haddr
  by_cases hverified : ln.Verified prim addr cif a
  swap
  · have hnot : ¬ln.Verified prim addr { cif with peerIP := ln.ip } a :=
      fun h => hverified { h with }
    obtain ⟨sent, hok⟩ := request_of_not_verified hcarries haddr' htype hnot
    rw [atomic_of_ok (hreach.trans hok)]
    exact iff_of_true (.nothing ln sent rfl rfl) fun h => absurd h hverified
  rw [imp_iff_right hverified]
  by_cases hpasses : ln.Passes prim addr cif a
  · -- The message is registered, and what was sent before depends on its MTU size.
    obtain ⟨sent, req, hpeer, hsent, hok⟩ :=
      request_of_passes hcarries haddr' (passes_peerIP.mpr hpasses)
    have hok' : ln.newConnRequest prim p a = .ok ((ln.register sent req a.socketIds).1,
        (ln.register sent req a.socketIds).2.1, (ln.register sent req a.socketIds).2.2) :=
      hreach.trans hok
    change req.peerSocketId = cif.srtSocketId at hpeer
    rw [atomic_of_ok hok', hpeerOf, ← hpeer, allOrNothing_register, hsent]
    cases hsmall : ln.config.mssTooSmall cif.maxTransmissionUnitSize <;>
      cases hknown : ln.connsByPeer.lookup req.peerSocketId <;> simp [hpasses]
  · rcases request_of_fails hcarries haddr' { hverified with } (mt passes_peerIP.mp hpasses) with
      ⟨hsmall, hpanic⟩ | ⟨hsmall, sent, hok⟩
    · refine iff_of_false ?_ fun h => hpasses (h.1 hsmall).1
      rintro ⟨ln', req, sent, hok, -⟩
      rw [hreach.trans hpanic] at hok
      cases hok
    · rw [atomic_of_ok (hreach.trans hok)]
      refine iff_of_true (.nothing ln sent rfl rfl) ⟨fun h => ?_, fun _ h => absurd h hpasses⟩
      rw [hsmall] at h
      cases h

end

/-- `newConnRequest` is all or nothing for a packet from the network exactly when the decoder does
not panic, a verified CONCLUSION with an MTU size that is too small passes the other checks and is
of a known peer, and a CONCLUSION of a new peer that passes the checks finds a socket id. -/
theorem atomic_iff (prim : Primitives) (ln : Listener) (addr : String) (p : Packet) (a : Arrival) :
    ln.Atomic prim (p.receivedFrom addr) a ↔
      ¬(p.header.isControlPacket = true ∧ CIFHandshake.StrayMessage p.payload) ∧
      ∀ cif, CIFHandshake.ofPacket p = .ok cif → ln.Verified prim addr cif a →
        (ln.config.mssTooSmall cif.maxTransmissionUnitSize = true →
          ln.Passes prim addr cif a ∧ (ln.connsByPeer.lookup cif.srtSocketId).isSome = true) ∧
        (ln.config.mssTooSmall cif.maxTransmissionUnitSize = false → ln.Passes prim addr cif a →
          ln.connsByPeer.lookup cif.srtSocketId = none →
          (generateSocketId ln.conns 10 a.socketIds).isSome = true) := by
  rw [← ofPacket_panic_iff]
  cases hcif : CIFHandshake.ofPacket p with
  | error fault =>
    have hcif' : CIFHandshake.ofPacket (p.receivedFrom addr) = .error fault := hcif
    cases fault with
    | panic =>
      refine iff_of_false ?_ fun h => h.1 rfl
      rintro ⟨ln', req, sent, hok, -⟩
      unfold newConnRequest at hok
      rw [hcif'] at hok
      cases hok
    | error message =>
      have hok : ln.newConnRequest prim (p.receivedFrom addr) a = .ok (ln, none, []) := by
        unfold newConnRequest
        rw [hcif']
      rw [atomic_of_ok hok]
      exact iff_of_true (.nothing ln [] rfl rfl) (by simp)
  | ok cif =>
    have hcif' : CIFHandshake.ofPacket (p.receivedFrom addr) = .ok cif := hcif
    have haddr : (p.receivedFrom addr).header.addr = some addr := rfl
    by_cases htype : cif.handshakeType = HandshakeType.conclusion
    · rw [atomic_of_conclusion prim ln a hcif' haddr htype]
      simp only [Except.ok.injEq, reduceCtorEq, not_false_eq_true, true_and, forall_eq']
    · obtain ⟨sent, hok⟩ := newConnRequest_of_ne prim ln a
        (CIFHandshake.carries_of_ofPacket hcif) haddr hcif' htype
      rw [atomic_of_ok hok]
      refine iff_of_true (.nothing ln sent rfl rfl) ⟨by simp, ?_⟩
      intro cif₁ hcif₁ hverified
      cases hcif₁
      exact absurd hverified.handshakeType htype

/-! ### Sample messages -/

end Listener

namespace Registry

def sampleListener : Listener :=
  Listener.new {} "127.0.0.1:6000" (IP.ipv4 127 0 0 1)
    "abcdefghijklmnopqrstuvwxyzABCDEF".toUTF8.toList
    "ABCDEFGHIJKLMNOPQRSTUVWXYZ012345".toUTF8.toList

/-- A CONCLUSION of a peer, with the cookie of the sample listener. -/
def sampleConclusion (peer : UInt32) : CIFHandshake where
  version := 5
  extensionField := 1
  initialPacketSequenceNumber := Number.new 1 maxSequenceNumber
  maxTransmissionUnitSize := 1500
  maxFlowWindowSize := 25600
  handshakeType := HandshakeType.conclusion
  srtSocketId := peer
  synCookie := sampleListener.syncookie.get Sample.primitives 27343750 "127.0.0.1:50000"
  peerIP := IP.ipv4 127 0 0 1
  hasHS := true
  srtHS := some
    { srtVersion := srtVersion
      srtFlags := CIFHandshakeExtensionFlags.own
      recvTSBPDDelay := 120
      sendTSBPDDelay := 120 }

end Registry

namespace Listener

/-- A packet with this message. -/
def conclusionPacket (cif : CIFHandshake) : Packet :=
  let p := newPacket none
  { header := { p.header with isControlPacket := true, controlType := CtrlType.handshake }
    payload := cif.marshal.toOption.getD [] }

/-- The CONCLUSION of the peer 7 with this MTU size. -/
def sizedConclusion (mtu : UInt32) : Packet :=
  conclusionPacket { Registry.sampleConclusion 7 with maxTransmissionUnitSize := mtu }

/-- The CONCLUSION of the peer 7 with an MTU size of 60 and an SRT version that the listener does
not take. -/
def outdatedConclusion : Packet :=
  conclusionPacket { Registry.sampleConclusion 7 with
    maxTransmissionUnitSize := 60
    srtHS := some
      { srtVersion := 0x10000
        srtFlags := CIFHandshakeExtensionFlags.own
        recvTSBPDDelay := 120
        sendTSBPDDelay := 120 } }

/-- The random generator gives the socket id 8, as often as it is asked. -/
def sizedArrival : Arrival where
  timestamp := 1000
  counter := 27343750
  draws := ⟨none, none, none⟩
  socketIds := List.replicate 10 (some 8)

/-- The sample listener with a connection request of the peer 17, which has the socket id 8. -/
def busyListener : Listener :=
  ((Registry.sampleListener.newConnRequest Sample.primitives
    ((conclusionPacket (Registry.sampleConclusion 17)).receivedFrom "127.0.0.1:50000")
    sizedArrival).toOption.map (·.1)).getD Registry.sampleListener

/-- Three CONCLUSIONs of a new peer. With an MTU size of 60 the message is rejected, and there is a
request for it. With the same size and a version that is too old the listener panics. With an MTU
size that fits, but ten draws of a socket id that is in use, there is no request, and the peer
stays reserved. -/
theorem not_atomic_sizedConclusion :
    ¬Registry.sampleListener.Atomic Sample.primitives
        ((sizedConclusion 60).receivedFrom "127.0.0.1:50000") sizedArrival ∧
      ¬Registry.sampleListener.Atomic Sample.primitives
        (outdatedConclusion.receivedFrom "127.0.0.1:50000") sizedArrival ∧
      ¬busyListener.Atomic Sample.primitives
        ((sizedConclusion 1500).receivedFrom "127.0.0.1:50000") sizedArrival := by
  refine ⟨?_, ?_, ?_⟩
  · rintro ⟨ln', req, sent, hok, hcase⟩
    have houtcome : (Registry.sampleListener.newConnRequest Sample.primitives
        ((sizedConclusion 60).receivedFrom "127.0.0.1:50000")
        sizedArrival).toOption.map (fun r => (r.2.1.isSome, r.2.2.length)) = some (true, 1) := by
      decide +kernel
    rw [hok] at houtcome
    cases hcase with
    | registered => cases houtcome
    | nothing => cases houtcome
  · rintro ⟨ln', req, sent, hok, -⟩
    have houtcome : (Registry.sampleListener.newConnRequest Sample.primitives
        (outdatedConclusion.receivedFrom "127.0.0.1:50000")
        sizedArrival).toOption.isNone = true := by
      decide +kernel
    rw [hok] at houtcome
    cases houtcome
  · rintro ⟨ln', req, sent, hok, hcase⟩
    have hpeers : busyListener.connsByPeer.keys = [17] := by
      decide +kernel
    have houtcome : (busyListener.newConnRequest Sample.primitives
        ((sizedConclusion 1500).receivedFrom "127.0.0.1:50000")
        sizedArrival).toOption.map (fun r => (r.2.1.isSome, r.1.connsByPeer.keys))
          = some (false, [7, 17]) := by
      decide +kernel
    rw [hok] at houtcome
    cases hcase with
    | registered => cases houtcome
    | nothing _ _ hconnsByPeer =>
      rw [Except.toOption, Option.map_some, hconnsByPeer, hpeers] at houtcome
      cases houtcome

end Listener

end Gosrt
