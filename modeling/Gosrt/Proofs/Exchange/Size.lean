import Gosrt.Proofs.Exchange.Parameters

/-!
# `Gosrt.Proofs.Exchange.Size`: when the payloads of both ends fit

Each end takes over a smaller MTU size from the message of the other one. The listener reads
the MSS of the caller in its CONCLUSION. But what it sends back is the message of the request,
so the caller reads its own MSS and never learns the one of the listener.

`Sizes` says that every CONCLUSION in the network states the MSS of the caller. It follows that
the listener's connection always fits, and that the caller's fits if its configured payload is
small enough for the listener (`payloadFits_iff`).
-/

set_option autoImplicit false

namespace Gosrt

open Lib

/-- `Marshal` and `Unmarshal` keep the MTU size. -/
theorem CIFHandshake.mtu_unmarshal_marshal {cif cif' : CIFHandshake} {data : Bytes}
    (hwf : cif.handshakeType = HandshakeType.conclusion → cif.WellFormed)
    (hdata : cif.marshal = .ok data) (hcif' : CIFHandshake.unmarshal {} data = .ok cif') :
    cif'.maxTransmissionUnitSize = cif.maxTransmissionUnitSize := by
  by_cases htype : cif.handshakeType = HandshakeType.conclusion
  · obtain ⟨data', hdata', hdecode⟩ := unmarshal_marshal (hwf htype) htype
    rw [hdata] at hdata'
    cases hdata'
    rw [hcif'] at hdecode
    cases hdecode
    rfl
  · obtain ⟨c, hprepare, hdecode⟩ := unmarshal_marshal_of_ne hdata htype
    rw [hcif'] at hdecode
    cases hdecode
    show c.maxTransmissionUnitSize = _
    exact mtu_prepare hprepare

namespace Exchange

open Dialer

/-- If the message is a CONCLUSION, it states this MTU size. -/
def States (mtu : UInt32) (payload : Bytes) : Prop :=
  ∀ cif, CIFHandshake.unmarshal {} payload = .ok cif →
    cif.handshakeType = HandshakeType.conclusion → cif.maxTransmissionUnitSize = mtu

/-- A request states the MSS of the caller, and the listener has taken it over. -/
structure SizedRequest (caller : Dialer) (listener : Config) (req : ConnRequest) : Prop where
  handshake : req.handshake.maxTransmissionUnitSize = caller.config.mss
  config : req.config.payloadSize = (listener.adjustMSS caller.config.mss).payloadSize

/-- What holds of the sizes, with the dialer as it started and the configuration of the
listener. -/
structure Sizes (caller : Dialer) (listener : Config) (s : Exchange) : Prop where
  mss : s.dialer.config.mss = caller.config.mss
  payloadSize : s.dialer.config.payloadSize = caller.config.payloadSize
  toListener : ∀ p ∈ s.toListener, p.header.controlType = CtrlType.handshake →
    States caller.config.mss p.payload
  toDialer : ∀ p ∈ s.toDialer, States caller.config.mss p.payload
  requests : ∀ r ∈ s.requests, SizedRequest caller listener r.2
  accepted : ∀ a ∈ s.accepted,
    a.2.config.payloadSize = (listener.adjustMSS caller.config.mss).payloadSize
  conns : ∀ conn ∈ s.conns, conn.config.payloadSize = caller.config.payloadSize

section
variable {prim : Primitives} {caller dl : Dialer} {listener : Config} {s s' : Exchange}
  {r : Bytes × ConnRequest} {req : ConnRequest} {ln : Listener} {sent : List Packet}
  {mtu : UInt32}

/-- Other messages do not matter. -/
theorem states_of_unmarshal {payload : Bytes} {cif : CIFHandshake}
    (hcif : CIFHandshake.unmarshal {} payload = .ok cif)
    (htype : cif.handshakeType ≠ HandshakeType.conclusion) : States mtu payload := by
  intro cif' hcif' htype'
  rw [hcif] at hcif'
  cases hcif'
  exact absurd htype' htype

theorem states_of_isRejection {q : Packet} (h : IsRejection q) : States mtu q.payload := by
  obtain ⟨cif, hcif, hreject⟩ := h.unmarshal
  refine states_of_unmarshal hcif fun htype => ?_
  rw [htype] at hreject
  exact absurd hreject (by decide)

/-- The INDUCTION of the caller is not a CONCLUSION. -/
theorem sizes_init (caller : Dialer) (ln : Listener) (callerAddr : String)
    (timestamp : UInt32) : Sizes caller ln.config (init caller ln callerAddr timestamp) where
  mss := rfl
  payloadSize := rfl
  toListener := by
    intro p hp _
    obtain ⟨cif, hcif, hinduction, -⟩ := unmarshal_sendInduction hp
    exact states_of_unmarshal hcif (by rw [hinduction]; decide)
  toDialer := List.forall_mem_nil _
  requests := List.forall_mem_nil _
  accepted := List.forall_mem_nil _
  conns := List.forall_mem_nil _

/-! ### The dialer -/

/-- The CONCLUSION of the dialer states its MSS. -/
theorem states_concludes {dl₀ : Dialer} {cif conclusion : CIFHandshake} {data : Bytes}
    (hcaller : IsCaller caller) (h₀ : Evolves caller dl₀) (hdl : Evolves caller dl)
    (hind : Induces cif)
    (hkm : dl.withKeyMaterial prim (dl.withExtensions (dl₀.conclusionCIF cif)) = .ok conclusion)
    (hdata : conclusion.marshal = .ok data) : States dl₀.config.mss data := by
  intro cif' hcif' _
  obtain ⟨-, hconcludes⟩ := callerConcludes_withKeyMaterial hcaller h₀ hdl hind hkm
  rw [CIFHandshake.mtu_unmarshal_marshal (fun _ => hconcludes.wellFormed) hdata hcif']
  -- The extensions and the key material leave the MTU size alone.
  rcases withKeyMaterial_cases hkm with ⟨-, rfl⟩ | ⟨_, _, -, -, rfl⟩
  · rfl
  · rfl

/-- The dialer only hears of its own MSS, and keeps it. -/
theorem Sizes.adjustMSS_dialer (h : Sizes caller listener s) {cif : CIFHandshake}
    (hmtu : cif.maxTransmissionUnitSize = caller.config.mss) :
    s.dialer.config.adjustMSS cif.maxTransmissionUnitSize = s.dialer.config := by
  rw [hmtu, ← h.mss]
  exact s.dialer.config.adjustMSS_mss

/-- What the dialer does with a message of the listener, for the sizes. -/
theorem Sizes.dialer_spec {cif : CIFHandshake} {draws : Draws} {now : UInt64} {conns : List SrtConn}
    (hcaller : IsCaller caller) (hdl : Evolves caller s.dialer) (h : Sizes caller listener s)
    (hmtu : cif.handshakeType = HandshakeType.conclusion →
      cif.maxTransmissionUnitSize = caller.config.mss)
    (hcase : DialerCase prim s.dialer cif draws now dl sent conns) :
    dl.config = s.dialer.config ∧
      (∀ q ∈ sent, q.header.controlType = CtrlType.handshake →
        States caller.config.mss q.payload) ∧
      ∀ conn ∈ conns, conn.config = s.dialer.config := by
  have hsetup : (s.dialer.setupCrypto cif.encryptionField draws).1.config = s.dialer.config := by
    rw [setupCrypto_eq]
  cases hcase with
  | concludes hind conclusion q _ hkm hdata =>
    refine ⟨hsetup, fun r hr _ => ?_, List.forall_mem_nil _⟩
    have hdl' : Evolves caller (s.dialer.setupCrypto cif.encryptionField draws).1 :=
      hdl.trans (evolves_setupCrypto cif draws _)
    rw [List.mem_singleton.mp hr, ← h.mss]
    exact states_concludes hcaller hdl hdl' hind hkm hdata
  | noKeyMaterial => exact ⟨hsetup, List.forall_mem_nil _, List.forall_mem_nil _⟩
  | refuses config sent hconfig hshutdown =>
    refine ⟨?_, fun q hq hhandshake => ?_, List.forall_mem_nil _⟩
    -- Only a CONCLUSION makes the dialer look at the MTU size.
    · rcases hconfig with rfl | ⟨htype, rfl⟩
      · rfl
      · exact h.adjustMSS_dialer (hmtu htype)
    · rw [hshutdown q hq] at hhandshake
      exact absurd hhandshake (by decide)
  | connects htype =>
    have hkeeps := h.adjustMSS_dialer (hmtu htype)
    exact ⟨hkeeps, List.forall_mem_nil _, List.forall_mem_singleton.mpr hkeeps⟩

/-! ### The listener -/

/-- What the listener does with a message of the caller, for the sizes. -/
theorem Sizes.listener_step (hinv : Inv caller listener s) (h : Sizes caller listener s)
    {p : Packet} {addr : Option String} {cif : CIFHandshake} {a : Arrival}
    {req : Option ConnRequest} (hp : p ∈ s.toListener)
    (hhandshake : p.header.controlType = CtrlType.handshake)
    (hcif : CIFHandshake.unmarshal {} p.payload = .ok cif)
    (hcase : Listener.MessageCase s.listener (arrives addr p) cif a ln req sent) :
    Sizes caller listener (s.afterListener p.payload ln req sent) := by
  have hspec : (∀ q ∈ sent, States caller.config.mss q.payload) ∧
      ∀ r, req = some r → SizedRequest caller listener r := by
    cases hcase with
    | answered htype synCookie q hdata =>
      refine ⟨List.forall_mem_singleton.mpr ?_, fun _ hr => nomatch hr⟩
      have hne : cif.handshakeType ≠ HandshakeType.conclusion := by
        rw [htype]
        decide
      obtain ⟨answer, hprepare, hdecode⟩ := CIFHandshake.unmarshal_marshal_of_ne hdata hne
      obtain ⟨_, _, _, rfl⟩ := CIFHandshake.prepare_fields hprepare
      exact states_of_unmarshal hdecode hne
    | dropped => exact ⟨List.forall_mem_nil _, fun _ hr => nomatch hr⟩
    | concluded htype _ _ _ hcase hsent =>
      refine ⟨fun q hq => states_of_isRejection (hsent q hq), fun r hr => ?_⟩
      cases hcase with
      | ignored => cases hr
      | exhausted => cases hr
      | created handshake crypto socketId _ _ hrequests =>
        cases hr
        have hmtu := h.toListener p hp hhandshake cif hcif htype
        -- The message of the request is the CONCLUSION, or was marshalled once as a rejection.
        constructor
        · rcases hrequests with rfl | hprepare
          · exact hmtu
          · exact (CIFHandshake.mtu_prepare hprepare).trans hmtu
        · show (s.listener.config.adjustMSS cif.maxTransmissionUnitSize).payloadSize = _
          rw [hmtu, hinv.config]
  exact
    { h with
      toDialer := fun q hq => (List.mem_append.mp hq).elim (h.toDialer q) (hspec.1 q)
      requests := by
        intro r hr
        rcases List.mem_append.mp hr with hr | hr
        · exact h.requests r hr
        · obtain ⟨r', hr', rfl⟩ := Option.map_eq_some_iff.mp (Option.mem_toList.mp hr)
          exact hspec.2 r' hr' }

/-! ### The application of the listener -/

theorem Sizes.afterRequest (h : Sizes caller listener s) (request : Nat)
    (hr : SizedRequest caller listener r.2) (ln : Listener)
    (hsent : ∀ q ∈ sent, States caller.config.mss q.payload) :
    Sizes caller listener (s.afterRequest request r ln sent) :=
  { h with
    toDialer := fun q hq => (List.mem_append.mp hq).elim (h.toDialer q) (hsent q)
    requests := forall_mem_set h.requests request hr }

theorem Sizes.reject_step (h : Sizes caller listener s) (request : Nat) {reason : RejectionReason}
    (hr : r ∈ s.requests) (hreason : HandshakeType.isRejection reason = true)
    (hcase : ConnRequest.RejectCase s.listener r.2 reason ln req sent) :
    Sizes caller listener (s.afterRequest request (r.1, req) ln sent) := by
  have hsized := h.requests r hr
  cases hcase with
  | resolved _ => exact h.afterRequest request hsized _ (List.forall_mem_nil _)
  | rejected _ handshake q hprepare hdata =>
    have hmtu := (CIFHandshake.mtu_prepare hprepare).trans hsized.handshake
    exact h.afterRequest request (r := (r.1, { r.2 with handshake := handshake }))
      ⟨hmtu, hsized.config⟩ _ (List.forall_mem_singleton.mpr (states_of_isRejection
        ⟨{ r.2.handshake with handshakeType := reason }, hreason, hdata⟩))

/-- The answer to an accepted request states what the request does. -/
theorem SizedRequest.states_accept {recv send : UInt16} {q : Packet}
    (h : SizedRequest caller listener req) (hreq : Requested caller listener req)
    (hdata : (req.acceptCIF recv send).marshal = .ok q.payload) :
    States caller.config.mss q.payload := by
  intro cif hcif _
  have hwf : (req.acceptCIF recv send).WellFormed := by
    obtain ⟨hs, hsome, -⟩ := hreq.concludes.srtHS
    have hhs : (req.acceptCIF recv send).srtHS.isSome = true := by
      unfold ConnRequest.acceptCIF
      rw [hsome, if_pos hreq.concludes.wellFormed.version]
      rfl
    exact { hreq.concludes.wellFormed with srtHS := fun _ => hhs }
  rw [CIFHandshake.mtu_unmarshal_marshal (fun _ => hwf) hdata hcif]
  exact h.handshake

/-- An accepted request gives a connection of the adjusted size. -/
theorem Sizes.accept_step (hinv : Inv caller listener s) (h : Sizes caller listener s)
    (request : Nat) {conn : Except String SrtConn} (hr : r ∈ s.requests)
    (hcase : ConnRequest.AcceptCase s.listener r.2 ln req conn sent) :
    Sizes caller listener
      { s.afterRequest request (r.1, req) ln sent with
        accepted := s.accepted ++ (conn.toOption.map (r.1, ·)).toList } := by
  have hnone : ∀ message : String,
      ((Except.error message : Except String SrtConn).toOption.map (r.1, ·)).toList = [] :=
    fun _ => rfl
  have hsized := h.requests r hr
  cases hcase with
  | noPassphrase _ _ _ hreject =>
    rw [hnone, List.append_nil]
    exact h.reject_step request hr rfl hreject
  | resolved _ =>
    rw [hnone, List.append_nil]
    exact h.afterRequest request hsized _ (List.forall_mem_nil _)
  | created hopen _ recv send _ handshake q hprepare hdata =>
    -- Nothing was accepted before, so the request still has the parameters of the caller. Its
    -- message goes back with the MTU size that the caller put into it.
    rw [hinv.peer r hr] at hopen
    have hreq := hinv.requests (hinv.accepted_eq_nil hopen) r hr
    have hmtu := (CIFHandshake.mtu_prepare hprepare).trans hsized.handshake
    have hafter := h.afterRequest request
      (r := (r.1, { r.2 with config := r.2.connConfig, handshake := handshake }))
      ⟨hmtu, hsized.config⟩ s.listener
      (List.forall_mem_singleton.mpr (hsized.states_accept hreq hdata))
    exact
      { hafter with
        accepted := by
          intro a ha
          rcases List.mem_append.mp ha with ha | ha
          · exact h.accepted a ha
          · rw [List.mem_singleton.mp ha]
            exact hsized.config }

/-! ### Runs -/

/-- The size invariant survives every step. -/
theorem Sizes.step (hcaller : IsCaller caller) (hinv : Inv caller listener s)
    (h : Sizes caller listener s) {e : Event} (hs : step prim s e = some s') :
    Sizes caller listener s' := by
  cases hinv.step_cases hs with
  | unread => exact h
  | dialer index draws now p cif dl outputs hp hcif _ _ hcase =>
    have hmtu := h.toDialer p (List.mem_of_getElem? hp) cif hcif
    obtain ⟨hconfig, hsent, hmade⟩ := h.dialer_spec hcaller hinv.dialer hmtu hcase
    exact
      { h with
        mss := (congrArg Config.mss hconfig).trans h.mss
        payloadSize := (congrArg Config.payloadSize hconfig).trans h.payloadSize
        toListener := fun q hq => (List.mem_append.mp hq).elim (h.toListener q) (hsent q)
        conns := by
          rw [conns_afterDialer]
          refine List.forall_mem_append.mpr ⟨h.conns, fun conn hconn => ?_⟩
          rw [hmade conn hconn]
          exact h.payloadSize }
  | listener _ _ _ _ _ _ _ _ hp hhandshake hcif _ hcase =>
    exact h.listener_step hinv hp hhandshake hcif hcase
  | setPassphrase request passphrase r hr =>
    obtain ⟨hhandshake, hconfig, -⟩ := r.2.setPassphrase_fields prim passphrase
    have hsized := h.requests r hr
    have hafter := h.afterRequest request
      (r := (r.1, (r.2.setPassphrase prim passphrase).1))
      ⟨hhandshake ▸ hsized.handshake, hconfig ▸ hsized.config⟩ s.listener (List.forall_mem_nil _)
    exact { h with requests := hafter.requests }
  | accept request _ r hr _ _ _ _ hcase => exact h.accept_step hinv request hr hcase
  | reject request _ _ r hr hreason _ _ _ hcase => exact h.reject_step request hr hreason hcase

/-- The payloads of both ends fit exactly when the payload that the caller is configured for
fits the listener. Nothing else bounds the caller's payload: it never hears of the listener's
MSS. -/
theorem payloadFits_iff (prim : Primitives) {c config l : Config}
    (hvalid : c.validate = .ok config) (localAddr remoteAddr : Option String) (localIP : IP)
    (socketId seqNum : UInt32) (ln : Listener) (hlistener : l.validate = .ok ln.config)
    (callerAddr : String) (timestamp : UInt32) (events : List Event)
    (hrun : run (Exchange.step prim)
      (init (Dialer.new config localAddr remoteAddr localIP socketId seqNum) ln callerAddr
        timestamp) events = some s) :
    ∀ conn ∈ s.conns, ∀ a ∈ s.accepted,
      (PayloadFits config ln.config conn ∧ PayloadFits config ln.config a.2 ↔
        config.payloadSize.toNat + srtHeaderSize.toNat + udpHeaderSize.toNat ≤
          ln.config.mss.toNat) := by
  have hcaller := isCaller_new hvalid localAddr remoteAddr localIP socketId seqNum
  have hsizes := (run_keeps hcaller (sizes_init _ ln callerAddr timestamp)
    (fun hinv h _ hs => h.step hcaller hinv hs) (runMeets_true _ _ events) hrun).2
  -- Both configurations are validated, so that each payload fits the MSS of its own side.
  obtain ⟨hmin, hown⟩ := Config.payloadSize_of_validate hvalid
  intro conn hconn a ha
  have hcallerSize : conn.config.payloadSize = config.payloadSize := hsizes.conns conn hconn
  have hlistenerSize : a.2.config.payloadSize = (ln.config.adjustMSS config.mss).payloadSize :=
    hsizes.accepted a ha
  have hfits : PayloadFits config ln.config a.2 := by
    unfold PayloadFits
    rw [hlistenerSize]
    exact Config.payloadSize_adjustMSS hlistener hmin
  unfold PayloadFits at hfits ⊢
  rw [hcallerSize]
  exact ⟨fun h => h.1.trans (Nat.min_le_right _ _), fun h => ⟨Nat.le_min.mpr ⟨hown, h⟩, hfits⟩⟩

end

/-- The caller of the sample, with the largest MSS. -/
def sizedCaller (payloadSize : UInt32) : Config := { sampleCaller with payloadSize := payloadSize }

/-- The listener of the sample, with a smaller MSS. -/
def smallListening : Config := { sampleListening with mss := 1000, payloadSize := 956 }

def smallListener : Listener := { sampleListener with config := smallListening }

def sizedInit (payloadSize : UInt32) : Exchange :=
  init
    (Dialer.new (sizedCaller payloadSize) (some "127.0.0.1:50000") (some "127.0.0.1:6000")
      (IP.ipv4 127 0 0 1) 7 1)
    smallListener "127.0.0.1:50000" 0

def sizedEnd (payloadSize : UInt32) : Exchange :=
  runD (step Sample.primitives) (sizedInit payloadSize) (sampleEvents [Sample.evenSEK])

/-- A caller with 956 bytes of payload fits the MSS of 1000. -/
theorem payloadFits_sizedEnd :
    (sizedCaller 956).validate = .ok (sizedCaller 956) ∧
      smallListening.validate = .ok smallListening ∧
      (sizedEnd 956).conns.length = 1 ∧ (sizedEnd 956).accepted.length = 1 ∧
      ∀ conn ∈ (sizedEnd 956).conns, ∀ a ∈ (sizedEnd 956).accepted,
        PayloadFits (sizedCaller 956) smallListening conn ∧
          PayloadFits (sizedCaller 956) smallListening a.2 :=
  ⟨by decide +kernel, by decide +kernel, by decide +kernel, by decide +kernel,
    fun conn hconn a ha =>
      (payloadFits_iff Sample.primitives (c := sizedCaller 956) (by decide +kernel)
        (some "127.0.0.1:50000") (some "127.0.0.1:6000") (IP.ipv4 127 0 0 1) 7 1 smallListener
        (l := smallListening) (by decide +kernel) "127.0.0.1:50000" 0
        (sampleEvents [Sample.evenSEK]) (run_eq_some_runD (by decide +kernel)) conn hconn a
        ha).mpr (by decide +kernel)⟩

/-- The caller keeps its payload of 1456 bytes, and the MSS of the listener is 1000. -/
theorem not_payloadFits_sizedEnd :
    (sizedCaller 1456).validate = .ok (sizedCaller 1456) ∧
      smallListening.validate = .ok smallListening ∧
      run (step Sample.primitives) (sizedInit 1456) (sampleEvents [Sample.evenSEK])
        = some (sizedEnd 1456) ∧
      (sizedEnd 1456).accepted.length = 1 ∧
      (sizedEnd 1456).conns.map (fun conn => conn.config.payloadSize) = [1456] ∧
      ∀ conn ∈ (sizedEnd 1456).conns, ¬PayloadFits (sizedCaller 1456) smallListening conn :=
  ⟨by decide +kernel, by decide +kernel, run_eq_some_runD (by decide +kernel),
    by decide +kernel⟩

end Exchange

end Gosrt
