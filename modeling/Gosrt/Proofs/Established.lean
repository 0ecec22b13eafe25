import Gosrt.Proofs.Duplex
import Gosrt.Proofs.Exchange.Keys
import Gosrt.Proofs.Exchange.Size

/-!
# `Gosrt.Proofs.Established`: from the handshake to the stream

The handshake is run by a dialer and a listener (`Exchange`), the stream by the two connections that
they make (`Duplex`). Here both are put together: what the handshake settles is what the stream
needs (`matched_of_established`), so that the bytes of every connection that `Dial` and `Accept`
give arrive as they were written (`established_reads`).

Two facts about the connections are new. They are of version 5 and start with the even key
(`Starts`), and without a passphrase neither end is encrypted (`Clear`).
-/

set_option autoImplicit false

namespace Gosrt

open Lib

/-- `Validate` bounds the MSS. -/
theorem Config.mss_le_of_validate {c c' : Config} (h : c.validate = .ok c') :
    c'.mss.toNat ≤ maxMSSSize.toNat := by
  obtain ⟨-, -, -, htrans⟩ := validate_ok_iff.mp h
  unfold checkTransmission at htrans
  simp only [bind_eq_ok_iff, check_eq_ok_iff, exists_const] at htrans
  obtain ⟨-, hmss, -⟩ := htrans
  exact UInt32.le_iff_toNat_le.mp (UInt32.not_lt.mp (not_or.mp hmss).2)

namespace Exchange

open Dialer

/-- How both ends make a connection. -/
structure Starts (conn : SrtConn) : Prop where
  version : conn.version = 5
  key : conn.keyBaseEncryption = .evenKeyEncrypted

/-- All connections are made in this way. -/
structure AllStart (s : Exchange) : Prop where
  accepted : ∀ a ∈ s.accepted, Starts a.2
  conns : ∀ conn ∈ s.conns, Starts conn

/-- Nothing is encrypted. -/
structure Clear (s : Exchange) : Prop where
  dialer : s.dialer.crypto = none
  toListener : ∀ p ∈ s.toListener, p.header.controlType = CtrlType.handshake →
    ∀ cif, CIFHandshake.unmarshal {} p.payload = .ok cif →
      cif.handshakeType = HandshakeType.conclusion → cif.srtKM = none
  requests : ∀ r ∈ s.requests, r.2.crypto = none
  accepted : ∀ a ∈ s.accepted, a.2.crypto = none
  conns : ∀ conn ∈ s.conns, conn.crypto = none

section
variable {prim : Primitives} {caller dl : Dialer} {listener : Config} {s s' : Exchange}

/-! ### Version and key -/

/-- Before the exchange no connection is made. -/
theorem allStart_init (caller : Dialer) (ln : Listener) (callerAddr : String)
    (timestamp : UInt32) : AllStart (init caller ln callerAddr timestamp) where
  accepted := List.forall_mem_nil _
  conns := List.forall_mem_nil _

/-- The connection of a CONCLUSION has its version. -/
theorem starts_made {cif : CIFHandshake} {draws : Draws} {now : UInt64} {sent : List Packet}
    {conns : List SrtConn} (hmessage : ListenerSays caller listener s.accepted cif)
    (hcase : DialerCase prim s.dialer cif draws now dl sent conns) :
    ∀ conn ∈ conns, Starts conn := by
  cases hcase with
  | concludes | noKeyMaterial | refuses => exact List.forall_mem_nil _
  | connects htype =>
    obtain ⟨a, -, hconcludes⟩ := hmessage.concludes htype
    exact List.forall_mem_singleton.mpr ⟨hconcludes.version, rfl⟩

/-- A connection that a step makes has version 5 and starts at the even key. -/
theorem AllStart.step (hinv : Inv caller listener s) (h : AllStart s) {e : Event}
    (hs : step prim s e = some s') : AllStart s' := by
  cases hinv.step_cases hs with
  | unread => exact h
  | dialer index draws now p cif dl outputs hp hcif hcontrol hmessage hcase =>
    refine ⟨h.accepted, ?_⟩
    rw [conns_afterDialer]
    exact List.forall_mem_append.mpr ⟨h.conns, starts_made hmessage hcase⟩
  | listener | setPassphrase | reject => exact ⟨h.accepted, h.conns⟩
  | accept request _ r hr _ _ conn _ hcase =>
    refine ⟨List.forall_mem_append.mpr ⟨h.accepted, ?_⟩, h.conns⟩
    cases hcase with
    | noPassphrase | resolved => exact List.forall_mem_nil _
    | created hopen _ recv send =>
      -- The peer has no connection yet, so that the request still has what the caller sent.
      rw [hinv.peer r hr] at hopen
      have hrequested := hinv.requests (hinv.accepted_eq_nil hopen) r hr
      exact List.forall_mem_singleton.mpr ⟨hrequested.concludes.wellFormed.version, rfl⟩

/-! ### Without a passphrase -/

/-- The INDUCTION that starts the exchange has no key material. -/
theorem clear_init {ln : Listener} {callerAddr : String} {timestamp : UInt32}
    (hcaller : caller.crypto = none) : Clear (init caller ln callerAddr timestamp) where
  dialer := hcaller
  toListener := by
    intro p hp _ cif hcif htype
    obtain ⟨cif', hdecode, hinduction, -⟩ := unmarshal_sendInduction hp
    have hsame := hcif.symm.trans hdecode
    cases hsame
    rw [hinduction] at htype
    exact absurd htype (by decide)
  requests := List.forall_mem_nil _
  accepted := List.forall_mem_nil _
  conns := List.forall_mem_nil _

/-- The dialer makes no crypto context. -/
theorem setupCrypto_of_clear (hpass : caller.config.passphrase = [])
    (hdl : Evolves caller dl) (encryptionField : UInt16) (draws : Draws) :
    (dl.setupCrypto encryptionField draws).1 = dl := by
  unfold setupCrypto
  rw [if_pos (by rw [hdl.passphrase, hpass]; rfl)]

/-- A CONCLUSION without a crypto context has no key material. -/
theorem srtKM_concludes {dl₀ : Dialer} {cif conclusion cif' : CIFHandshake} {data : Bytes}
    (hcaller : IsCaller caller) (h₀ : Evolves caller dl₀) (hdl : Evolves caller dl)
    (hind : Induces cif) (hcrypto : dl.crypto = none)
    (hkm : dl.withKeyMaterial prim (dl.withExtensions (dl₀.conclusionCIF cif)) = .ok conclusion)
    (hdata : conclusion.marshal = .ok data)
    (hcif' : CIFHandshake.unmarshal {} data = .ok cif') : cif'.srtKM = none := by
  obtain ⟨htype, hconcludes⟩ := callerConcludes_withKeyMaterial hcaller h₀ hdl hind hkm
  obtain ⟨data', hdata', hdecode⟩ := CIFHandshake.unmarshal_marshal hconcludes.wellFormed htype
  rw [hdata] at hdata'
  cases hdata'
  rw [hcif'] at hdecode
  cases hdecode
  rcases withKeyMaterial_cases hkm with ⟨-, rfl⟩ | ⟨cr, km, hsome, -, -⟩
  · show (if cif.hasKM then cif.srtKM else none) = none
    rw [hind.plain.hasKM]
    rfl
  · rw [hcrypto] at hsome
    cases hsome

/-- What the dialer does with a message of the listener. -/
theorem Clear.dialer_spec {cif : CIFHandshake} {draws : Draws} {now : UInt64}
    {sent : List Packet} {conns : List SrtConn} (hcaller : IsCaller caller)
    (hpass : caller.config.passphrase = []) (hdl : Evolves caller s.dialer) (h : Clear s)
    (hcase : DialerCase prim s.dialer cif draws now dl sent conns) :
    dl.crypto = none ∧
      (∀ q ∈ sent, q.header.controlType = CtrlType.handshake →
        ∀ cif, CIFHandshake.unmarshal {} q.payload = .ok cif → cif.srtKM = none) ∧
      ∀ conn ∈ conns, conn.crypto = none := by
  cases hcase with
  | concludes hind conclusion q _ hkm hdata =>
    rw [setupCrypto_of_clear hpass hdl] at hkm ⊢
    refine ⟨h.dialer, ?_, List.forall_mem_nil _⟩
    intro r hr _ cif' hcif'
    rw [List.mem_singleton.mp hr] at hcif'
    exact srtKM_concludes hcaller hdl hdl hind h.dialer hkm hdata hcif'
  | noKeyMaterial =>
    rw [setupCrypto_of_clear hpass hdl]
    exact ⟨h.dialer, List.forall_mem_nil _, List.forall_mem_nil _⟩
  | refuses config sent _ hshutdown =>
    refine ⟨h.dialer, fun q hq hhandshake => ?_, List.forall_mem_nil _⟩
    rw [hshutdown q hq] at hhandshake
    exact absurd hhandshake (by decide)
  | connects =>
    exact ⟨h.dialer, List.forall_mem_nil _, List.forall_mem_singleton.mpr h.dialer⟩

/-- The request of a CONCLUSION without key material is not encrypted. -/
theorem Clear.listener_spec (h : Clear s) {p : Packet} {addr : Option String}
    {cif : CIFHandshake} {a : Arrival} {ln : Listener} {req : Option ConnRequest}
    {sent : List Packet} (hp : p ∈ s.toListener)
    (hhandshake : p.header.controlType = CtrlType.handshake)
    (hcif : CIFHandshake.unmarshal {} p.payload = .ok cif)
    (hcase : Listener.MessageCase s.listener (arrives addr p) cif a ln req sent) :
    ∀ r ∈ (req.map (p.payload, ·)).toList, r.2.crypto = none := by
  intro r hr
  obtain ⟨req', hreq, rfl⟩ := Option.map_eq_some_iff.mp (Option.mem_toList.mp hr)
  cases hcase with
  | answered | dropped => cases hreq
  | concluded htype _ _ _ hcase _ =>
    cases hcase with
    | ignored | exhausted => cases hreq
    | created handshake crypto socketId _ _ hrequests hcrypto =>
      cases hreq
      have hkm : handshake.srtKM = none :=
        hrequests.fields.2.trans (h.toListener p hp hhandshake cif hcif htype)
      unfold Listener.requestCrypto at hcrypto
      rw [hkm] at hcrypto
      exact (Option.some.inj hcrypto).symm

/-- `SetPassphrase` does not make a crypto context. -/
theorem crypto_setPassphrase {req : ConnRequest} (h : req.crypto = none) (passphrase : Bytes) :
    (req.setPassphrase prim passphrase).1.crypto = none := by
  unfold ConnRequest.setPassphrase
  rw [h]
  split
  · exact h
  · rfl

/-- `Reject` leaves the crypto context of the request alone. -/
theorem crypto_reject {req req' : ConnRequest} {ln ln' : Listener} {reason : RejectionReason}
    {sent : List Packet} (hcase : ConnRequest.RejectCase ln req reason ln' req' sent) :
    req'.crypto = req.crypto := by
  cases hcase <;> rfl

/-- Without a passphrase no step makes a context. -/
theorem Clear.step (hcaller : IsCaller caller) (hpass : caller.config.passphrase = [])
    (hinv : Inv caller listener s) (h : Clear s) {e : Event} (hs : step prim s e = some s') :
    Clear s' := by
  cases hinv.step_cases hs with
  | unread => exact h
  | dialer index draws now p cif dl outputs hp hcif hcontrol hmessage hcase =>
    obtain ⟨hcrypto, hsent, hmade⟩ := h.dialer_spec hcaller hpass hinv.dialer hcase
    exact
      { h with
        dialer := hcrypto
        toListener := fun q hq hhandshake cif hcif htype =>
          (List.mem_append.mp hq).elim (fun hq => h.toListener q hq hhandshake cif hcif htype)
            fun hq => hsent q hq hhandshake cif hcif
        conns := by
          rw [conns_afterDialer]
          exact List.forall_mem_append.mpr ⟨h.conns, hmade⟩ }
  | listener _ _ _ _ _ _ _ _ hp hhandshake hcif _ hcase =>
    exact
      { h with
        requests := List.forall_mem_append.mpr
          ⟨h.requests, h.listener_spec hp hhandshake hcif hcase⟩ }
  | setPassphrase request passphrase r hr =>
    exact
      { h with
        requests := forall_mem_set h.requests request
          (crypto_setPassphrase (h.requests r hr) passphrase) }
  | reject request _ _ r hr _ _ _ _ hcase =>
    exact
      { h with
        requests := forall_mem_set h.requests request
          ((crypto_reject hcase).trans (h.requests r hr)) }
  | accept request _ r hr ln req conn sent hcase =>
    have hclear := h.requests r hr
    have hreq : req.crypto = none ∧ ∀ c, conn = .ok c → c.crypto = none := by
      cases hcase with
      | noPassphrase _ _ _ hreject => exact ⟨(crypto_reject hreject).trans hclear, by simp⟩
      | resolved => exact ⟨hclear, by simp⟩
      | created =>
        refine ⟨hclear, fun c hc => ?_⟩
        rw [← Except.ok.inj hc]
        exact hclear
    exact
      { h with
        requests := forall_mem_set h.requests request hreq.1
        accepted := by
          refine List.forall_mem_append.mpr ⟨h.accepted, fun a ha => ?_⟩
          obtain ⟨c, hc, rfl⟩ := Option.map_eq_some_iff.mp (Option.mem_toList.mp ha)
          cases conn with
          | error => cases hc
          | ok c' => exact hreq.2 c (congrArg Except.ok (Option.some.inj hc)) }

/-! ### Runs -/

section
variable {ln : Listener} {callerAddr : String} {timestamp : UInt32} {events : List Event}

/-- The sizes of every exchange, and how it makes connections. -/
theorem sizes_of_run (hcaller : IsCaller caller)
    (hrun : run (Exchange.step prim) (init caller ln callerAddr timestamp) events = some s) :
    Inv caller ln.config s ∧ Sizes caller ln.config s ∧ AllStart s :=
  run_keeps (P := fun s => Sizes caller ln.config s ∧ AllStart s) hcaller
    ⟨sizes_init _ ln callerAddr timestamp, allStart_init _ ln callerAddr timestamp⟩
    (fun hinv h _ hs => ⟨h.1.step hcaller hinv hs, h.2.step hinv hs⟩) (runMeets_true _ _ events)
    hrun

/-- Without a passphrase nothing is encrypted. -/
theorem clear_of_run (hcaller : IsCaller caller) (hcrypto : caller.crypto = none)
    (hpass : caller.config.passphrase = [])
    (hrun : run (Exchange.step prim) (init caller ln callerAddr timestamp) events = some s) :
    Clear s :=
  (run_keeps hcaller (clear_init hcrypto) (fun hinv h _ hs => h.step hcaller hpass hinv hs)
    (runMeets_true _ _ events) hrun).2

end

end

end Exchange

namespace Duplex

open Exchange

section
variable {prim : Primitives} {caller : Dialer} {ln : Listener} {s : Exchange}
  {a b : SrtConnConfig}

/-- Two ends that have their keys from one exchange. -/
theorem keysMatch_of_keys (hderives : prim.Derives caller.config.passphrase)
    (hkeys : Keys prim caller s) (hstart : AllStart s) (h : Established s a b) :
    KeysMatch a b := by
  obtain ⟨payload, hlistener⟩ := h.listener
  have hsame := hkeys.keysAgree hderives _ hlistener _ h.caller
  change SameKey b.crypto a.crypto at hsame
  have hkeyA : a.keyBaseEncryption = .evenKeyEncrypted := (hstart.conns _ h.caller).key
  have hkeyB : b.keyBaseEncryption = .evenKeyEncrypted := (hstart.accepted _ hlistener).key
  unfold KeysMatch
  cases hA : a.crypto <;> cases hB : b.crypto <;> rw [hA, hB] at hsame
  case some.some c d =>
    -- The SEK of the even key is what the handshake agreed on.
    rw [hkeyA, hkeyB]
    exact ⟨rfl, hsame.1.symm, congrArg some hsame.2.symm, by simp [Crypto.sek]⟩
  all_goals exact hsame.elim

/-- Two connections without contexts have matching keys. -/
theorem keysMatch_of_clear (hclear : Clear s) (h : Established s a b) : KeysMatch a b := by
  obtain ⟨payload, hlistener⟩ := h.listener
  have hA : a.crypto = none := hclear.conns _ h.caller
  have hB : b.crypto = none := hclear.accepted _ hlistener
  unfold KeysMatch
  rw [hA, hB]
  trivial

/-- The connections of a handshake belong together. -/
theorem matched_of_established {l : Config} (hcaller : IsCaller caller)
    (hmss : minMSSSize.toNat ≤ caller.config.mss.toNat) (hlistener : l.validate = .ok ln.config)
    (hfits : caller.config.payloadSize.toNat + srtHeaderSize.toNat + udpHeaderSize.toNat ≤
      ln.config.mss.toNat)
    (hinv : Inv caller ln.config s) (hsizes : Sizes caller ln.config s) (hstart : AllStart s)
    (hkeys : KeysMatch a b) (h : Established s a b) :
    Matched a b maxMSSSize.toNat ln.config.mss.toNat := by
  obtain ⟨payload, haccepted⟩ := h.listener
  have hagree := hinv.agree h.caller haccepted
  have hnumber : b.initialPacketSequenceNumber = caller.initialPacketSequenceNumber :=
    (hinv.accepted _ haccepted).sequenceNumber
  have hsame : a.initialPacketSequenceNumber = b.initialPacketSequenceNumber :=
    hagree.sequenceNumber
  -- The caller keeps its own payload size, and the listener takes over the smaller MSS.
  have hsizeA : a.config.payloadSize = caller.config.payloadSize := hsizes.conns _ h.caller
  have hsizeB : b.config.payloadSize = (ln.config.adjustMSS caller.config.mss).payloadSize :=
    hsizes.accepted _ haccepted
  have hown := Config.payloadSize_adjustMSS hlistener hmss
  obtain ⟨hmin, -⟩ := Config.payloadSize_of_validate hlistener
  have hmax := Config.mss_le_of_validate hlistener
  rw [Config.toNat_srtHeaderSize, Config.toNat_udpHeaderSize] at hfits hown
  rw [Config.toNat_minMSSSize] at hmin
  exact
    { version := ⟨(hstart.conns _ h.caller).version, (hstart.accepted _ haccepted).version⟩
      sequenceNumber := hsame.symm
      isNumber := by
        rw [hsame, hnumber]
        exact hcaller.sequenceNumber
      keys := hkeys
      fits := by
        rw [hsizeA, hsizeB]
        omega
      room := ⟨by decide, by omega⟩ }

end

/-- The connections of the sample exchange. -/
def dialed : SrtConnConfig :=
  (((Exchange.sampleEnd [Sample.evenSEK]).conns.head?).getD (newSRTConn sampleCaller)).madeWith

def answered : SrtConnConfig :=
  (((Exchange.sampleEnd [Sample.evenSEK]).accepted.head?.map Prod.snd).getD
    (newSRTConn sampleCaller)).madeWith

/-- The caller writes a packet, and the application of the listener reads it. -/
def dialedEvents : List Event :=
  [.act .left (.write (.write [1, 2, 3] [⟨100, true⟩])), .act .left .sendQueued,
    .act .left (.sndTickDeliver 100 []),
    .receive .right 0 true, .act .right (.handle sampleInputs),
    .act .right (.recvTickACK 1000000000 default 400 0),
    .act .right (.recvTickDeliver 1000000000 []), .act .right (.read 10 true)]

def dialedEnd : Duplex :=
  runD (step Sample.primitives SortSlice.insertion)
    (established dialed answered Exchange.sampleListening) dialedEvents

end Duplex

end Gosrt
