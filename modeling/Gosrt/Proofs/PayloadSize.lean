import Gosrt.Proofs.Admission
import Gosrt.Proofs.Config
import Gosrt.Proofs.Dial
import Gosrt.Proofs.Registry
import Gosrt.Spec.PayloadSize

/-!
# `Gosrt.Proofs.PayloadSize`: which MTU sizes of a peer give a connection of the right size

A validated configuration has sizes in order (`sized_of_validate`). The adjustment to the MTU size
of the peer keeps them in order exactly for the sizes that fit (`sized_adjustMSS_iff`). There are
two regions that do not:

- below `MIN_PAYLOAD_SIZE` and the headers. The listener sends a rejection and goes on. Below the
  headers the subtraction wraps, and the check against `MIN_PAYLOAD_SIZE` passes at both ends.
- between the configured payload with its headers and the configured MSS. The payload size is then
  more than what was configured.

The rest is that a connection has the configuration of its end, adjusted to the smallest MTU size
that this end has heard of.
-/

set_option autoImplicit false

namespace Gosrt

open Lib

namespace Config

theorem toNat_minPayloadSize : minPayloadSize.toNat = 32 := rfl

theorem toNat_maxPayloadSize : maxPayloadSize.toNat = 1456 := rfl

theorem toNat_maxMSSSize : maxMSSSize.toNat = 1500 := rfl

section
variable {c config : Config}

/-- The sizes of a validated configuration are in order. -/
theorem sized_of_validate (h : c.validate = .ok config) : config.Sized config := by
  obtain ⟨-, hroom⟩ := payloadSize_of_validate h
  obtain ⟨-, -, -, htrans⟩ := validate_ok_iff.mp h
  unfold checkTransmission at htrans
  simp only [bind_eq_ok_iff, check_eq_ok_iff, exists_const] at htrans
  obtain ⟨-, hmss, -, -, -, -, hpayload, -⟩ := htrans
  have hmax := UInt32.le_iff_toNat_le.mp (UInt32.not_lt.mp (not_or.mp hmss).2)
  refine ⟨UInt32.not_lt.mp (not_or.mp hpayload).1, hroom, ?_, UInt32.le_refl _⟩
  rw [toNat_maxMSSSize] at hmax
  rw [toNat_maxPayloadSize, toNat_srtHeaderSize, toNat_udpHeaderSize]
  omega

/-- What is left of an MTU size with room for the headers. -/
theorem toNat_sub_headers (mtu : UInt32) (h : 44 ≤ mtu.toNat) :
    (mtu - srtHeaderSize - udpHeaderSize).toNat = mtu.toNat - 44 := by
  have hsrt := UInt32.toNat_sub_of_le mtu srtHeaderSize
    (UInt32.le_iff_toNat_le.mpr (by rw [toNat_srtHeaderSize]; omega))
  rw [toNat_srtHeaderSize] at hsrt
  rw [UInt32.toNat_sub_of_le _ _
    (UInt32.le_iff_toNat_le.mpr (by rw [toNat_udpHeaderSize]; omega)), hsrt, toNat_udpHeaderSize]
  omega

/-- The MTU size of the peer keeps the sizes in order exactly when it fits. -/
theorem sized_adjustMSS_iff (h : c.validate = .ok config) (mtu : UInt32) :
    config.Sized (config.adjustMSS mtu) ↔ config.Fits mtu := by
  have hsized := sized_of_validate h
  unfold adjustMSS
  by_cases hlt : mtu < config.mss
  swap
  · rw [if_neg hlt]
    exact iff_of_true hsized (Or.inl (UInt32.not_lt.mp hlt))
  rw [if_pos hlt]
  have hmss := UInt32.lt_iff_toNat_lt.mp hlt
  have hlargest := hsized.largest
  constructor
  · rintro ⟨hsmallest, hroom, -, hconfigured⟩
    rw [UInt32.le_iff_toNat_le, toNat_minPayloadSize] at hsmallest
    rw [toNat_srtHeaderSize, toNat_udpHeaderSize] at hroom
    dsimp only at hsmallest hroom hconfigured
    -- There is room for the headers, so the subtraction did not wrap.
    have hleft := toNat_sub_headers mtu (by omega)
    rw [UInt32.le_iff_toNat_le, hleft] at hconfigured
    rw [hleft] at hsmallest
    refine Or.inr ⟨?_, ?_⟩
    · rw [UInt32.le_iff_toNat_le, toNat_minMSSSize]
      omega
    · rw [toNat_srtHeaderSize, toNat_udpHeaderSize]
      omega
  · rintro (hge | ⟨hmin, hmax⟩)
    · exact absurd hlt (UInt32.not_lt.mpr hge)
    · rw [UInt32.le_iff_toNat_le, toNat_minMSSSize] at hmin
      rw [toNat_srtHeaderSize, toNat_udpHeaderSize] at hmax
      have hleft := toNat_sub_headers mtu (by omega)
      refine ⟨?_, ?_, ?_, ?_⟩
      · rw [UInt32.le_iff_toNat_le, toNat_minPayloadSize, hleft]
        omega
      · rw [hleft, toNat_srtHeaderSize, toNat_udpHeaderSize]
        dsimp only
        omega
      · dsimp only
        omega
      · rw [UInt32.le_iff_toNat_le, hleft]
        omega

/-- The sizes are all that matters. -/
theorem sized_congr {c₁ c₂ : Config} (hmss : c₁.mss = c₂.mss)
    (hpayload : c₁.payloadSize = c₂.payloadSize) : config.Sized c₁ ↔ config.Sized c₂ := by
  constructor
  · rintro ⟨hsmallest, hroom, hlargest, hconfigured⟩
    rw [hpayload] at hsmallest hroom hconfigured
    rw [hmss] at hroom hlargest
    exact ⟨hsmallest, hroom, hlargest, hconfigured⟩
  · rintro ⟨hsmallest, hroom, hlargest, hconfigured⟩
    rw [← hpayload] at hsmallest hroom hconfigured
    rw [← hmss] at hroom hlargest
    exact ⟨hsmallest, hroom, hlargest, hconfigured⟩

end

/-- The smaller of the two sizes is used. -/
theorem mss_adjustMSS (c : Config) (mtu : UInt32) : (c.adjustMSS mtu).mss = min c.mss mtu := by
  unfold adjustMSS
  by_cases hlt : mtu < c.mss
  · rw [if_pos hlt]
    exact (if_neg (UInt32.not_le.mpr hlt)).symm
  · rw [if_neg hlt]
    exact (if_pos (UInt32.not_lt.mp hlt)).symm

/-- An MTU size that is not smaller than the MSS changes nothing. -/
theorem adjustMSS_of_le {c : Config} {mtu : UInt32} (h : c.mss ≤ mtu) : c.adjustMSS mtu = c :=
  if_neg (UInt32.not_lt.mpr h)

/-- Of two MTU sizes the smaller one counts. -/
theorem adjustMSS_adjustMSS (c : Config) (mtu mtu' : UInt32) :
    (c.adjustMSS mtu).adjustMSS mtu' = c.adjustMSS (min mtu mtu') := by
  by_cases hle : mtu ≤ mtu'
  · rw [show min mtu mtu' = mtu from if_pos hle]
    refine adjustMSS_of_le ?_
    rw [mss_adjustMSS]
    by_cases hmss : c.mss ≤ mtu
    · rw [show min c.mss mtu = c.mss from if_pos hmss]
      exact UInt32.le_trans hmss hle
    · rw [show min c.mss mtu = mtu from if_neg hmss]
      exact hle
  · rw [show min mtu mtu' = mtu' from if_neg hle]
    by_cases hmss : c.mss ≤ mtu
    · rw [adjustMSS_of_le hmss]
    · -- Both are taken over, and nothing of the first one is left.
      have hlt := UInt32.not_le.mp hle
      have hlt' := UInt32.lt_trans hlt (UInt32.not_le.mp hmss)
      unfold adjustMSS
      rw [if_pos (UInt32.not_le.mp hmss), if_pos hlt']
      exact if_pos hlt

end Config

/-! ### The requests of a listener -/

/-- The request has the sizes of the listener, adjusted to the MTU size in its message. -/
structure ConnRequest.Adjusted (config : Config) (req : ConnRequest) : Prop where
  mss : req.config.mss = (config.adjustMSS req.handshake.maxTransmissionUnitSize).mss
  payloadSize :
    req.config.payloadSize = (config.adjustMSS req.handshake.maxTransmissionUnitSize).payloadSize

section
variable {prim : Primitives} {config : Config} {ln ln' : Listener} {req req' : ConnRequest}
  {sent : List Packet}

/-- A request keeps its sizes when its message keeps the MTU size. -/
theorem ConnRequest.Adjusted.of_eq (h : req.Adjusted config)
    (hmtu : req'.handshake.maxTransmissionUnitSize = req.handshake.maxTransmissionUnitSize)
    (hmss : req'.config.mss = req.config.mss)
    (hpayload : req'.config.payloadSize = req.config.payloadSize) : req'.Adjusted config where
  mss := by rw [hmss, hmtu, h.mss]
  payloadSize := by rw [hpayload, hmtu, h.payloadSize]

/-- A request is registered with the adjusted configuration. -/
theorem Listener.newConnRequest_adjusted {p : Packet} {a : Arrival} {req : Option ConnRequest}
    (h : ln.newConnRequest prim p a = .ok (ln', req, sent)) :
    ln'.config = ln.config ∧ ∀ r ∈ req, r.Adjusted ln.config := by
  cases hcif : CIFHandshake.ofPacket p with
  | error fault =>
    unfold newConnRequest at h
    rw [hcif] at h
    cases fault with
    | panic => cases h
    | error message =>
      cases h
      exact ⟨rfl, fun _ hr => nomatch hr⟩
  | ok cif =>
    cases newConnRequest_cases hcif h with
    | answered => exact ⟨rfl, fun _ hr => nomatch hr⟩
    | dropped => exact ⟨rfl, fun _ hr => nomatch hr⟩
    | concluded _ _ _ _ hcase _ =>
      cases hcase with
      | ignored => exact ⟨rfl, fun _ hr => nomatch hr⟩
      | exhausted => exact ⟨rfl, fun _ hr => nomatch hr⟩
      | created handshake crypto socketId _ _ hrequests _ =>
        refine ⟨rfl, ?_⟩
        intro r hr
        cases hr
        have hmtu : handshake.maxTransmissionUnitSize = cif.maxTransmissionUnitSize := by
          rcases hrequests with rfl | hprepare
          · rfl
          · have hmtu := CIFHandshake.mtu_prepare hprepare
            exact hmtu
        constructor
        · show (ln.config.adjustMSS cif.maxTransmissionUnitSize).mss = _
          rw [← hmtu]
          rfl
        · show (ln.config.adjustMSS cif.maxTransmissionUnitSize).payloadSize = _
          rw [← hmtu]
          rfl

theorem ConnRequest.RejectCase.adjusted {reason : RejectionReason}
    (hcase : RejectCase ln req reason ln' req' sent) (h : req.Adjusted config) :
    ln'.config = ln.config ∧ req'.Adjusted config := by
  cases hcase with
  | resolved => exact ⟨rfl, h⟩
  | rejected _ handshake q hprepare =>
    have hmtu := CIFHandshake.mtu_prepare hprepare
    exact ⟨rfl, h.of_eq hmtu rfl rfl⟩

theorem ConnRequest.AcceptCase.adjusted {conn : Except String SrtConn}
    (hcase : AcceptCase ln req ln' req' conn sent) (h : req.Adjusted config) :
    ln'.config = ln.config ∧ req'.Adjusted config ∧
      ∀ conn', conn = .ok conn' →
        (config.Sized conn'.config ↔
          config.Sized (config.adjustMSS req.handshake.maxTransmissionUnitSize)) := by
  cases hcase with
  | noPassphrase _ _ _ hreject =>
    obtain ⟨hconfig, hreq⟩ := hreject.adjusted h
    exact ⟨hconfig, hreq, fun _ hconn => nomatch hconn⟩
  | resolved => exact ⟨rfl, h, fun _ hconn => nomatch hconn⟩
  | created _ _ recv send _ handshake q hprepare =>
    have hmtu := CIFHandshake.mtu_prepare hprepare
    refine ⟨rfl, h.of_eq hmtu rfl rfl, ?_⟩
    intro conn' hconn
    cases hconn
    exact Config.sized_congr h.mss h.payloadSize

end

namespace Registry

/-- The listener keeps its configuration, and the requests have its sizes. -/
structure Adjusted (config : Config) (s : Registry) : Prop where
  listener : s.listener.config = config
  requests : ∀ r ∈ s.requests, r.request.Adjusted config

section
variable {prim : Primitives} {config : Config} {s s' : Registry} {e : Event}

theorem Adjusted.set (h : s.Adjusted config) {ln : Listener} (hln : ln.config = s.listener.config)
    (i : Nat) {r : TrackedRequest} (hr : r.request.Adjusted config) (live : List SrtConn) :
    Adjusted config ⟨ln, s.requests.set i r, live⟩ where
  listener := hln.trans h.listener
  requests := by
    intro r' hr'
    rcases List.mem_or_eq_of_mem_set hr' with hr' | rfl
    · exact h.requests r' hr'
    · exact hr

theorem Adjusted.of_step (h : s.Adjusted config) (hs : step prim s e = some s') :
    s'.Adjusted config := by
  cases e with
  | arrival p a =>
    obtain ⟨⟨ln, req, sent⟩, hok, hs⟩ := Option.bind_eq_some_iff.mp hs
    cases hs
    obtain ⟨hconfig, hreq⟩ := Listener.newConnRequest_adjusted (eq_ok_of_toOption hok)
    refine ⟨hconfig.trans h.listener, ?_⟩
    intro r hr
    rcases List.mem_append.mp hr with hr | hr
    · exact h.requests r hr
    · obtain ⟨req', hreq', rfl⟩ := Option.map_eq_some_iff.mp (Option.mem_toList.mp hr)
      rw [h.listener] at hreq
      exact hreq req' hreq'
  | setPassphrase i passphrase =>
    obtain ⟨r, hr, hs⟩ := Option.bind_eq_some_iff.mp hs
    obtain ⟨hhandshake, hconfig, -⟩ := r.request.setPassphrase_fields prim passphrase
    split at hs
    · cases hs
    · rename_i req _ _ hset
      rw [hset] at hhandshake hconfig
      cases hs
      have hadjusted := (h.requests r (List.mem_of_getElem? hr)).of_eq
        (congrArg CIFHandshake.maxTransmissionUnitSize hhandshake) (congrArg Config.mss hconfig)
        (congrArg Config.payloadSize hconfig)
      exact h.set rfl i (r := ⟨req, r.resolved⟩) hadjusted s.live
  | accept i timestamp =>
    obtain ⟨r, hr, hs⟩ := Option.bind_eq_some_iff.mp hs
    obtain ⟨⟨ln, req, conn, sent⟩, hok, hs⟩ := Option.bind_eq_some_iff.mp hs
    cases hs
    obtain ⟨hconfig, hreq, -⟩ := (ConnRequest.accept_cases (eq_ok_of_toOption hok)).adjusted
      (h.requests r (List.mem_of_getElem? hr))
    exact h.set hconfig i (r := ⟨req, true⟩) hreq _
  | reject i reason timestamp =>
    obtain ⟨r, hr, hs⟩ := Option.bind_eq_some_iff.mp hs
    obtain ⟨⟨ln, req, sent⟩, hok, hs⟩ := Option.bind_eq_some_iff.mp hs
    cases hs
    obtain ⟨hconfig, hreq⟩ := (ConnRequest.reject_cases (eq_ok_of_toOption hok)).adjusted
      (h.requests r (List.mem_of_getElem? hr))
    exact h.set hconfig i (r := ⟨req, true⟩) hreq _
  | shutdown i =>
    obtain ⟨c, -, hs⟩ := Option.bind_eq_some_iff.mp hs
    cases hs
    exact ⟨h.listener, h.requests⟩

/-- `Accept` makes a connection with the sizes of its request. -/
theorem Adjusted.sized_iff (h : s.Adjusted config) {request : Nat} {timestamp mtu : UInt32}
    {conn : SrtConn} (hconn : s.creates? request timestamp = some (mtu, conn)) :
    config.Sized conn.config ↔ config.Sized (config.adjustMSS mtu) := by
  obtain ⟨r, hr, hconn⟩ := Option.bind_eq_some_iff.mp hconn
  obtain ⟨⟨ln, req, out, sent⟩, hok, hconn⟩ := Option.bind_eq_some_iff.mp hconn
  obtain ⟨conn', hout, hconn⟩ := Option.bind_eq_some_iff.mp hconn
  cases hconn
  obtain ⟨-, -, hsized⟩ := (ConnRequest.accept_cases (eq_ok_of_toOption hok)).adjusted
    (h.requests r (List.mem_of_getElem? hr))
  cases out with
  | ok conn₁ =>
    cases hout
    exact hsized conn rfl
  | error message => cases hout

end

end Registry

/-! ### The dialer -/

namespace Dialing

open Dialer

section
variable {prim : Primitives} {config : Config} {dl dl' : Dialer} {s s' : Dialing} {e : Event}
  {outputs : List Output}

/-- An INDUCTION neither changes the configuration nor makes a connection. -/
theorem handleInduction_config {p : Packet} {cif : CIFHandshake} {draws : Draws}
    (h : InductionCase prim dl p cif draws dl' outputs) :
    dl'.config = dl.config ∧ (written outputs).filterMap Except.toOption = [] := by
  have hsetup : (dl.setupCrypto cif.encryptionField draws).1.config = dl.config := by
    rw [setupCrypto_eq]
  have hwritten := (written_setupCrypto dl cif.encryptionField draws).1
  cases h with
  | unsupported => exact ⟨rfl, rfl⟩
  | wrongMagic => exact ⟨hsetup, by simp [hwritten, Except.toOption]⟩
  | noKeyMaterial => exact ⟨hsetup, by simp [hwritten, Except.toOption]⟩
  | concludes5 => exact ⟨hsetup, by simp [hwritten]⟩
  | concludes4 => exact ⟨hsetup, by simp [hwritten]⟩

/-- What the handler does to the configuration, and the connection that it makes. -/
theorem handleHandshake_config
    (h : dl.handleHandshake prim e.packet e.draws e.now = .ok (dl', outputs)) :
    (dl'.config = dl.config ∨ ∃ mtu, dl'.config = dl.config.adjustMSS mtu) ∧
      ∀ conn ∈ (written outputs).filterMap Except.toOption,
        ∀ cif, CIFHandshake.ofPacket e.packet = .ok cif →
          conn.config = dl.config.adjustMSS cif.maxTransmissionUnitSize := by
  unfold handleHandshake at h
  cases hcif : CIFHandshake.ofPacket e.packet with
  | error fault =>
    rw [hcif] at h
    cases fault with
    | panic => cases h
    | error message =>
      cases h
      exact ⟨Or.inl rfl, by simp⟩
  | ok cif =>
    rw [hcif] at h
    dsimp only at h
    by_cases hind : cif.handshakeType = HandshakeType.induction
    · rw [if_pos hind] at h
      obtain ⟨hconfig, hnone⟩ := handleInduction_config (handleInduction_cases h)
      exact ⟨Or.inl hconfig, by simp [hnone]⟩
    rw [if_neg hind] at h
    by_cases hconc : cif.handshakeType = HandshakeType.conclusion
    · rw [if_pos hconc] at h
      have hcase := handleConclusion_cases dl cif e.now
      rw [Except.ok.inj h] at hcase
      cases hcase with
      | refused config sent message hconfig =>
        refine ⟨hconfig.imp_right fun heq => ⟨_, heq⟩, ?_⟩
        simp [Except.toOption]
      | created hpasses =>
        refine ⟨Or.inr ⟨_, rfl⟩, ?_⟩
        intro conn hconn cif' hcif'
        cases hcif'
        cases List.mem_singleton.mp hconn
        rfl
    · rw [if_neg hconc] at h
      cases h
      exact ⟨Or.inl rfl, by simp [Except.toOption]⟩

/-- The configuration is the first one, adjusted to the smallest MTU size so far. -/
def Adjusted (config : Config) (s : Dialing) : Prop :=
  s.dialer.config = config.adjustMSS s.dialer.config.mss

theorem Adjusted.of_step (h : s.Adjusted config) (hs : step prim s e = some s') :
    s'.Adjusted config := by
  unfold step at hs
  split at hs
  · rename_i dl' outputs hok
    cases hs
    unfold Adjusted at h ⊢
    rcases (handleHandshake_config hok).1 with heq | ⟨mtu, heq⟩
    · rw [heq]
      exact h
    · rw [heq, Config.mss_adjustMSS, ← Config.adjustMSS_adjustMSS, ← h]
  · cases hs

/-- The connection has the sizes of the dialer, adjusted once more. -/
theorem Adjusted.config_eq (h : s.Adjusted config) {mtu : UInt32} {conn : SrtConn}
    (hconn : s.creates? prim e = some (mtu, conn)) : conn.config = config.adjustMSS mtu := by
  obtain ⟨cif, hcif, hconn⟩ := Option.bind_eq_some_iff.mp hconn
  obtain ⟨⟨dl', outputs⟩, hok, hconn⟩ := Option.bind_eq_some_iff.mp hconn
  obtain ⟨conn', hhead, hconn⟩ := Option.bind_eq_some_iff.mp hconn
  cases hconn
  have heq := (handleHandshake_config (eq_ok_of_toOption hok)).2 conn (List.mem_of_mem_head? hhead)
    cif (eq_ok_of_toOption hcif)
  unfold Adjusted at h
  rw [heq, h, Config.adjustMSS_adjustMSS, ← h]

end

end Dialing

/-! ### Every connection -/

/-- A connection has sizes in order, and payloads not larger than what was configured, exactly when
the MTU size that it comes from fits. -/
theorem sized_iff_fits (prim : Primitives) {c config : Config} (hvalid : c.validate = .ok config)
    {mtu : UInt32} {conn : SrtConn} (hcreates : Creates prim config mtu conn) :
    config.Sized conn.config ↔ config.Fits mtu := by
  rw [← Config.sized_adjustMSS_iff hvalid mtu]
  cases hcreates with
  | accepted ln hconfig events s hrun request timestamp _ _ hconn =>
    have hadjusted : s.Adjusted config :=
      run_induct (Registry.Adjusted config) (fun _ _ _ h hs => h.of_step hs)
        ⟨hconfig, List.forall_mem_nil _⟩ hrun
    exact hadjusted.sized_iff hconn
  | dialed dl hconfig events s hrun e _ _ hconn =>
    have hinit : (Dialing.init dl).Adjusted config := by
      show dl.config = config.adjustMSS dl.config.mss
      rw [hconfig, Config.adjustMSS_mss]
    have hadjusted : s.Adjusted config :=
      run_induct (Dialing.Adjusted config) (fun _ _ _ h hs => h.of_step hs) hinit hrun
    rw [hadjusted.config_eq hconn]

/-- The connection that the sample listener makes for a CONCLUSION with this MTU size. -/
def Registry.sizedConn (mtu : UInt32) : Option (UInt32 × SrtConn) :=
  (sampleEnd [.arrival ((Listener.sizedConclusion mtu).receivedFrom "127.0.0.1:50000")
    Listener.sizedArrival]).creates? 0 2000

theorem Registry.exists_creates (mtu payloadSize : UInt32)
    (hrun : (run (step Sample.primitives) (init sampleListener)
      [.arrival ((Listener.sizedConclusion mtu).receivedFrom "127.0.0.1:50000")
        Listener.sizedArrival]).isSome = true)
    (hconn : (sizedConn mtu).map (fun r => (r.1, r.2.config.payloadSize))
      = some (mtu, payloadSize)) :
    ∃ conn, Creates Sample.primitives defaultConfig mtu conn ∧
      conn.config.payloadSize = payloadSize := by
  obtain ⟨⟨_, conn⟩, hcreates, heq⟩ := Option.map_eq_some_iff.mp hconn
  cases heq
  exact ⟨conn, .accepted sampleListener rfl _ _ (run_eq_some_runD hrun) 0 2000 _ conn hcreates,
    rfl⟩

/-- An MTU size of 1000 bytes leaves 956 for the payload. -/
theorem sized_iff_fits_thousand :
    ∃ conn, Creates Sample.primitives defaultConfig 1000 conn ∧
      conn.config.payloadSize = 956 ∧ defaultConfig.Sized conn.config := by
  obtain ⟨conn, hcreates, hpayload⟩ :=
    Registry.exists_creates 1000 956 (by decide +kernel)
      (by decide +kernel)
  exact ⟨conn, hcreates, hpayload,
    (sized_iff_fits Sample.primitives Config.validate_defaultConfig hcreates).mpr (by decide)⟩

/-- The connection that a dialer makes from a CONCLUSION with this MTU size. -/
def Dialing.sizedConn (mtu : UInt32) : Option (UInt32 × SrtConn) :=
  let dl := Dialer.new {} (some "127.0.0.1:50000") (some "127.0.0.1:6000") (IP.ipv4 127 0 0 1) 7 1
  (init dl).creates? Sample.primitives
    { packet :=
        { dl.handshakePacket 0 with
          payload := { sampleCIF HandshakeType.conclusion with
            maxTransmissionUnitSize := mtu }.marshal.toOption.getD [] }
      draws := ⟨none, none, none⟩
      now := 1000 }

theorem Dialing.exists_creates (mtu payloadSize : UInt32)
    (hconn : (sizedConn mtu).map (fun r => (r.1, r.2.config.payloadSize))
      = some (mtu, payloadSize)) :
    ∃ conn, Creates Sample.primitives defaultConfig mtu conn ∧
      conn.config.payloadSize = payloadSize := by
  obtain ⟨⟨_, conn⟩, hcreates, heq⟩ := Option.map_eq_some_iff.mp hconn
  cases heq
  exact ⟨conn, .dialed _ rfl [] _ rfl _ _ conn hcreates, rfl⟩

/-- A listener that hears of an MTU size of 60 bytes makes a connection for payloads of 16 bytes. At
a dialer that hears of 43 bytes the subtraction wraps. -/
theorem not_sized_smallMTU :
    defaultConfig.validate = .ok defaultConfig ∧
      (∃ conn, Creates Sample.primitives defaultConfig 60 conn ∧
        conn.config.payloadSize = 16 ∧ ¬defaultConfig.Sized conn.config) ∧
      ∃ conn, Creates Sample.primitives defaultConfig 43 conn ∧
        conn.config.payloadSize = 0xFFFFFFFF ∧ ¬defaultConfig.Sized conn.config := by
  refine ⟨Config.validate_defaultConfig, ?_, ?_⟩
  · obtain ⟨conn, hcreates, hpayload⟩ :=
      Registry.exists_creates 60 16 (by decide +kernel)
        (by decide +kernel)
    refine ⟨conn, hcreates, hpayload, ?_⟩
    intro hsized
    have hsmallest := hsized.smallest
    rw [hpayload] at hsmallest
    exact absurd hsmallest (by decide)
  · obtain ⟨conn, hcreates, hpayload⟩ :=
      Dialing.exists_creates 43 0xFFFFFFFF (by decide +kernel)
    refine ⟨conn, hcreates, hpayload, ?_⟩
    intro hsized
    have hconfigured := hsized.configured
    rw [hpayload] at hconfigured
    exact absurd hconfigured (by decide)

end Gosrt
