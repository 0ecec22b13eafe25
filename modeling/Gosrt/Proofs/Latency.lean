import Gosrt.Lib.Signed
import Gosrt.Proofs.Config
import Gosrt.Proofs.Connection
import Gosrt.Proofs.Exchange.Messages
import Gosrt.Proofs.Session
import Gosrt.Spec.Latency

/-!
# `Gosrt.Proofs.Latency`: the delays of a connection

* `latencies_survive_iff`: `Validate` has no upper bound for a latency. The narrow fields hold the
  configured values exactly if both latencies are below 65536 milliseconds.
* `thresholdAgrees_iff`: `handleHSResponse` takes 1.25 times the latency in milliseconds, where
  `newSRTConn` has microseconds. The second that is the least threshold hides this for short
  latencies only.
* `keeps_iff`: `handleHSRequest` does not look at the version, so a request of version 4 changes the
  delay of a version 5 connection or closes it.
-/

set_option autoImplicit false

namespace Gosrt

open Lib

/-! ### Durations -/

theorem toNat_max_uint64 (a b : UInt64) : (max a b).toNat = max a.toNat b.toNat := by
  show (if a ≤ b then b else a).toNat = _
  split <;> rename_i h <;> rw [UInt64.le_iff_toNat_le] at h <;> omega

namespace Duration

theorem toInt_milliseconds (d : Duration) : d.milliseconds.toInt = d.toInt.tdiv 1000000 :=
  Int64.toInt_div_of_ne_right d 1000000 (by decide)

theorem toInt_microseconds (d : Duration) : d.microseconds.toInt = d.toInt.tdiv 1000 :=
  Int64.toInt_div_of_ne_right d 1000 (by decide)

theorem milliseconds_nonneg {d : Duration} (h : 0 ≤ d) : 0 ≤ d.milliseconds.toInt := by
  rw [toInt_milliseconds]
  exact Int.tdiv_nonneg (Int64.le_iff_toInt_le.mp h) (by decide)

/-- The conversion to 16 bits keeps the remainder. -/
theorem toNat_ms16 (d : Duration) : (d.ms16.toNat : Int) = d.milliseconds.toInt % 2 ^ 16 := by
  have hword := toNat_toUInt64 d.milliseconds
  unfold ms16
  rw [UInt64.toNat_toUInt16]
  omega

end Duration

/-! ### The narrow fields -/

/-- A latency that fits is settled as it is. -/
theorem settles_max {d : Duration} (hlow : 0 ≤ d.milliseconds.toInt)
    (hhigh : d.milliseconds.toInt < 65536) (advertised : UInt16) :
    Settles (max d.ms16 advertised) d.milliseconds.toInt advertised := by
  have hms := d.toNat_ms16
  unfold Settles
  rw [Exchange.toNat_max]
  omega

theorem Settles.lt {delay : UInt16} {latency : Int} {advertised : UInt16}
    (h : Settles delay latency advertised) : latency < 65536 := by
  have hlt := delay.toNat_lt
  unfold Settles at h
  omega

/-- Both ends settle the larger one of the two delays. -/
theorem Dialer.delays_eq (config : Config) (cif : CIFHandshake) :
    Dialer.delays config cif
      = (max config.receiverLatency.ms16 cif.advertised.1,
        max config.peerLatency.ms16 cif.advertised.2) := by
  have hzero (a : UInt16) : max a 0 = a := by
    rw [← UInt16.toNat_inj, Exchange.toNat_max]
    exact Nat.max_eq_left (Nat.zero_le _)
  unfold delays CIFHandshake.advertised
  cases cif.srtHS with
  | none => simp [hzero]
  | some hs =>
    by_cases hversion : cif.version = 5
    · simp [hversion, Exchange.larger_eq_max]
    · simp [hversion, hzero]

/-- `Accept` and the dialer settle the delays in the same way. -/
theorem ConnRequest.delays_eq {req : ConnRequest} {recvTsbpdDelay sendTsbpdDelay : UInt16}
    (h : req.delays = .ok (recvTsbpdDelay, sendTsbpdDelay)) :
    (recvTsbpdDelay, sendTsbpdDelay) = Dialer.delays req.config req.handshake := by
  unfold delays at h
  unfold Dialer.delays
  by_cases hversion : req.handshake.version = 5
  · simp only [if_pos hversion] at h ⊢
    obtain ⟨hs, hsome, h⟩ := bind_eq_ok_iff.mp h
    rw [orPanic_eq_ok_iff.mp hsome]
    cases h
    rfl
  · simp only [if_neg hversion] at h ⊢
    cases h
    cases req.handshake.srtHS <;> rfl

section
variable {c : SrtConn} {p : Packet} {cif : CIFHandshakeExtension}

/-- A request that is not refused settles the delay of the received packets. -/
theorem handleHSRequest_settles (hcif : CIFHandshakeExtension.unmarshal p.payload = .ok cif)
    (haccepted : SrtConn.refusesHS cif.srtFlags.tsbpdsnd cif = false) :
    ∃ c' answer, c.handleHSRequest p = .ok (c', [.send answer]) ∧
      c'.tsbpdDelay = (max cif.sendTSBPDDelay c.config.receiverLatency.ms16).toUInt64 * 1000 := by
  unfold SrtConn.handleHSRequest
  rw [hcif]
  simp only [Go.attempt, ok_bind, haccepted]
  exact ⟨_, _, rfl, rfl⟩

/-- A response that is not refused sets the threshold of a version 4 connection. -/
theorem handleHSResponse_sets (hversion : c.version = 4)
    (hcif : CIFHandshakeExtension.unmarshal p.payload = .ok cif)
    (haccepted : SrtConn.refusesHS cif.srtFlags.tsbpdrcv cif = false) :
    c.handleHSResponse p = .ok (c,
      [.setDropThreshold (c.hsDropThreshold (max cif.sendTSBPDDelay c.config.peerLatency.ms16)),
        .stopHSRequests]) := by
  unfold SrtConn.handleHSResponse
  rw [hcif]
  simp only [Go.attempt, ok_bind, haccepted, hversion]
  rfl

end

/-- The latencies of a valid configuration survive exactly if they fit into 16 bits. -/
theorem latencies_survive_iff {config config' : Config} (h : config.validate = .ok config') :
    Survives config' ↔ config'.receiverMilliseconds < 65536 ∧ config'.peerMilliseconds < 65536 := by
  obtain ⟨hreceiver, hpeer⟩ := Config.latencies_of_validate h
  have hreceiver := Duration.milliseconds_nonneg hreceiver
  have hpeer := Duration.milliseconds_nonneg hpeer
  constructor
  · intro hsurvives
    -- Whatever the peer advertises, the delay has 16 bits.
    have hdialer := hsurvives.dialer {}
    exact ⟨hdialer.1.lt, hdialer.2.lt⟩
  · rintro ⟨hreceiver', hpeer'⟩
    have hrecv := settles_max hreceiver hreceiver'
    have hsend := settles_max hpeer hpeer'
    refine
      { extension := ?_
        hsRequest := ?_
        dialer := ?_
        listener := ?_
        request := ?_
        response := ?_ }
    · rintro dl cif rfl
      have hr := dl.config.receiverLatency.toNat_ms16
      have hs := dl.config.peerLatency.toNat_ms16
      unfold Config.receiverMilliseconds at *
      unfold Config.peerMilliseconds at *
      exact ⟨_, rfl, by dsimp only; omega, by dsimp only; omega⟩
    · rintro c timestamp rfl
      have hms := c.config.receiverLatency.toNat_ms16
      have hread := c.hsRequestCIF.unmarshal_append []
      rw [List.append_nil] at hread
      refine ⟨_, hread, ?_⟩
      show (c.config.receiverLatency.ms16.toNat : Int) = _
      unfold Config.receiverMilliseconds at *
      omega
    · intro cif
      rw [Dialer.delays_eq]
      exact ⟨hrecv _, hsend _⟩
    · rintro req recvTsbpdDelay sendTsbpdDelay rfl hdelays
      have heq := ConnRequest.delays_eq hdelays
      rw [Dialer.delays_eq] at heq
      cases heq
      exact ⟨hrecv _, hsend _⟩
    · rintro c p cif rfl hcif haccepted
      obtain ⟨c', answer, hok, hdelay⟩ := handleHSRequest_settles hcif haccepted
      rw [Exchange.max_swap] at hdelay
      exact ⟨_, c', answer, hok, hdelay, hrecv _⟩
    · rintro c p cif rfl hversion hcif haccepted
      refine ⟨_, handleHSResponse_sets hversion hcif haccepted, ?_⟩
      rw [Exchange.max_swap]
      exact hsend _

/-- The default configuration has 120 milliseconds. -/
theorem survives_default :
    defaultConfig.validate = .ok defaultConfig ∧ Survives defaultConfig :=
  ⟨Config.validate_defaultConfig,
    (latencies_survive_iff Config.validate_defaultConfig).mpr (by decide)⟩

/-- A latency of 65536 milliseconds. -/
def longLatency : Config := { latency := 65536000000 }

/-- `Validate` accepts it, and the dialer and the listener start from no latency at all. -/
theorem longLatency_truncated :
    ∃ config, longLatency.validate = .ok config ∧ config.receiverMilliseconds = 65536 ∧
      config.peerMilliseconds = 65536 ∧ Dialer.delays config {} = (0, 0) ∧ ¬Survives config := by
  refine ⟨longLatency.withFixedModes.withLatency, ?_, by decide, by decide, by decide, ?_⟩
  · rw [Config.validate_ok_iff]
    exact ⟨rfl, by decide, rfl, by decide⟩
  · intro hsurvives
    exact absurd (hsurvives.dialer {}).1.lt (by decide)

/-! ### The threshold of the sender -/

section
variable (latency : UInt16) (config : Config)

/-- The sum of a delay and `SendDropDelay` in a `uint64`. -/
theorem toNat_add_microseconds (x : UInt64) :
    ((x + config.sendDropDelay.microseconds.toUInt64).toNat : Int)
      = (x.toNat + config.sendDropDelay.microseconds.toInt) % 2 ^ 64 := by
  have hword := toNat_toUInt64 config.sendDropDelay.microseconds
  rw [UInt64.toNat_add]
  omega

/-- Microseconds in 64 bits are far from the ends of the range. -/
theorem microseconds_bounds :
    -2 ^ 54 ≤ config.sendDropDelay.microseconds.toInt ∧
      config.sendDropDelay.microseconds.toInt < 2 ^ 54 := by
  have hlow := config.sendDropDelay.le_toInt
  have hhigh := config.sendDropDelay.toInt_lt
  have hsign : Int.sign 1000 = 1 := rfl
  rw [Duration.toInt_microseconds, Int.tdiv_eq_ediv]
  split <;> omega

/-- The threshold that is set from a delay in microseconds. -/
theorem toNat_threshold {x : UInt64} (hx : x.toNat < 2 ^ 32)
    (hnonneg : 0 ≤ x.toNat + config.sendDropDelay.microseconds.toInt) :
    ((max (x + config.sendDropDelay.microseconds.toUInt64) 1000000 + 20000).toNat : Int)
      = max (x.toNat + config.sendDropDelay.microseconds.toInt) 1000000 + 20000 := by
  have hsum := toNat_add_microseconds config x
  obtain ⟨-, hhigh⟩ := microseconds_bounds config
  rw [Int.emod_eq_of_lt hnonneg (by omega)] at hsum
  rw [UInt64.toNat_add, toNat_max_uint64, show (1000000 : UInt64).toNat = 1000000 from rfl,
    show (20000 : UInt64).toNat = 20000 from rfl]
  omega

/-- A negative sum wraps, and is no threshold that makes sense. -/
theorem toNat_threshold_of_neg {x : UInt64}
    (hneg : x.toNat + config.sendDropDelay.microseconds.toInt < 0) :
    (max (x + config.sendDropDelay.microseconds.toUInt64) 1000000 + 20000).toNat < 20000 ∨
      2 ^ 60 ≤ (max (x + config.sendDropDelay.microseconds.toUInt64) 1000000 + 20000).toNat := by
  have hsum := toNat_add_microseconds config x
  obtain ⟨hlow, -⟩ := microseconds_bounds config
  rw [← Int.add_emod_right, Int.emod_eq_of_lt (by omega) (by omega)] at hsum
  rw [UInt64.toNat_add, toNat_max_uint64, show (1000000 : UInt64).toNat = 1000000 from rfl,
    show (20000 : UInt64).toNat = 20000 from rfl]
  omega

/-- 1.25 times the latency in microseconds. -/
theorem toNat_peerDelay : (latency.toUInt64 * 1000 * 5 / 4).toNat = 1250 * latency.toNat := by
  have hlt := latency.toNat_lt
  rw [UInt64.toNat_div, UInt64.toNat_mul, UInt64.toNat_mul, UInt16.toNat_toUInt64,
    show (1000 : UInt64).toNat = 1000 from rfl, show (5 : UInt64).toNat = 5 from rfl,
    show (4 : UInt64).toNat = 4 from rfl]
  omega

/-- 1.25 times the latency in milliseconds. -/
theorem toNat_hsDelay : (latency.toUInt64 * 5 / 4).toNat = 5 * latency.toNat / 4 := by
  have hlt := latency.toNat_lt
  rw [UInt64.toNat_div, UInt64.toNat_mul, UInt16.toNat_toUInt64,
    show (5 : UInt64).toNat = 5 from rfl, show (4 : UInt64).toNat = 4 from rfl]
  omega

end

/-- The threshold that a version 4 caller gets with the response is the right one exactly if there
is no latency, or if the second is longer than what is derived from it. (A negative delay, which
`Validate` refuses, must not make the sum negative.) -/
theorem thresholdAgrees_iff (c : SrtConn) (p : Packet) (cif : CIFHandshakeExtension)
    (hversion : c.version = 4) (hcif : CIFHandshakeExtension.unmarshal p.payload = .ok cif)
    (haccepted : SrtConn.refusesHS cif.srtFlags.tsbpdrcv cif = false) :
    ∃ latency threshold, latency = max cif.sendTSBPDDelay c.config.peerLatency.ms16 ∧
      c.handleHSResponse p = .ok (c, [.setDropThreshold threshold, .stopHSRequests]) ∧
      (ThresholdAgrees latency c.config threshold ↔
        0 ≤ (5 * latency.toNat / 4 : Nat) + c.config.sendDropDelay.microseconds.toInt ∧
          (latency = 0 ∨
            1250 * latency.toNat + c.config.sendDropDelay.microseconds.toInt ≤ 1000000)) := by
  refine ⟨_, _, rfl, handleHSResponse_sets hversion hcif haccepted, ?_⟩
  generalize max cif.sendTSBPDDelay c.config.peerLatency.ms16 = latency
  have hlt := latency.toNat_lt
  have hzero : latency = 0 ↔ latency.toNat = 0 := by
    rw [← UInt16.toNat_inj]
    rfl
  obtain ⟨hlow, hhigh⟩ := microseconds_bounds c.config
  have hhs := toNat_hsDelay latency
  have hnew := toNat_peerDelay latency
  have hthreshold := toNat_threshold c.config (x := latency.toUInt64 * 5 / 4) (by omega)
  rw [hhs] at hthreshold
  rw [hzero]
  constructor
  · intro h
    have hexpected := h.expected
    unfold expectedThreshold at hexpected
    by_cases hneg : 0 ≤ ((5 * latency.toNat / 4 : Nat) : Int)
        + c.config.sendDropDelay.microseconds.toInt
    · -- Both values are maxima with the second, and the derived parts differ unless it wins.
      have heq := (hthreshold hneg).symm.trans hexpected
      omega
    · have hwrapped := toNat_threshold_of_neg c.config (x := latency.toUInt64 * 5 / 4) (by omega)
      have hvalue : (c.hsDropThreshold latency).toNat < 20000 ∨
        2 ^ 60 ≤ (c.hsDropThreshold latency).toNat := hwrapped
      omega
  · rintro ⟨hnonneg, hcase⟩
    have hvalue : ((c.hsDropThreshold latency).toNat : Int) = _ := hthreshold hnonneg
    have hother : ((dropThreshold (latency.toUInt64 * 1000) c.config).toNat : Int) = _ :=
      toNat_threshold c.config (by omega) (by omega)
    rw [hnew] at hother
    refine ⟨?_, ?_, ?_⟩
    · rw [← UInt64.toNat_inj]
      omega
    · unfold expectedThreshold
      omega
    · omega

namespace Sample

/-- A version 4 caller. -/
def callerV4 (sendDropDelay : Duration) : SrtConn :=
  newSRTConn { connConfig 4 2 with
    version := 4
    crypto := none
    config := { config 4 2 with sendDropDelay := sendDropDelay } }

/-- The extension of a version 4 peer, with a delay in milliseconds. -/
def extensionV4 (sendTSBPDDelay : UInt16) : CIFHandshakeExtension where
  srtVersion := 0x010203
  srtFlags := CIFHandshakeExtensionFlags.own
  recvTSBPDDelay := 0
  sendTSBPDDelay := sendTSBPDDelay

/-- A user packet with the extension. -/
def packetV4 (subType : CtrlSubType) (cif : CIFHandshakeExtension) : Packet :=
  let p := newPacket none
  { header := { p.header with isControlPacket := true, controlType := .user, subType := subType }
    payload := cif.marshal }

end Sample

/-- A latency of 120 milliseconds with no additional delay: the threshold is the second. -/
theorem thresholdAgrees_short :
    ∃ threshold, (Sample.callerV4 0).handleHSResponse
        (Sample.packetV4 .hsrsp (Sample.extensionV4 120))
          = .ok (Sample.callerV4 0, [.setDropThreshold threshold, .stopHSRequests]) ∧
      ThresholdAgrees 120 (Sample.callerV4 0).config threshold := by
  obtain ⟨latency, threshold, rfl, hok, hiff⟩ := thresholdAgrees_iff (Sample.callerV4 0)
    (Sample.packetV4 .hsrsp (Sample.extensionV4 120)) (Sample.extensionV4 120) rfl (by decide)
    (by decide)
  exact ⟨threshold, hok, hiff.mpr (by decide)⟩

/-- A latency of five seconds and the default `SendDropDelay` of a second. The sender drops packets
after about one second. -/
theorem threshold_too_short :
    (Sample.callerV4 1000000000).handleHSResponse
        (Sample.packetV4 .hsrsp (Sample.extensionV4 5000))
          = .ok (Sample.callerV4 1000000000, [.setDropThreshold 1026250, .stopHSRequests]) ∧
      dropThreshold (5000 * 1000) (Sample.callerV4 1000000000).config = 7270000 ∧
      ¬ThresholdAgrees 5000 (Sample.callerV4 1000000000).config 1026250 :=
  ⟨by decide +kernel, by decide, fun h => absurd h.exceeds (by decide)⟩

/-! ### What the handshake has settled -/

namespace Latency

/-- What every handler keeps but the two for the extensions of version 4. -/
structure Settled (c c' : SrtConn) (outputs : List Output) : Prop where
  version : c'.version = c.version
  config : c'.config = c.config
  tsbpdDelay : c'.tsbpdDelay = c.tsbpdDelay
  threshold : ∀ t, .setDropThreshold t ∉ outputs

/-- Two handlers one after the other keep it too. -/
theorem Settled.trans {c c₁ c' : SrtConn} {outputs outputs' : List Output}
    (h : Settled c c₁ outputs) (h' : Settled c₁ c' outputs') : Settled c c' outputs' :=
  ⟨h'.version.trans h.version, h'.config.trans h.config, h'.tsbpdDelay.trans h.tsbpdDelay,
    h'.threshold⟩

theorem lastThreshold_of_notMem {outputs : List Output} (t : UInt64)
    (h : ∀ t, .setDropThreshold t ∉ outputs) : lastThreshold t outputs = t := by
  unfold lastThreshold
  induction outputs with
  | nil => rfl
  | cons output outputs ih =>
    have hrest := ih fun t hmem => h t (List.mem_cons_of_mem _ hmem)
    rw [List.foldl_cons]
    cases output with
    | setDropThreshold t' => exact absurd List.mem_cons_self (h t')
    | _ => exact hrest

section
variable {prim : Primitives} {c c' : SrtConn} {p : Packet} {outputs : List Output}

theorem handleKMResponse_settled (c : SrtConn) (p : Packet) :
    Settled c (c.handleKMResponse p).1 ((c.handleKMResponse p).2.map .effect) := by
  unfold SrtConn.handleKMResponse
  dsimp only
  repeat' split
  all_goals exact ⟨rfl, rfl, rfl, by simp⟩

theorem prepareCrypto_settled {c c₁ : SrtConn} {cif : CIFKeyMaterialExtension} {draws : Draws}
    (h : c.prepareCrypto cif draws = some c₁) : Settled c c₁ [] := by
  rcases SrtConn.prepareCrypto_cases h with rfl | ⟨-, -, crypto, -, rfl⟩
  · exact ⟨rfl, rfl, rfl, by simp⟩
  · exact ⟨rfl, rfl, rfl, by simp⟩

theorem handleKMRequest_settled {draws : Draws}
    (h : c.handleKMRequest prim p draws = .ok (c', outputs)) : Settled c c' outputs := by
  obtain ⟨cif, -, h⟩ := bind_eq_ok_iff.mp h
  cases cif with
  | none =>
    cases h
    exact ⟨rfl, rfl, rfl, by simp⟩
  | some cif =>
    dsimp only at h
    split at h
    · cases h
      exact ⟨rfl, rfl, rfl, by simp⟩
    -- A request that is not for this end may still have made a new context.
    rename_i c₁ hprepare
    have hsame := prepareCrypto_settled hprepare
    have hcount : Settled c { c with pktRecvKM := c.pktRecvKM + 1 } [] := ⟨rfl, rfl, rfl, by simp⟩
    refine (hcount.trans hsame).trans ?_
    split at h
    · cases h
      exact ⟨rfl, rfl, rfl, by simp⟩
    split at h
    · cases h
      exact ⟨rfl, rfl, rfl, by simp⟩
    obtain ⟨result, -, h⟩ := bind_eq_ok_iff.mp h
    cases result with
    | none =>
      cases h
      exact ⟨rfl, rfl, rfl, by simp⟩
    | some _ =>
      cases h
      exact ⟨rfl, rfl, rfl, by simp⟩

/-- A response of version 4 does nothing to a version 5 connection. -/
theorem handleHSResponse_settled (hversion : c.version = 5)
    (h : c.handleHSResponse p = .ok (c', outputs)) : Settled c c' outputs ∧ outputs = [] := by
  obtain ⟨cif, -, h⟩ := bind_eq_ok_iff.mp h
  cases cif with
  | none =>
    cases h
    exact ⟨⟨rfl, rfl, rfl, by simp⟩, rfl⟩
  | some cif =>
    dsimp only at h
    -- The only place where the version is looked at.
    rw [if_pos (by rw [hversion]; decide)] at h
    cases h
    exact ⟨⟨rfl, rfl, rfl, by simp⟩, rfl⟩

end

/-! ### Runs of a version 5 connection -/

/-- A request goes to its handler. All other packets keep what was settled. -/
inductive PacketCase (c : Connection) (p : Packet) (c' : Connection) (outputs : List Output) :
    Prop where
  | request (hrequest : Connection.IsUser .hsreq p)
      (hcase : SrtConn.RequestCase c.conn p c'.conn outputs)
  | other (hother : ¬Connection.IsUser .hsreq p) (hsettled : Settled c.conn c'.conn outputs)
      (hclose : IsHS p → .effect .close ∉ outputs)

theorem not_isUser {p : Packet} {subType subType' : CtrlSubType}
    (h : Connection.IsUser subType p) (hne : subType ≠ subType') :
    ¬Connection.IsUser subType' p :=
  fun h' => hne (h.2.2.symm.trans h'.2.2)

/-- Every packet at a version 5 connection is one of these cases. -/
theorem handlePacket_cases (prim : Primitives) (sort : SortSlice) {c : Connection}
    (hversion : c.conn.version = 5) (p : Packet) (i : HandleInputs) :
    ∃ c' outputs, c.handlePacket prim sort p i = .ok (c', outputs) ∧
      PacketCase c p c' outputs := by
  obtain ⟨c', outputs, hok, -⟩ := c.handlePacket_handles prim sort p i
  refine ⟨c', outputs, hok, ?_⟩
  -- A packet with a third subtype is no extension of version 4.
  have hnotHS {subType : CtrlSubType} (huser : Connection.IsUser subType p)
      (hreq : subType ≠ .hsreq) (hrsp : subType ≠ .hsrsp) : ¬IsHS p := by
    rintro ⟨-, -, hsub | hsub⟩
    · exact hreq (huser.2.2.symm.trans hsub)
    · exact hrsp (huser.2.2.symm.trans hsub)
  cases Connection.handlePacket_handledBy hok with
  | hsRequest huser h => exact .request huser (SrtConn.handleHSRequest_cases h)
  | hsResponse huser h =>
    obtain ⟨hsettled, rfl⟩ := handleHSResponse_settled hversion h
    exact .other (not_isUser huser (by decide)) hsettled fun _ => List.not_mem_nil
  | kmRequest huser h =>
    exact .other (not_isUser huser (by decide)) (handleKMRequest_settled h)
      fun hHS => absurd hHS (hnotHS huser (by decide) (by decide))
  | kmResponse huser hconn houtputs =>
    have hsettled : Settled c.conn c'.conn outputs := by
      rw [hconn, houtputs]
      exact handleKMResponse_settled c.conn p
    exact .other (not_isUser huser (by decide)) hsettled
      fun hHS => absurd hHS (hnotHS huser (by decide) (by decide))
  | other hhsreq hhsrsp n hconn houtputs =>
    have hsettled : Settled c.conn c'.conn outputs := by
      rw [hconn]
      exact ⟨rfl, rfl, rfl, houtputs⟩
    refine .other hhsreq hsettled ?_
    rintro ⟨hcontrol, huser, hsub | hsub⟩
    · exact absurd ⟨hcontrol, huser, hsub⟩ hhsreq
    · exact absurd ⟨hcontrol, huser, hsub⟩ hhsrsp

/-- What the handshake has settled. -/
structure Agreed (config : SrtConnConfig) (s : Latency) : Prop where
  version : s.connection.conn.version = 5
  sameConfig : s.connection.conn.config = config.config
  tsbpdDelay : s.connection.conn.tsbpdDelay = config.tsbpdDelay
  dropThreshold : s.dropThreshold = Gosrt.dropThreshold config.peerTsbpdDelay config.config

section
variable {prim : Primitives} {sort : SortSlice} {config : SrtConnConfig} {s s' : Latency}
  {e : Event}

/-- What was settled is kept exactly if a request is harmless. -/
theorem keeps_iff_harmless (h : Agreed config s) :
    Keeps prim sort config s e ↔ Harmless config e := by
  obtain ⟨c', outputs, hok, hcase⟩ := handlePacket_cases prim sort h.version e.packet e.inputs
  have hkeeps : Keeps prim sort config s e ↔ c'.conn.tsbpdDelay = config.tsbpdDelay ∧
      lastThreshold s.dropThreshold outputs
        = Gosrt.dropThreshold config.peerTsbpdDelay config.config ∧
      (IsHS e.packet → .effect .close ∉ outputs) := by
    unfold Keeps
    rw [hok]
    simp
  rw [hkeeps]
  cases hcase with
  | other hother hsettled hclose =>
    refine iff_of_true ⟨hsettled.tsbpdDelay.trans h.tsbpdDelay, ?_, hclose⟩ ?_
    · exact (lastThreshold_of_notMem _ hsettled.threshold).trans h.dropThreshold
    · intro hcontrol huser hsub
      exact absurd ⟨hcontrol, huser, hsub⟩ hother
  | request hrequest hcase =>
    -- The handler does not look at the version, so all of its outcomes are possible.
    have hHS : IsHS e.packet := ⟨hrequest.1, hrequest.2.1, Or.inl hrequest.2.2⟩
    have hharmless : Harmless config e ↔
        ∀ cif, CIFHandshakeExtension.unmarshal e.packet.payload = .ok cif →
          SrtConn.refusesHS cif.srtFlags.tsbpdsnd cif = false ∧
            (max cif.sendTSBPDDelay config.config.receiverLatency.ms16).toUInt64 * 1000
              = config.tsbpdDelay :=
      ⟨fun hall => hall hrequest.1 hrequest.2.1 hrequest.2.2, fun hall _ _ _ => hall⟩
    rw [hharmless]
    generalize c'.conn = conn' at hcase ⊢
    cases hcase with
    | invalid hinvalid =>
      exact iff_of_true ⟨h.tsbpdDelay, h.dropThreshold, by simp⟩
        fun cif hcif => absurd hcif (hinvalid cif)
    | refused cif hcif hrefused =>
      refine iff_of_false (fun hand => hand.2.2 hHS List.mem_cons_self) fun hall => ?_
      rw [(hall cif hcif).1] at hrefused
      cases hrefused
    | accepted cif hcif haccepted answer =>
      rw [h.sameConfig]
      simp [hcif, haccepted, lastThreshold, h.dropThreshold]

/-- A step that keeps the delay and the threshold keeps all that was settled. -/
theorem agreed_step (h : Agreed config s) (hkeeps : Keeps prim sort config s e)
    (hs : step prim sort s e = some s') : Agreed config s' := by
  obtain ⟨c', outputs, hok, hdelay, hthreshold, -⟩ := hkeeps
  obtain ⟨c₁, outputs₁, hok₁, hcase⟩ := handlePacket_cases prim sort h.version e.packet e.inputs
  rw [hok] at hok₁
  cases hok₁
  unfold step at hs
  rw [hok] at hs
  cases hs
  have hsame : c'.conn.version = s.connection.conn.version ∧
      c'.conn.config = s.connection.conn.config := by
    cases hcase with
    | other hother hsettled hclose => exact ⟨hsettled.version, hsettled.config⟩
    | request hrequest hcase =>
      generalize c'.conn = conn' at hcase ⊢
      cases hcase with
      | invalid hinvalid => exact ⟨rfl, rfl⟩
      | refused cif hcif hrefused => exact ⟨rfl, rfl⟩
      | accepted cif hcif haccepted answer => exact ⟨rfl, rfl⟩
  exact ⟨hsame.1.trans h.version, hsame.2.trans h.sameConfig, hdelay, hthreshold⟩

end

/-- Every packet is handled. -/
theorem exists_step (prim : Primitives) (sort : SortSlice) (s : Latency) (e : Event) :
    ∃ s', step prim sort s e = some s' := by
  obtain ⟨c', outputs, hok, -⟩ := s.connection.handlePacket_handles prim sort e.packet e.inputs
  unfold step
  rw [hok]
  exact ⟨_, rfl⟩

/-- A version 5 connection keeps its delay and its threshold, whatever it receives, exactly if each
request of version 4 is harmless. -/
theorem keeps_iff (prim : Primitives) (sort : SortSlice) (config : SrtConnConfig)
    (hversion : config.version = 5) (events : List Event) :
    RunMeets (step prim sort) (Keeps prim sort config) (init config) events ↔
      ∀ e ∈ events, Harmless config e := by
  rw [← runMeets_iff_forall (exists_step prim sort)]
  exact runMeets_congr_of (Agreed config) (fun s e _ h => keeps_iff_harmless h)
    (fun s e s' _ hkeeps h hs => agreed_step h hkeeps hs) (runMeets_true _ _ events)
    ⟨hversion, rfl, rfl, rfl⟩

/-- The request with this extension arrives at a version 5 connection. -/
def sampleRequest (cif : CIFHandshakeExtension) : Event where
  packet := Sample.packetV4 .hsreq cif
  inputs := Sample.inputs

/-- A request for the 120 milliseconds that the connection has. -/
theorem keeps_same_delay :
    RunMeets (step Sample.primitives SortSlice.insertion)
      (Keeps Sample.primitives SortSlice.insertion (Sample.connConfig 4 2))
      (init (Sample.connConfig 4 2)) [sampleRequest (Sample.extensionV4 120)] := by
  refine (keeps_iff Sample.primitives SortSlice.insertion (Sample.connConfig 4 2) rfl _).mpr ?_
  intro e he
  cases List.mem_singleton.mp he
  intro _ _ _ cif hcif
  have hdecoded : CIFHandshakeExtension.unmarshal
      (sampleRequest (Sample.extensionV4 120)).packet.payload = .ok (Sample.extensionV4 120) := by
    decide
  cases hdecoded.symm.trans hcif
  decide

/-- A request for 500 milliseconds changes the delay of a version 5 connection, and one of another
SRT version closes it. -/
theorem request_changes_delay :
    (Sample.connConfig 4 2).version = 5 ∧ (Sample.connConfig 4 2).tsbpdDelay = 120000 ∧
      (runD (step Sample.primitives SortSlice.insertion) (init (Sample.connConfig 4 2))
        [sampleRequest (Sample.extensionV4 500)]).connection.conn.tsbpdDelay = 500000 ∧
      ((Connection.new (Sample.connConfig 4 2)).handlePacket Sample.primitives SortSlice.insertion
        (Sample.packetV4 .hsreq { Sample.extensionV4 120 with srtVersion := 0x010500 })
        Sample.inputs).toOption.map (·.2) = some [.effect .close] ∧
      ¬RunMeets (step Sample.primitives SortSlice.insertion)
        (Keeps Sample.primitives SortSlice.insertion (Sample.connConfig 4 2))
        (init (Sample.connConfig 4 2)) [sampleRequest (Sample.extensionV4 500)] := by
  refine ⟨rfl, rfl, by decide +kernel, by decide +kernel, fun h => ?_⟩
  obtain ⟨c', outputs, hok, hdelay, -⟩ := h.1
  have hchanged : ((init (Sample.connConfig 4 2)).connection.handlePacket Sample.primitives
      SortSlice.insertion (sampleRequest (Sample.extensionV4 500)).packet
      (sampleRequest (Sample.extensionV4 500)).inputs).toOption.map (·.1.conn.tsbpdDelay)
        = some 500000 := by decide +kernel
  rw [hok] at hchanged
  have hvalue : c'.conn.tsbpdDelay = 500000 := Option.some.inj hchanged
  rw [hvalue] at hdelay
  exact absurd hdelay (by decide)

end Latency

end Gosrt
