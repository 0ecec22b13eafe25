import Gosrt.Lib.Countdown
import Gosrt.Spec.Config

/-!
# `Gosrt.Proofs.Config`: what a validated configuration satisfies

`Validate` runs its checks in order and returns at the first one that fails, so a
configuration that it accepts passes them all (`validate_ok_iff`). `Rekeys` is what the
accepted key material settings mean for the countdowns of a connection.
-/

set_option autoImplicit false

namespace Gosrt.Config

open Lib

variable {c c' : Config}

theorem check_eq_ok_iff {bad : Prop} [Decidable bad] {message : String} {u : Unit} :
    check bad message = .ok u ↔ ¬bad := by
  unfold check
  split
  · rename_i h
    constructor
    · intro herr
      cases herr
    · intro hn
      exact absurd h hn
  · rename_i h
    exact ⟨fun _ => h, fun _ => rfl⟩

/-- What `Validate` accepts, and what it returns then. -/
theorem validate_ok_iff :
    c.validate = .ok c' ↔
      c.transmissionType = "live" ∧ c.withFixedModes.checkConnection = .ok () ∧
        c' = c.withFixedModes.withLatency ∧ c'.checkTransmission = .ok () := by
  unfold validate
  simp only [bind_eq_ok_iff, check_eq_ok_iff, exists_const, not_not]
  constructor
  · rintro ⟨htype, _, hconn, _, htrans, hret⟩
    cases hret
    exact ⟨htype, hconn, rfl, htrans⟩
  · rintro ⟨htype, hconn, rfl, htrans⟩
    exact ⟨htype, (), hconn, (), htrans, rfl⟩

/-- The default configuration passes its own checks. -/
theorem validate_defaultConfig : defaultConfig.validate = .ok defaultConfig := by
  decide +kernel

/-- A non-zero refresh rate leaves room for the announcement: it comes at least one packet
before the switch, and not before the middle of the period. -/
structure Rekeys (c : Config) : Prop where
  rate : c.kmRefreshRate ≠ 0
  pos : 1 ≤ c.kmPreAnnounce.toNat
  half : 2 * c.kmPreAnnounce.toNat ≤ c.kmRefreshRate.toNat

theorem withLatency_km (c : Config) :
    c.withLatency.kmRefreshRate = c.kmRefreshRate ∧
      c.withLatency.kmPreAnnounce = c.kmPreAnnounce := by
  unfold withLatency
  split
  · exact ⟨rfl, rfl⟩
  · exact ⟨rfl, rfl⟩

/-- `Validate` leaves this room for the announcement, unless the rate is zero. -/
theorem rekeys_of_validate (h : c.validate = .ok c') (hrate : c'.kmRefreshRate ≠ 0) :
    c'.Rekeys := by
  obtain ⟨-, hconn, rfl, -⟩ := validate_ok_iff.mp h
  obtain ⟨hrefresh, hpre⟩ := c.withFixedModes.withLatency_km
  rw [hrefresh] at hrate
  unfold checkConnection at hconn
  simp only [bind_eq_ok_iff, check_eq_ok_iff, exists_const] at hconn
  obtain ⟨-, -, -, -, -, -, hkm⟩ := hconn
  have hbounds := not_or.mp (fun hbad => hkm ⟨hrate, hbad⟩)
  have hpos := UInt64.le_iff_toNat_le.mp (UInt64.not_lt.mp hbounds.1)
  have hhalf := UInt64.le_iff_toNat_le.mp (UInt64.not_lt.mp hbounds.2)
  rw [UInt64.toNat_div] at hhalf
  change 1 ≤ c.withFixedModes.kmPreAnnounce.toNat at hpos
  change c.withFixedModes.kmPreAnnounce.toNat ≤ c.withFixedModes.kmRefreshRate.toNat / 2 at hhalf
  constructor
  · rw [hrefresh]
    exact hrate
  · rw [hpre]
    exact hpos
  · rw [hpre, hrefresh]
    omega

/-- The announcement is due before the end of the period. For the rate zero the period is the
one of a countdown that wraps. -/
theorem kmPreAnnounce_lt_of_validate (h : c.validate = .ok c') :
    c'.kmPreAnnounce.toNat < steps c'.kmRefreshRate := by
  by_cases hrate : c'.kmRefreshRate = 0
  · rw [hrate]
    exact c'.kmPreAnnounce.toNat_lt
  · have hrekeys := rekeys_of_validate h hrate
    have hpos := hrekeys.pos
    have hhalf := hrekeys.half
    rw [steps_of_ne_zero hrate]
    omega

/-- A stream id fits its extension. -/
theorem length_streamId_of_validate (h : c.validate = .ok c') :
    c'.streamId.length ≤ 512 := by
  obtain ⟨-, -, -, htrans⟩ := validate_ok_iff.mp h
  unfold checkTransmission at htrans
  simp only [bind_eq_ok_iff, check_eq_ok_iff, exists_const] at htrans
  obtain ⟨-, -, -, -, -, -, -, -, -, -, -, -, hlen, -⟩ := htrans
  exact Nat.not_lt.mp hlen

/-- Neither latency is negative, whichever field it comes from. -/
theorem latencies_of_validate (h : c.validate = .ok c') :
    0 ≤ c'.receiverLatency ∧ 0 ≤ c'.peerLatency := by
  obtain ⟨-, -, -, htrans⟩ := validate_ok_iff.mp h
  unfold checkTransmission at htrans
  simp only [bind_eq_ok_iff, check_eq_ok_iff, exists_const] at htrans
  obtain ⟨-, -, -, -, -, -, -, -, -, hpeer, hreceiver, -⟩ := htrans
  exact ⟨Int64.not_lt.mp hreceiver, Int64.not_lt.mp hpeer⟩

theorem toNat_srtHeaderSize : srtHeaderSize.toNat = 16 := rfl

theorem toNat_udpHeaderSize : udpHeaderSize.toNat = 28 := rfl

theorem toNat_minMSSSize : minMSSSize.toNat = 76 := rfl

/-- The MSS has room for the headers and the payload. The subtraction in the check does not
wrap, because the smallest MSS is larger than the headers. -/
theorem payloadSize_of_validate (h : c.validate = .ok c') :
    minMSSSize.toNat ≤ c'.mss.toNat ∧
      c'.payloadSize.toNat + srtHeaderSize.toNat + udpHeaderSize.toNat ≤ c'.mss.toNat := by
  obtain ⟨-, -, -, htrans⟩ := validate_ok_iff.mp h
  unfold checkTransmission at htrans
  simp only [bind_eq_ok_iff, check_eq_ok_iff, exists_const] at htrans
  obtain ⟨-, hmss, -, -, -, -, -, hpayload, -⟩ := htrans
  have hmin := UInt32.le_iff_toNat_le.mp (UInt32.not_lt.mp (not_or.mp hmss).1)
  have hle := UInt32.le_iff_toNat_le.mp (UInt32.not_lt.mp hpayload)
  have hheaders : (srtHeaderSize + udpHeaderSize).toNat = 44 := rfl
  rw [toNat_minMSSSize] at hmin
  rw [UInt32.toNat_sub_of_le _ _ (UInt32.le_iff_toNat_le.mpr (by omega)), hheaders] at hle
  rw [toNat_minMSSSize, toNat_srtHeaderSize, toNat_udpHeaderSize]
  omega

/-- `Validate` accepts no payload below the smallest one. -/
theorem minPayloadSize_of_validate (h : c.validate = .ok c') :
    minPayloadSize.toNat ≤ c'.payloadSize.toNat := by
  obtain ⟨-, -, -, htrans⟩ := validate_ok_iff.mp h
  unfold checkTransmission at htrans
  simp only [bind_eq_ok_iff, check_eq_ok_iff, exists_const] at htrans
  obtain ⟨-, -, -, -, -, -, hpayload, -⟩ := htrans
  exact UInt32.le_iff_toNat_le.mp (UInt32.not_lt.mp (not_or.mp hpayload).1)

/-- The MTU size of the peer bounds the payload as the own MSS does. -/
theorem payloadSize_adjustMSS (h : c.validate = .ok c') {mtu : UInt32}
    (hmtu : minMSSSize.toNat ≤ mtu.toNat) :
    (c'.adjustMSS mtu).payloadSize.toNat + srtHeaderSize.toNat + udpHeaderSize.toNat ≤
      min mtu.toNat c'.mss.toNat := by
  obtain ⟨-, hpayload⟩ := payloadSize_of_validate h
  rw [toNat_minMSSSize] at hmtu
  rw [toNat_srtHeaderSize, toNat_udpHeaderSize] at hpayload ⊢
  unfold adjustMSS
  split
  · rename_i hlt
    rw [UInt32.lt_iff_toNat_lt] at hlt
    have hsrt := UInt32.toNat_sub_of_le mtu srtHeaderSize
      (UInt32.le_iff_toNat_le.mpr (by rw [toNat_srtHeaderSize]; omega))
    rw [toNat_srtHeaderSize] at hsrt
    have hudp := UInt32.toNat_sub_of_le (mtu - srtHeaderSize) udpHeaderSize
      (UInt32.le_iff_toNat_le.mpr (by rw [toNat_udpHeaderSize]; omega))
    rw [toNat_udpHeaderSize] at hudp
    dsimp only
    omega
  · rename_i hge
    rw [UInt32.lt_iff_toNat_lt] at hge
    omega

/-- The own MSS as the MTU size of the peer changes nothing. -/
theorem adjustMSS_mss (c : Config) : c.adjustMSS c.mss = c := if_neg (UInt32.lt_irrefl _)

end Gosrt.Config
