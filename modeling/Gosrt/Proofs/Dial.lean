import Gosrt.Lib.Run
import Gosrt.Proofs.Connection
import Gosrt.Spec.Dial

/-!
# `Gosrt.Proofs.Dial`: the runs of a dialer

`InductionCase` and `ConclusionCase` say what the handler can do with an INDUCTION and with a
CONCLUSION. From them follow two exact conditions on the packets that a dialer gets.

The crypto context comes from an INDUCTION, and a CONCLUSION uses it whether or not there was
one. So a dialer with a passphrase makes encrypted connections exactly when each CONCLUSION
that it accepts comes after an INDUCTION for which `crypto.New` succeeded
(`encrypted_iff_inOrder`).

The handler does not remember that it has concluded. So it writes to `connChan` once for each
reason that a packet gives it (`single_response_iff`).
-/

set_option autoImplicit false

namespace Gosrt

open Lib

namespace Config

/-- What the MTU size of the peer leaves alone. -/
theorem adjustMSS_fields (c : Config) (mtu : UInt32) :
    (c.adjustMSS mtu).passphrase = c.passphrase ∧ (c.adjustMSS mtu).pbKeylen = c.pbKeylen ∧
      (c.adjustMSS mtu).streamId = c.streamId ∧
      (c.adjustMSS mtu).receiverLatency = c.receiverLatency ∧
      (c.adjustMSS mtu).peerLatency = c.peerLatency := by
  unfold adjustMSS
  split
  · exact ⟨rfl, rfl, rfl, rfl, rfl⟩
  · exact ⟨rfl, rfl, rfl, rfl, rfl⟩

end Config

namespace Dialer

section
variable {prim : Primitives} {dl : Dialer} {p : Packet} {cif : CIFHandshake} {draws : Draws}
  {now : UInt64}

theorem version_cases (h : ¬(cif.version < 4 ∨ cif.version > 5)) :
    cif.version = 4 ∨ cif.version = 5 := by
  rw [← UInt32.toNat_inj, ← UInt32.toNat_inj]
  rw [not_or, UInt32.not_lt, UInt32.not_lt, UInt32.le_iff_toNat_le, UInt32.le_iff_toNat_le] at h
  change 4 ≤ _ ∧ _ ≤ 5 at h
  show _ = 4 ∨ _ = 5
  omega

/-- What the handler can do with an INDUCTION. -/
inductive InductionCase (prim : Primitives) (dl : Dialer) (p : Packet) (cif : CIFHandshake)
    (draws : Draws) : Dialer → List Output → Prop where
  | unsupported (hversion : ¬(cif.version = 4 ∨ cif.version = 5)) :
      InductionCase prim dl p cif draws dl [fail (unsupportedVersion cif.version)]
  | wrongMagic (hversion : cif.version = 5) (hmagic : cif.extensionField ≠ 0x4A17) :
      InductionCase prim dl p cif draws
        { (dl.setupCrypto cif.encryptionField draws).1 with version := 5 }
        ((dl.setupCrypto cif.encryptionField draws).2 ++
          [fail "peer sent the wrong magic number"])
  | noKeyMaterial (hversion : cif.version = 5) (hmagic : cif.extensionField = 0x4A17)
      (cr : Crypto) (message : String)
      (hcrypto : (dl.setupCrypto cif.encryptionField draws).1.crypto = some cr)
      (hkm : (cr.marshalKM prim {} dl.config.passphrase .evenKeyEncrypted).2
        = .error (.error message)) :
      InductionCase prim dl p cif draws
        { (dl.setupCrypto cif.encryptionField draws).1 with version := 5 }
        ((dl.setupCrypto cif.encryptionField draws).2 ++ [fail message])
  | concludes5 (hversion : cif.version = 5) (hmagic : cif.extensionField = 0x4A17)
      (conclusion : CIFHandshake) (data : Bytes)
      (hkm : (dl.setupCrypto cif.encryptionField draws).1.withKeyMaterial prim
        ((dl.setupCrypto cif.encryptionField draws).1.withExtensions (dl.conclusionCIF cif))
          = .ok conclusion)
      (hdata : conclusion.marshal = .ok data) :
      InductionCase prim dl p cif draws
        { (dl.setupCrypto cif.encryptionField draws).1 with version := 5 }
        ((dl.setupCrypto cif.encryptionField draws).2 ++ [.send { p with payload := data }])
  | concludes4 (hversion : cif.version = 4) (data : Bytes)
      (hdata : (withoutExtensions (dl.conclusionCIF cif)).marshal = .ok data) :
      InductionCase prim dl p cif draws
        { (dl.setupCrypto cif.encryptionField draws).1 with version := 4 }
        ((dl.setupCrypto cif.encryptionField draws).2 ++ [.send { p with payload := data }])

/-- `setupCrypto` changes the crypto context only. -/
theorem setupCrypto_eq :
    (dl.setupCrypto cif.encryptionField draws).1 =
      { dl with
        crypto :=
          if dl.config.passphrase.isEmpty then dl.crypto
          else (newCrypto dl.config.pbKeylen cif.encryptionField draws).toOption } := by
  unfold setupCrypto
  split
  · rfl
  · cases newCrypto dl.config.pbKeylen cif.encryptionField draws with
    | ok cr => rfl
    | error e => rfl

/-- Every INDUCTION is one of these cases. -/
theorem handleInduction_cases {dl' : Dialer} {outputs : List Output}
    (h : dl.handleInduction prim p cif draws = .ok (dl', outputs)) :
    InductionCase prim dl p cif draws dl' outputs := by
  unfold handleInduction at h
  by_cases hunsup : cif.version < 4 ∨ cif.version > 5
  · rw [if_pos hunsup] at h
    cases h
    refine .unsupported ?_
    rintro (h4 | h5)
    · rw [h4] at hunsup
      exact absurd hunsup (by decide)
    · rw [h5] at hunsup
      exact absurd hunsup (by decide)
  rw [if_neg hunsup] at h
  dsimp only at h
  have hconfig : (dl.setupCrypto cif.encryptionField draws).1.config = dl.config := by
    rw [setupCrypto_eq]
  by_cases h5 : cif.version = 5
  · rw [if_pos h5] at h
    by_cases hmagic : cif.extensionField = 0x4A17
    · rw [if_neg (not_not.mpr hmagic)] at h
      split at h
      · rename_i conclusion hkm
        unfold sendCIF at h
        obtain ⟨data, hdata, hret⟩ := bind_eq_ok_iff.mp h
        cases hret
        exact .concludes5 h5 hmagic conclusion data hkm hdata
      · cases h
      · rename_i message hkm
        cases h
        -- Key material fails only where there is a crypto context.
        unfold withKeyMaterial at hkm
        dsimp only at hkm
        split at hkm
        · cases hkm
        · rename_i cr hcr
          split at hkm
          · cases hkm
          · rename_i km e hres
            cases hkm
            refine .noKeyMaterial h5 hmagic cr message hcr ?_
            rw [← hconfig]
            exact congrArg Prod.snd hres
    · rw [if_pos hmagic] at h
      cases h
      exact .wrongMagic h5 hmagic
  · rw [if_neg h5] at h
    have h4 := (version_cases hunsup).resolve_right h5
    unfold sendCIF at h
    obtain ⟨data, hdata, hret⟩ := bind_eq_ok_iff.mp h
    cases hret
    exact .concludes4 h4 data hdata

/-- The key material of a CONCLUSION: there is none without a crypto context. -/
theorem withKeyMaterial_cases {conclusion : CIFHandshake}
    (h : dl.withKeyMaterial prim cif = .ok conclusion) :
    (dl.crypto = none ∧ conclusion = cif) ∨
      ∃ cr km, dl.crypto = some cr ∧
        cr.marshalKM prim {} dl.config.passphrase .evenKeyEncrypted = (km, .ok ()) ∧
        conclusion = { cif with hasKM := true, srtKM := some km } := by
  unfold withKeyMaterial at h
  cases hcrypto : dl.crypto with
  | none =>
    rw [hcrypto] at h
    cases h
    exact Or.inl ⟨rfl, rfl⟩
  | some cr =>
    rw [hcrypto] at h
    dsimp only at h
    split at h
    · rename_i km hmarshal
      cases h
      exact Or.inr ⟨cr, km, rfl, hmarshal, rfl⟩
    · cases h

/-- The checks of a CONCLUSION. -/
def Passes (config : Config) (cif : CIFHandshake) : Prop :=
  (cif.version = 4 ∨ cif.version = 5) ∧ checkExtension config cif = none ∧
    config.mssTooSmall cif.maxTransmissionUnitSize = false

/-- What the handler can do with a CONCLUSION. -/
inductive ConclusionCase (dl : Dialer) (cif : CIFHandshake) (now : UInt64) :
    Dialer → List Output → Prop where
  /-- The peer may be told with a shutdown, and the MTU size may have been taken over. -/
  | refused (config : Config) (sent : List Packet) (message : String)
      (hconfig : config = dl.config ∨ config = dl.config.adjustMSS cif.maxTransmissionUnitSize)
      (hsent : ∀ q ∈ sent, q.header.controlType = CtrlType.shutdown)
      (hfails : ¬Passes dl.config cif) :
      ConclusionCase dl cif now { dl with config := config } (sent.map .send ++ [fail message])
  | created (hpasses : Passes dl.config cif) :
      ConclusionCase dl cif now
        { dl with config := dl.config.adjustMSS cif.maxTransmissionUnitSize }
        [.respond (.ok
          ({ dl with config := dl.config.adjustMSS cif.maxTransmissionUnitSize }.newConn cif now))]

/-- Every CONCLUSION is one of these cases. -/
theorem handleConclusion_cases (dl : Dialer) (cif : CIFHandshake) (now : UInt64) :
    ConclusionCase dl cif now (dl.handleConclusion cif now).1 (dl.handleConclusion cif now).2 := by
  unfold handleConclusion
  by_cases hunsup : cif.version < 4 ∨ cif.version > 5
  · rw [if_pos hunsup]
    refine .refused dl.config [] _ (Or.inl rfl) (List.forall_mem_nil _) ?_
    rintro ⟨h4 | h5, -, -⟩
    · rw [h4] at hunsup
      exact absurd hunsup (by decide)
    · rw [h5] at hunsup
      exact absurd hunsup (by decide)
  rw [if_neg hunsup]
  cases hcheck : checkExtension dl.config cif with
  | some failure =>
    have hfails : ¬Passes dl.config cif := by
      rintro ⟨-, hnone, -⟩
      rw [hcheck] at hnone
      cases hnone
    -- Some failures are told to the peer with a shutdown packet, others only to the caller.
    obtain ⟨told, message⟩ := failure
    cases told with
    | true =>
      exact .refused dl.config [_] message (Or.inl rfl) (List.forall_mem_singleton.mpr rfl) hfails
    | false => exact .refused dl.config [] message (Or.inl rfl) (List.forall_mem_nil _) hfails
  | none =>
    dsimp only
    -- The size is checked last, after the configuration has taken it over.
    by_cases hsmall : dl.config.mssTooSmall cif.maxTransmissionUnitSize = true
    · rw [if_pos hsmall]
      refine .refused _ [_] _ (Or.inr rfl) (List.forall_mem_singleton.mpr rfl) ?_
      rintro ⟨-, -, hfits⟩
      rw [hsmall] at hfits
      cases hfits
    · rw [if_neg hsmall]
      exact .created ⟨version_cases hunsup, hcheck, Bool.not_eq_true _ ▸ hsmall⟩

end

end Dialer

namespace Dialing

open Dialer

section
variable {prim : Primitives} {dl dl' : Dialer} {e : Event} {outputs : List Output}
  {cif : CIFHandshake}

/-- What a dialer writes to `connChan`. -/
def written (outputs : List Output) : List (Except String SrtConn) := outputs.filterMap response

@[simp] theorem written_nil : written [] = [] := rfl

@[simp] theorem written_append (os os' : List Output) :
    written (os ++ os') = written os ++ written os' := List.filterMap_append

@[simp] theorem written_fail (message : String) : written [fail message] = [.error message] := rfl

@[simp] theorem written_send (p : Packet) : written [.send p] = [] := rfl

@[simp] theorem written_sends (ps : List Packet) : written (ps.map .send) = [] := by
  induction ps with
  | nil => rfl
  | cons p ps ih => exact ih

/-- What the set-up of the crypto context writes: an error where `crypto.New` fails. -/
theorem written_setupCrypto (dl : Dialer) (encryptionField : UInt16) (draws : Draws) :
    (written (dl.setupCrypto encryptionField draws).2).filterMap Except.toOption = [] ∧
      (written (dl.setupCrypto encryptionField draws).2).length =
        if dl.config.passphrase.isEmpty then 0
        else if (newCrypto dl.config.pbKeylen encryptionField draws).toOption.isSome then 0
        else 1 := by
  unfold setupCrypto
  split
  · exact ⟨rfl, rfl⟩
  · cases newCrypto dl.config.pbKeylen encryptionField draws with
    | ok cr => exact ⟨rfl, rfl⟩
    | error e => exact ⟨rfl, rfl⟩

/-- What handling a packet does, as far as the connections and their encryption go. -/
structure Handled (prim : Primitives) (dl : Dialer) (e : Event) (dl' : Dialer)
    (outputs : List Output) : Prop where
  passphrase : dl'.config.passphrase = dl.config.passphrase
  pbKeylen : dl'.config.pbKeylen = dl.config.pbKeylen
  crypto : dl'.crypto =
    match induction? e.packet with
    | some cif =>
      if dl.config.passphrase.isEmpty then dl.crypto
      else (newCrypto dl.config.pbKeylen cif.encryptionField e.draws).toOption
    | none => dl.crypto
  conns :
    (Concludes dl.config e.packet ∧ ∃ conn : SrtConn, conn.crypto = dl.crypto ∧
      (written outputs).filterMap Except.toOption = [conn]) ∨
    (¬Concludes dl.config e.packet ∧ (written outputs).filterMap Except.toOption = [])
  count : (written outputs).length = reasons prim dl.config e.packet e.draws

/-- A packet that is not a CONCLUSION does not conclude. -/
theorem not_concludes {config : Config} {p : Packet} (hcif : CIFHandshake.ofPacket p = .ok cif)
    (htype : cif.handshakeType ≠ HandshakeType.conclusion) : ¬Concludes config p := by
  rintro ⟨cif', hcif', htype', -⟩
  rw [hcif] at hcif'
  cases hcif'
  exact htype htype'

theorem induction?_eq_some {p : Packet} (hcif : CIFHandshake.ofPacket p = .ok cif)
    (htype : cif.handshakeType = HandshakeType.induction)
    (hversion : cif.version = 4 ∨ cif.version = 5) : induction? p = some cif := by
  unfold induction?
  rw [hcif]
  exact if_pos ⟨htype, hversion⟩

theorem induction?_eq_none {p : Packet} (hcif : CIFHandshake.ofPacket p = .ok cif)
    (hnot : ¬(cif.handshakeType = HandshakeType.induction ∧
      (cif.version = 4 ∨ cif.version = 5))) : induction? p = none := by
  unfold induction?
  rw [hcif]
  exact if_neg hnot

/-- For a version 4 or 5 INDUCTION only the crypto context matters. -/
theorem cryptoFails_eq {config : Config} {draws : Draws}
    (htype : cif.handshakeType = HandshakeType.induction)
    (hversion : cif.version = 4 ∨ cif.version = 5) :
    cryptoFails prim config cif draws =
      (!config.passphrase.isEmpty &&
        match newCrypto config.pbKeylen cif.encryptionField draws with
        | .error _ => true
        | .ok cr =>
          cif.version == 5 && cif.extensionField == 0x4A17 &&
            (cr.marshalKM prim {} config.passphrase .evenKeyEncrypted).2 != .ok ()) := by
  unfold cryptoFails
  have hv : (cif.version == 4 || cif.version == 5) = true := by
    rcases hversion with h | h
    · rw [h]
      rfl
    · rw [h]
      rfl
  rw [htype, hv]
  rfl

/-- The number of reasons, for an INDUCTION with `fails` for the failure of its crypto
context. -/
theorem reasons_eq {config : Config} (hcif : CIFHandshake.ofPacket e.packet = .ok cif) :
    reasons prim config e.packet e.draws =
      (if Answerable cif then 0 else 1) +
        (if cryptoFails prim config cif e.draws then 1 else 0) := by
  unfold reasons
  rw [hcif]

/-- The crypto context after an INDUCTION, for a dialer that has one only with a passphrase. -/
theorem crypto_setupCrypto {draws : Draws}
    (hplain : dl.config.passphrase.isEmpty = true → dl.crypto = none) :
    (dl.setupCrypto cif.encryptionField draws).1.crypto =
      if dl.config.passphrase.isEmpty then none
      else (newCrypto dl.config.pbKeylen cif.encryptionField draws).toOption := by
  rw [setupCrypto_eq]
  dsimp only
  split
  · rename_i hempty
    exact hplain hempty
  · rfl

/-- No crypto context is set up for an unknown version. -/
theorem cryptoFails_of_unsupported (prim : Primitives) (config : Config) (draws : Draws)
    (hversion : ¬(cif.version = 4 ∨ cif.version = 5)) :
    cryptoFails prim config cif draws = false := by
  have hv : (cif.version == 4 || cif.version == 5) = false := by
    rw [Bool.or_eq_false_iff, beq_eq_false_iff_ne, beq_eq_false_iff_ne]
    exact not_or.mp hversion
  unfold cryptoFails
  rw [hv, Bool.and_false]
  rfl

/-- A crypto context comes from `crypto.New`, for a dialer with a passphrase. -/
theorem newCrypto_of_setupCrypto {draws : Draws} {cr : Crypto}
    (hplain : dl.config.passphrase.isEmpty = true → dl.crypto = none)
    (hcr : (dl.setupCrypto cif.encryptionField draws).1.crypto = some cr) :
    dl.config.passphrase.isEmpty = false ∧
      newCrypto dl.config.pbKeylen cif.encryptionField draws = .ok cr := by
  rw [crypto_setupCrypto hplain] at hcr
  cases hempty : dl.config.passphrase.isEmpty with
  | true =>
    rw [hempty] at hcr
    cases hcr
  | false =>
    rw [hempty, if_neg Bool.false_ne_true] at hcr
    exact ⟨rfl, eq_ok_of_toOption hcr⟩

/-- Where the CONCLUSION is sent, only `crypto.New` can have failed. -/
theorem length_written_concludes {cif conclusion : CIFHandshake} {draws : Draws}
    (hplain : dl.config.passphrase.isEmpty = true → dl.crypto = none)
    (htype : cif.handshakeType = HandshakeType.induction) (hversion : cif.version = 5)
    (hkm : (dl.setupCrypto cif.encryptionField draws).1.withKeyMaterial prim
      ((dl.setupCrypto cif.encryptionField draws).1.withExtensions (dl.conclusionCIF cif))
        = .ok conclusion) :
    (written (dl.setupCrypto cif.encryptionField draws).2).length =
      if cryptoFails prim dl.config cif draws then 1 else 0 := by
  have hsetup := (written_setupCrypto dl cif.encryptionField draws).2
  have hconfig : (dl.setupCrypto cif.encryptionField draws).1.config = dl.config := by
    rw [setupCrypto_eq]
  rw [hsetup, cryptoFails_eq htype (Or.inr hversion)]
  rcases withKeyMaterial_cases hkm with ⟨hnone, -⟩ | ⟨cr, km, hcr, hmarshal, -⟩
  · -- Without a context: no passphrase, or `crypto.New` failed.
    rw [crypto_setupCrypto hplain] at hnone
    cases hempty : dl.config.passphrase.isEmpty with
    | true => rfl
    | false =>
      rw [hempty, if_neg Bool.false_ne_true] at hnone
      cases hnew : newCrypto dl.config.pbKeylen cif.encryptionField draws with
      | error e => rfl
      | ok cr =>
        rw [hnew] at hnone
        cases hnone
  · obtain ⟨hempty, hnew⟩ := newCrypto_of_setupCrypto hplain hcr
    rw [hconfig] at hmarshal
    rw [hempty, hnew]
    simp [hmarshal, Except.toOption]

/-- The count for an INDUCTION. -/
theorem count_induction (hplain : dl.config.passphrase.isEmpty = true → dl.crypto = none)
    (htype : cif.handshakeType = HandshakeType.induction)
    (hcase : InductionCase prim dl (answer e.packet e.now.toUInt32) cif e.draws dl' outputs) :
    (written outputs).length =
      (if Answerable cif then 0 else 1) +
        (if cryptoFails prim dl.config cif e.draws then 1 else 0) := by
  have hsetup := (written_setupCrypto dl cif.encryptionField e.draws).2
  cases hcase with
  | unsupported hversion =>
    have hnot : ¬Answerable cif := by
      rintro ⟨-, h4 | ⟨h5, -⟩⟩
      · exact hversion (Or.inl h4)
      · exact hversion (Or.inr h5)
    rw [cryptoFails_of_unsupported prim dl.config e.draws hversion, if_neg hnot]
    rfl
  | wrongMagic hversion hmagic =>
    have hnot : ¬Answerable cif := by
      rintro ⟨-, h4 | ⟨-, hm⟩⟩
      · rw [hversion] at h4
        cases h4
      · exact hmagic hm
    -- The magic number is looked at after `crypto.New`, so there can be two errors.
    rw [written_append, List.length_append, hsetup, if_neg hnot,
      cryptoFails_eq htype (Or.inr hversion), beq_eq_false_iff_ne.mpr hmagic]
    cases dl.config.passphrase.isEmpty <;>
      cases newCrypto dl.config.pbKeylen cif.encryptionField e.draws <;> simp [Except.toOption]
  | noKeyMaterial hversion hmagic cr message hcr hkm =>
    have hans : Answerable cif := ⟨htype, Or.inr ⟨hversion, hmagic⟩⟩
    obtain ⟨hempty, hnew⟩ := newCrypto_of_setupCrypto hplain hcr
    rw [written_append, List.length_append, hsetup, if_pos hans,
      cryptoFails_eq htype (Or.inr hversion), hversion, hmagic, hempty, hnew]
    simp [hkm, Except.toOption]
  | concludes5 hversion hmagic conclusion data hkm hdata =>
    have hans : Answerable cif := ⟨htype, Or.inr ⟨hversion, hmagic⟩⟩
    rw [written_append, List.length_append, length_written_concludes hplain htype hversion hkm,
      if_pos hans]
    exact Nat.add_comm _ _
  | concludes4 hversion data hdata =>
    have hans : Answerable cif := ⟨htype, Or.inl hversion⟩
    -- A version 4 CONCLUSION has no key material that could fail.
    rw [written_append, List.length_append, hsetup, if_pos hans,
      cryptoFails_eq htype (Or.inl hversion), hversion]
    cases dl.config.passphrase.isEmpty <;>
      cases newCrypto dl.config.pbKeylen cif.encryptionField e.draws <;> simp [Except.toOption]

/-- What an INDUCTION of a known version does, given the outputs after the set-up. -/
theorem handled_setupCrypto {rest : List Output} (version : UInt32)
    (hcif : CIFHandshake.ofPacket e.packet = .ok cif)
    (htype : cif.handshakeType = HandshakeType.induction)
    (hversion : cif.version = 4 ∨ cif.version = 5)
    (hrest : (written rest).filterMap Except.toOption = [])
    (hcount : (written ((dl.setupCrypto cif.encryptionField e.draws).2 ++ rest)).length =
      reasons prim dl.config e.packet e.draws) :
    Handled prim dl e { (dl.setupCrypto cif.encryptionField e.draws).1 with version := version }
      ((dl.setupCrypto cif.encryptionField e.draws).2 ++ rest) := by
  have hnot : ¬Concludes dl.config e.packet := not_concludes hcif (by rw [htype]; decide)
  have hsetup := (written_setupCrypto dl cif.encryptionField e.draws).1
  refine ⟨by rw [setupCrypto_eq], by rw [setupCrypto_eq], ?_, Or.inr ⟨hnot, ?_⟩, hcount⟩
  · rw [induction?_eq_some hcif htype hversion, setupCrypto_eq]
  · rw [written_append, List.filterMap_append, hsetup, hrest]
    rfl

/-- What an INDUCTION does, in each of its cases. -/
theorem handled_induction (hplain : dl.config.passphrase.isEmpty = true → dl.crypto = none)
    (hcif : CIFHandshake.ofPacket e.packet = .ok cif)
    (htype : cif.handshakeType = HandshakeType.induction)
    (hcase : InductionCase prim dl (answer e.packet e.now.toUInt32) cif e.draws dl' outputs) :
    Handled prim dl e dl' outputs := by
  have hnot : ¬Concludes dl.config e.packet := not_concludes hcif (by rw [htype]; decide)
  have hcount := count_induction hplain htype hcase
  rw [← reasons_eq hcif] at hcount
  cases hcase with
  | unsupported hversion =>
    refine ⟨rfl, rfl, ?_, Or.inr ⟨hnot, rfl⟩, hcount⟩
    rw [induction?_eq_none hcif fun h => hversion h.2]
  | wrongMagic hversion _ => exact handled_setupCrypto 5 hcif htype (Or.inr hversion) rfl hcount
  | noKeyMaterial hversion _ _ _ _ _ =>
    exact handled_setupCrypto 5 hcif htype (Or.inr hversion) rfl hcount
  | concludes5 hversion _ _ _ _ _ =>
    exact handled_setupCrypto 5 hcif htype (Or.inr hversion) rfl hcount
  | concludes4 hversion _ _ => exact handled_setupCrypto 4 hcif htype (Or.inl hversion) rfl hcount

theorem reasons_of_ne_induction (prim : Primitives) (config : Config)
    (hcif : CIFHandshake.ofPacket e.packet = .ok cif)
    (htype : cif.handshakeType ≠ HandshakeType.induction) :
    reasons prim config e.packet e.draws = 1 := by
  have hfails : cryptoFails prim config cif e.draws = false := by
    unfold cryptoFails
    rw [beq_eq_false_iff_ne.mpr htype]
    rfl
  rw [reasons_eq hcif, if_neg (fun h => htype h.1), hfails]
  rfl

/-- What a CONCLUSION does: it writes one response. -/
theorem handled_conclusion (hcif : CIFHandshake.ofPacket e.packet = .ok cif)
    (htype : cif.handshakeType = HandshakeType.conclusion)
    (hcase : ConclusionCase dl cif e.now dl' outputs) : Handled prim dl e dl' outputs := by
  have hne : cif.handshakeType ≠ HandshakeType.induction := by
    rw [htype]
    decide
  have hcount := reasons_of_ne_induction prim dl.config hcif hne
  have hinduction := induction?_eq_none hcif fun h => hne h.1
  have hpasses : Concludes dl.config e.packet → Passes dl.config cif := by
    rintro ⟨cif', hcif', -, h⟩
    rw [hcif] at hcif'
    cases hcif'
    exact h
  have hadjust := dl.config.adjustMSS_fields cif.maxTransmissionUnitSize
  cases hcase with
  | refused config sent message hconfig _ hfails =>
    -- A refused CONCLUSION can have shrunk the MTU size, but it leaves the passphrase alone.
    have hfields : config.passphrase = dl.config.passphrase ∧
        config.pbKeylen = dl.config.pbKeylen := by
      rcases hconfig with rfl | rfl
      · exact ⟨rfl, rfl⟩
      · exact ⟨hadjust.1, hadjust.2.1⟩
    refine ⟨hfields.1, hfields.2, ?_, Or.inr ⟨fun h => hfails (hpasses h), ?_⟩, ?_⟩
    · rw [hinduction]
    · rw [written_append, written_sends]
      rfl
    · rw [hcount, written_append, written_sends]
      rfl
  | created hpass =>
    refine ⟨hadjust.1, hadjust.2.1, ?_, Or.inl ⟨⟨cif, hcif, htype, hpass⟩, _, ?_, rfl⟩, ?_⟩
    · rw [hinduction]
    · rfl
    · rw [hcount]
      rfl

/-- The handler, whatever the packet. -/
theorem handled (hplain : dl.config.passphrase.isEmpty = true → dl.crypto = none)
    (h : dl.handleHandshake prim e.packet e.draws e.now = .ok (dl', outputs)) :
    Handled prim dl e dl' outputs := by
  unfold handleHandshake at h
  cases hcif : CIFHandshake.ofPacket e.packet with
  | error fault =>
    rw [hcif] at h
    have hnot : ¬Concludes dl.config e.packet := by
      rintro ⟨cif, hok, -⟩
      rw [hcif] at hok
      cases hok
    have hinduction : induction? e.packet = none := by
      unfold induction?
      rw [hcif]
    cases fault with
    -- A packet that makes `Unmarshal` panic makes the handler panic.
    | panic => cases h
    | error message =>
      cases h
      refine ⟨rfl, rfl, ?_, Or.inr ⟨hnot, rfl⟩, ?_⟩
      · rw [hinduction]
      · unfold reasons
        rw [hcif]
        rfl
  | ok cif =>
    rw [hcif] at h
    dsimp only at h
    by_cases hind : cif.handshakeType = HandshakeType.induction
    · rw [if_pos hind] at h
      exact handled_induction hplain hcif hind (handleInduction_cases h)
    rw [if_neg hind] at h
    by_cases hconc : cif.handshakeType = HandshakeType.conclusion
    · rw [if_pos hconc] at h
      have hcase := handleConclusion_cases dl cif e.now
      rw [Except.ok.inj h] at hcase
      exact handled_conclusion hcif hconc hcase
    · rw [if_neg hconc] at h
      cases h
      refine ⟨rfl, rfl, ?_, Or.inr ⟨not_concludes hcif hconc, rfl⟩, ?_⟩
      · rw [induction?_eq_none hcif fun h => hind h.1]
      · rw [reasons_of_ne_induction prim dl.config hcif hind]
        rfl

/-- What a step does. -/
theorem step_handled {s s' : Dialing}
    (hplain : s.dialer.config.passphrase.isEmpty = true → s.dialer.crypto = none)
    (hs : step prim s e = some s') :
    ∃ outputs, Handled prim s.dialer e s'.dialer outputs ∧
      s'.heard = s.heard ++ [(e.packet, e.draws)] ∧
      s'.responses = s.responses ++ written outputs ∧
      s'.conns = s.conns ++ (written outputs).filterMap Except.toOption := by
  unfold step at hs
  split at hs
  · rename_i dl' outputs h
    cases hs
    exact ⟨outputs, handled hplain h, rfl, rfl, List.filterMap_append⟩
  · cases hs

end

/-! ### Encrypted connections -/

section
variable {prim : Primitives} {s s' : Dialing} {e : Event}

/-- Whether the dialer has a context is decided by the last INDUCTION. -/
theorem keyed_append (pbKeylen : Int) (heard : List (Packet × Draws)) (x : Packet × Draws) :
    keyed pbKeylen (heard ++ [x]) =
      match induction? x.1 with
      | some cif => (newCrypto pbKeylen cif.encryptionField x.2).toOption.isSome
      | none => keyed pbKeylen heard := by
  unfold keyed
  rw [List.foldl_append]
  rfl

/-- The invariant of a dialer with a passphrase: the packets tell whether it has a crypto
context, and its connections are encrypted. -/
structure Encrypting (s : Dialing) : Prop where
  passphrase : s.dialer.config.passphrase ≠ []
  crypto : s.dialer.crypto.isSome = keyed s.dialer.config.pbKeylen s.heard
  conns : ∀ conn ∈ s.conns, conn.crypto.isSome = true

/-- With a passphrase the side condition of `step_handled` is met. -/
theorem Encrypting.not_plain (h : s.Encrypting) :
    s.dialer.config.passphrase.isEmpty = true → s.dialer.crypto = none := by
  intro hempty
  exact absurd (List.isEmpty_iff.mp hempty) h.passphrase

/-- A step in order keeps the invariant. -/
theorem Encrypting.step (h : s.Encrypting) (hC : InOrder s e)
    (hs : Dialing.step prim s e = some s') : s'.Encrypting := by
  obtain ⟨outputs, hh, hheard, -, hconns⟩ := step_handled h.not_plain hs
  constructor
  · rw [hh.passphrase]
    exact h.passphrase
  · rw [hh.crypto, hh.pbKeylen, hheard, keyed_append]
    cases induction? e.packet with
    | none => exact h.crypto
    | some cif =>
      dsimp only
      rw [if_neg fun hempty => h.passphrase (List.isEmpty_iff.mp hempty)]
  · intro conn hconn
    rw [hconns] at hconn
    rcases List.mem_append.mp hconn with hconn | hconn
    · exact h.conns conn hconn
    · rcases hh.conns with ⟨hconcludes, new, hnew, hlist⟩ | ⟨-, hlist⟩
      · rw [hlist] at hconn
        cases List.mem_singleton.mp hconn
        rw [hnew, h.crypto]
        exact hC hconcludes
      · rw [hlist] at hconn
        cases hconn

/-- If the connections are encrypted after a step, it was in order. -/
theorem Encrypting.inOrder (h : s.Encrypting) (hs : Dialing.step prim s e = some s')
    (hgood : ∀ conn ∈ s'.conns, conn.crypto.isSome = true) : InOrder s e := by
  obtain ⟨outputs, hh, -, -, hconns⟩ := step_handled h.not_plain hs
  intro hconcludes
  rcases hh.conns with ⟨-, new, hnew, hlist⟩ | ⟨hnot, -⟩
  · have hmem : new ∈ s'.conns := by
      rw [hconns, hlist]
      exact List.mem_append_right _ (List.mem_singleton.mpr rfl)
    rw [← h.crypto, ← hnew]
    exact hgood new hmem
  · exact absurd hconcludes hnot

theorem conns_subset_step (hs : Dialing.step prim s e = some s') :
    ∀ conn ∈ s.conns, conn ∈ s'.conns := by
  intro conn hconn
  unfold Dialing.step at hs
  split at hs
  · cases hs
    show conn ∈ List.filterMap Except.toOption (s.responses ++ _)
    rw [List.filterMap_append]
    exact List.mem_append_left _ hconn
  · cases hs

/-- A dialer with a passphrase makes only encrypted connections exactly when each CONCLUSION
that it accepts comes after an INDUCTION for which `crypto.New` succeeded. -/
theorem encrypted_iff_inOrder (prim : Primitives) (config : Config)
    (localAddr remoteAddr : Option String) (localIP : IP) (socketId seqNum : UInt32)
    (hpass : config.passphrase ≠ []) (events : List Event)
    (hrun : run (Dialing.step prim)
      (init (Dialer.new config localAddr remoteAddr localIP socketId seqNum)) events = some s) :
    RunMeets (Dialing.step prim) InOrder
        (init (Dialer.new config localAddr remoteAddr localIP socketId seqNum)) events ↔
      ∀ conn ∈ s.conns, conn.crypto.isSome = true :=
  runMeets_iff (P := Encrypting) (fun _ _ _ hC h hs => h.step hC hs) (fun _ h => h.conns)
    (fun _ _ _ h hs hgood => h.inOrder hs hgood)
    (fun _ _ _ hs hgood conn hconn => hgood conn (conns_subset_step hs conn hconn))
    ⟨hpass, rfl, fun _ hconn => nomatch hconn⟩ hrun

end

/-- A dialer with the sample passphrase. -/
def sampleDialer : Dialer :=
  Dialer.new (Sample.config 4 1) (some "127.0.0.1:50000") (some "127.0.0.1:6000")
    (IP.ipv4 127 0 0 1) 7 1

/-- A version 5 message from a listener. -/
def sampleCIF (handshakeType : HandshakeType) : CIFHandshake where
  version := 5
  extensionField := 0x4A17
  initialPacketSequenceNumber := Number.new 1 maxSequenceNumber
  maxTransmissionUnitSize := 1500
  maxFlowWindowSize := 25600
  handshakeType := handshakeType
  srtSocketId := 8
  peerIP := IP.ipv4 127 0 0 1
  hasHS := handshakeType == HandshakeType.conclusion
  srtHS := some
    { srtVersion := srtVersion
      srtFlags := CIFHandshakeExtensionFlags.own
      recvTSBPDDelay := 120
      sendTSBPDDelay := 120 }

/-- The message arrives, and the draws of `crypto.New` give the sample context. -/
def sampleEvent (handshakeType : HandshakeType) : Event where
  packet :=
    { sampleDialer.handshakePacket 0 with
      payload := (sampleCIF handshakeType).marshal.toOption.getD [] }
  draws := ⟨some Sample.salt, some Sample.evenSEK, some Sample.oddSEK⟩
  now := 1000

/-- The end of a run of the sample dialer. -/
def sampleEnd (handshakeTypes : List HandshakeType) : Dialing :=
  runD (step Sample.primitives) (init sampleDialer) (handshakeTypes.map sampleEvent)

/-- The INDUCTION comes first, so the one connection is encrypted. -/
theorem inOrder_sampleEnd :
    run (step Sample.primitives) (init sampleDialer)
        ([HandshakeType.induction, HandshakeType.conclusion].map sampleEvent)
        = some (sampleEnd [HandshakeType.induction, HandshakeType.conclusion]) ∧
      (sampleEnd [HandshakeType.induction, HandshakeType.conclusion]).conns.length = 1 ∧
      RunMeets (step Sample.primitives) InOrder (init sampleDialer)
        ([HandshakeType.induction, HandshakeType.conclusion].map sampleEvent) :=
  ⟨run_eq_some_runD (by decide +kernel), by decide +kernel,
    (encrypted_iff_inOrder Sample.primitives (Sample.config 4 1) (some "127.0.0.1:50000")
      (some "127.0.0.1:6000") (IP.ipv4 127 0 0 1) 7 1 (by decide +kernel) _
      (run_eq_some_runD (by decide +kernel))).mpr (by decide +kernel)⟩

/-- A CONCLUSION that comes first makes a connection without encryption. -/
theorem not_encrypted_sampleEnd :
    sampleDialer.config.passphrase ≠ [] ∧
      run (step Sample.primitives) (init sampleDialer)
        ([HandshakeType.conclusion].map sampleEvent)
        = some (sampleEnd [HandshakeType.conclusion]) ∧
      ∃ conn ∈ (sampleEnd [HandshakeType.conclusion]).conns, conn.crypto = none :=
  ⟨by decide +kernel, run_eq_some_runD (by decide +kernel), by decide +kernel⟩

/-! ### Writes to `connChan` -/

section
variable {prim : Primitives} {s s' : Dialing}

/-- The reasons depend on the passphrase and the key length only. -/
theorem reasons_congr {c c' : Config} (hpass : c'.passphrase = c.passphrase)
    (hkey : c'.pbKeylen = c.pbKeylen) (p : Packet) (draws : Draws) :
    reasons prim c' p draws = reasons prim c p draws := by
  unfold reasons cryptoFails
  rw [hpass, hkey]

/-- A dialer without a passphrase has no crypto context. -/
theorem Handled.plain {dl dl' : Dialer} {e : Event} {outputs : List Output}
    (h : Handled prim dl e dl' outputs)
    (hplain : dl.config.passphrase.isEmpty = true → dl.crypto = none) :
    dl'.config.passphrase.isEmpty = true → dl'.crypto = none := by
  rw [h.passphrase, h.crypto]
  intro hempty
  cases induction? e.packet with
  | none => exact hplain hempty
  | some cif => exact (if_pos hempty).trans (hplain hempty)

/-- A run writes to `connChan` once for each reason. -/
theorem length_responses_run (config : Config) {events : List Event}
    (hplain : s.dialer.config.passphrase.isEmpty = true → s.dialer.crypto = none)
    (hpass : s.dialer.config.passphrase = config.passphrase)
    (hkey : s.dialer.config.pbKeylen = config.pbKeylen)
    (hrun : run (Dialing.step prim) s events = some s') :
    s'.responses.length = s.responses.length +
      (events.map fun e => reasons prim config e.packet e.draws).sum := by
  induction events generalizing s with
  | nil =>
    cases hrun
    rfl
  | cons e events ih =>
    rw [run_cons, Option.bind_eq_some_iff] at hrun
    obtain ⟨s1, hs, hrest⟩ := hrun
    obtain ⟨outputs, hh, -, hresponses, -⟩ := step_handled hplain hs
    rw [ih (hh.plain hplain) (hh.passphrase.trans hpass) (hh.pbKeylen.trans hkey) hrest,
      hresponses, List.length_append, hh.count, reasons_congr hpass hkey, List.map_cons,
      List.sum_cons, Nat.add_assoc]

/-- A run writes at most one response and creates at most one connection exactly when its
packets give at most one reason to write. -/
theorem single_response_iff (prim : Primitives) (config : Config)
    (localAddr remoteAddr : Option String) (localIP : IP) (socketId seqNum : UInt32)
    (events : List Event)
    (hrun : run (Dialing.step prim)
      (init (Dialer.new config localAddr remoteAddr localIP socketId seqNum)) events = some s) :
    (s.responses.length ≤ 1 ∧ s.conns.length ≤ 1) ↔
      (events.map fun e => reasons prim config e.packet e.draws).sum ≤ 1 := by
  have hcount := length_responses_run config (fun _ => rfl) rfl rfl hrun
  rw [← Nat.zero_add (List.sum _), ← show (init (Dialer.new config localAddr remoteAddr localIP
    socketId seqNum)).responses.length = 0 from rfl, ← hcount]
  constructor
  · intro h
    exact h.1
  · intro h
    exact ⟨h, (List.length_filterMap_le _ _).trans h⟩

end

/-- One INDUCTION and one CONCLUSION write one response. -/
theorem single_response_sampleEnd :
    run (step Sample.primitives) (init sampleDialer)
        ([HandshakeType.induction, HandshakeType.conclusion].map sampleEvent)
        = some (sampleEnd [HandshakeType.induction, HandshakeType.conclusion]) ∧
      (sampleEnd [HandshakeType.induction, HandshakeType.conclusion]).responses.length ≤ 1 ∧
      (sampleEnd [HandshakeType.induction, HandshakeType.conclusion]).conns.length ≤ 1 :=
  ⟨run_eq_some_runD (by decide +kernel),
    (single_response_iff Sample.primitives (Sample.config 4 1) (some "127.0.0.1:50000")
      (some "127.0.0.1:6000") (IP.ipv4 127 0 0 1) 7 1 _
      (run_eq_some_runD (by decide +kernel))).mpr (by decide +kernel)⟩

/-- A CONCLUSION that arrives twice makes two connections. -/
theorem two_responses_sampleEnd :
    run (step Sample.primitives) (init sampleDialer)
        ([HandshakeType.induction, HandshakeType.conclusion,
          HandshakeType.conclusion].map sampleEvent)
        = some (sampleEnd [HandshakeType.induction, HandshakeType.conclusion,
          HandshakeType.conclusion]) ∧
      (sampleEnd [HandshakeType.induction, HandshakeType.conclusion,
        HandshakeType.conclusion]).responses.length = 2 ∧
      (sampleEnd [HandshakeType.induction, HandshakeType.conclusion,
        HandshakeType.conclusion]).conns.length = 2 :=
  ⟨run_eq_some_runD (by decide +kernel), by decide +kernel⟩

end Dialing

end Gosrt
