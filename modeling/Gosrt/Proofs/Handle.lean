import Gosrt.Proofs.Handshake
import Gosrt.Spec.Handle

/-!
# `Gosrt.Proofs.Handle`: what a received packet does to a connection

`handlePacket` returns for every packet: no content of a packet makes a decoder panic. Only a
data packet, and one that is no filter packet, touches the state of the time base or goes to
`recv.Push`. Only a key material request touches the key in use (`KeyStep`), and only a version 4
connection stops its requests. `Handled` says all this of a control packet.

`Timing.step_data` and `Timing.step_other` say what a step of a run does to the time base, and the
proofs about the time base use nothing else of the handlers.
-/

set_option autoImplicit false

namespace Gosrt

open Lib

/-! ### The decoders do not panic -/

theorem CIFHandshakeExtension.unmarshal_noPanic (data : Bytes) :
    NoPanic (CIFHandshakeExtension.unmarshal data) := by
  by_cases h : 12 ≤ data.length
  · obtain ⟨hs, hok⟩ := CIFHandshakeExtension.unmarshal_ok data h
    rw [hok]
    exact noPanic_ok hs
  · unfold CIFHandshakeExtension.unmarshal
    rw [if_pos (by omega)]
    exact noPanic_err _

namespace CIFACK

theorem number_noPanic {data : Bytes} (h : 4 ≤ data.length) : NoPanic (number data) :=
  noPanic_bind (noPanic_orPanic (uint32_isSome _ _ (by omega))) fun _ _ => noPanic_pure _

theorem unmarshal_noPanic (data : Bytes) : NoPanic (unmarshal data) := by
  -- Each word is read after the check of the length that covers it.
  have hword : ∀ i, i + 4 ≤ data.length → NoPanic (orPanic (uint32 data i)) :=
    fun i hi => noPanic_orPanic (uint32_isSome data i hi)
  unfold unmarshal
  refine noPanic_ite (fun h => ?_) fun _ => noPanic_ite (fun h => ?_) fun _ =>
    noPanic_check fun h => ?_
  · exact noPanic_bind (number_noPanic (by omega)) fun _ _ => noPanic_pure _
  · refine noPanic_bind (number_noPanic (by omega)) fun _ _ => ?_
    refine noPanic_bind (hword 4 (by omega)) fun _ _ => ?_
    refine noPanic_bind (hword 8 (by omega)) fun _ _ => ?_
    exact noPanic_bind (hword 12 (by omega)) fun _ _ => noPanic_pure _
  · refine noPanic_bind (number_noPanic (by omega)) fun _ _ => ?_
    refine noPanic_bind (hword 4 (by omega)) fun _ _ => ?_
    refine noPanic_bind (hword 8 (by omega)) fun _ _ => ?_
    refine noPanic_bind (hword 12 (by omega)) fun _ _ => ?_
    refine noPanic_bind (hword 16 (by omega)) fun _ _ => ?_
    refine noPanic_bind (hword 20 (by omega)) fun _ _ => ?_
    exact noPanic_bind (hword 24 (by omega)) fun _ _ => noPanic_pure _

end CIFACK

theorem CIFNAK.unmarshal_noPanic (sort : SortSlice) (data : Bytes) :
    NoPanic (CIFNAK.unmarshal sort data) :=
  noPanic_check fun _ => noPanic_check fun _ => noPanic_ok _

/-- The text that is unwrapped has at least the eight bytes of the check value. -/
theorem Crypto.unmarshalKM_noPanic (prim : Primitives) (c : Crypto)
    (km : CIFKeyMaterialExtension) (passphrase : Bytes) :
    NoPanic (c.unmarshalKM prim km passphrase).2 := by
  unfold unmarshalKM
  split
  · exact noPanic_err _
  dsimp only
  split
  · exact noPanic_err _
  rename_i hlen
  split
  · exact noPanic_err _
  rename_i kek _
  -- `unwrap` only slices the text after the checks of its length.
  have hunwrap : NoPanic (Keywrap.unwrap prim kek km.wrap) := by
    unfold Keywrap.unwrap
    refine noPanic_check fun _ => noPanic_check fun _ => ?_
    rw [if_neg (by omega)]
    exact noPanic_check fun _ => noPanic_ok _
  split
  -- The error of `unwrap` is passed on at another type.
  · rename_i e he
    rw [he] at hunwrap
    intro hpanic
    cases hpanic
    exact hunwrap rfl
  split
  · exact noPanic_err _
  · exact noPanic_ok _

/-! ### The handlers of the sending part -/

namespace SrtConn

/-- What a packet does to the crypto context and to the key in use. Only a key material request
(`kmreq`) makes a new context. -/
inductive KeyStep (kmreq : Prop) (c : SrtConn) (p : Packet) (draws : Draws) (c' : SrtConn) :
    Prop where
  | same (hcrypto : c'.crypto.isSome = c.crypto.isSome)
      (hkey : c'.keyBaseEncryption = c.keyBaseEncryption)
  | switches (hcrypto : c.crypto.isSome = true) (hcrypto' : c'.crypto.isSome = true)
      (hkey : c'.keyBaseEncryption = c.keyBaseEncryption.opposite)
  | creates (hreq : kmreq) (cif : CIFKeyMaterialExtension) (hcif : unmarshalKMCIF p = .ok cif)
      (hversion : c.version = 4) (hnone : c.crypto = none)
      (hnew : (Crypto.new cif.kLen.toNat draws.salt draws.even draws.odd).toOption.isSome = true)
      (hcrypto' : c'.crypto.isSome = true)
      (hkey : c'.keyBaseEncryption = cif.keyBasedEncryption ∨
        c'.keyBaseEncryption = cif.keyBasedEncryption.opposite)

theorem KeyStep.imp {kmreq kmreq' : Prop} {c c' : SrtConn} {p : Packet} {draws : Draws}
    (h : KeyStep kmreq c p draws c') (himp : kmreq → kmreq') : KeyStep kmreq' c p draws c' := by
  cases h with
  | same hcrypto hkey => exact .same hcrypto hkey
  | switches hcrypto hcrypto' hkey => exact .switches hcrypto hcrypto' hkey
  | creates hreq cif hcif hversion hnone hnew hcrypto' hkey =>
    exact .creates (himp hreq) cif hcif hversion hnone hnew hcrypto' hkey

/-- The delay is the one of `c`, or one that a request of version 4 has set: a number of
milliseconds that fits 16 bits. -/
def KeepsDelay (c c' : SrtConn) : Prop :=
  c'.tsbpdDelay = c.tsbpdDelay ∨ c'.tsbpdDelay.toNat ≤ 65535000

theorem toNat_ms16_delay_le (ms : UInt16) : (ms.toUInt64 * 1000).toNat ≤ 65535000 := by
  have hms := ms.toNat_lt
  rw [UInt64.toNat_mul, UInt16.toNat_toUInt64, show (1000 : UInt64).toNat = 1000 from rfl,
    Nat.mod_eq_of_lt (by omega)]
  omega

/-- What a control packet does, with the packet and the draws of its handler: it keeps the time
base and the version, changes the delay only as `KeepsDelay` says, and gives nothing to
`recv.Push`. -/
structure Handled (kmreq : Prop) (c : SrtConn) (p : Packet) (draws : Draws) (c' : SrtConn)
    (outputs : List Output) : Prop where
  tsbpdTimeBase : c'.tsbpdTimeBase = c.tsbpdTimeBase
  version : c'.version = c.version
  tsbpdDelay : c.KeepsDelay c'
  key : KeyStep kmreq c p draws c'
  push : outputs.filterMap Timing.push? = []
  stopHSRequests : .stopHSRequests ∈ outputs → c.version = 4
  stopKMRequests : .effect .stopKMRequests ∈ outputs → c.version = 4

/-- The handler returns. -/
def Answers (kmreq : Prop) (c : SrtConn) (p : Packet) (draws : Draws)
    (x : Go (SrtConn × List Output)) : Prop :=
  ∃ c' outputs, x = .ok (c', outputs) ∧ c.Handled kmreq p draws c' outputs

/-- What a request of version 4 does. -/
inductive RequestCase (c : SrtConn) (p : Packet) : SrtConn → List Output → Prop where
  | invalid (hinvalid : ∀ cif, CIFHandshakeExtension.unmarshal p.payload ≠ .ok cif) :
      RequestCase c p c.countInvalid []
  | refused (cif : CIFHandshakeExtension)
      (hcif : CIFHandshakeExtension.unmarshal p.payload = .ok cif)
      (hrefused : refusesHS cif.srtFlags.tsbpdsnd cif = true) : RequestCase c p c [.effect .close]
  | accepted (cif : CIFHandshakeExtension)
      (hcif : CIFHandshakeExtension.unmarshal p.payload = .ok cif)
      (haccepted : refusesHS cif.srtFlags.tsbpdsnd cif = false) (answer : Packet) :
      RequestCase c p
        { c with tsbpdDelay :=
          (max cif.sendTSBPDDelay c.config.receiverLatency.ms16).toUInt64 * 1000 }
        [.send answer]

/-- Every handshake request is one of these cases. -/
theorem handleHSRequest_cases {c c' : SrtConn} {p : Packet} {outputs : List Output}
    (h : c.handleHSRequest p = .ok (c', outputs)) : RequestCase c p c' outputs := by
  unfold handleHSRequest at h
  rcases attempt_cases (CIFHandshakeExtension.unmarshal_noPanic p.payload) with
    hnone | ⟨cif, hcif, hsome⟩
  · rw [hnone] at h
    cases h
    refine .invalid fun cif hcif => ?_
    rw [hcif] at hnone
    cases hnone
  · rw [hsome, ok_bind] at h
    dsimp only at h
    split at h
    · rename_i hrefused
      cases h
      exact .refused cif hcif hrefused
    · rename_i haccepted
      cases h
      exact .accepted cif hcif (Bool.eq_false_iff.mpr haccepted) _

section
variable (c : SrtConn) (p : Packet) (draws : Draws)

/-- A handshake request is answered and leaves the keys. -/
theorem handleHSRequest_answers : c.Answers False p draws (c.handleHSRequest p) := by
  unfold handleHSRequest
  rcases attempt_cases (CIFHandshakeExtension.unmarshal_noPanic p.payload) with h | ⟨cif, -, h⟩
  · rw [h]
    exact ⟨_, _, rfl, rfl, rfl, .inl rfl, .same rfl rfl, rfl, by simp, by simp⟩
  · rw [h, ok_bind]
    dsimp only
    split
    · exact ⟨_, _, rfl, rfl, rfl, .inl rfl, .same rfl rfl, rfl, by simp, by simp⟩
    · exact ⟨_, _, rfl, rfl, rfl, .inr (toNat_ms16_delay_le _), .same rfl rfl, rfl, by simp,
        by simp⟩

theorem handleHSResponse_answers : c.Answers False p draws (c.handleHSResponse p) := by
  unfold handleHSResponse
  rcases attempt_cases (CIFHandshakeExtension.unmarshal_noPanic p.payload) with h | ⟨cif, -, h⟩
  · rw [h]
    exact ⟨_, _, rfl, rfl, rfl, .inl rfl, .same rfl rfl, rfl, by simp, by simp⟩
  · rw [h, ok_bind]
    dsimp only
    split
    · exact ⟨_, _, rfl, rfl, rfl, .inl rfl, .same rfl rfl, rfl, by simp, by simp⟩
    rename_i hversion
    split
    · exact ⟨_, _, rfl, rfl, rfl, .inl rfl, .same rfl rfl, rfl, by simp, by simp⟩
    · exact ⟨_, _, rfl, rfl, rfl, .inl rfl, .same rfl rfl, rfl, fun _ => not_not.mp hversion,
        by simp⟩

/-- The context of a key material request: the one that is there, or a new one. -/
theorem prepareCrypto_cases {c c' : SrtConn} {cif : CIFKeyMaterialExtension} {draws : Draws}
    (h : c.prepareCrypto cif draws = some c') :
    c' = c ∨ (c.version = 4 ∧ c.crypto = none ∧ ∃ crypto,
      (Crypto.new cif.kLen.toNat draws.salt draws.even draws.odd).toOption = some crypto ∧
      c' = { c with
        keyBaseEncryption := cif.keyBasedEncryption.opposite, crypto := some crypto }) := by
  unfold prepareCrypto at h
  split at h
  · rename_i hnew
    obtain ⟨crypto, hcrypto, rfl⟩ := Option.map_eq_some_iff.mp h
    exact Or.inr ⟨hnew.1, hnew.2, crypto, hcrypto, rfl⟩
  · exact Or.inl (Option.some.inj h).symm

theorem unmarshalKMCIF_noPanic (p : Packet) : NoPanic (unmarshalKMCIF p) :=
  noPanic_ite (fun _ => CIFKeyMaterialExtension.unmarshal_noPanic _ _) fun _ => noPanic_ok _

/-- What the request does after it has its context `c₁`, as a step from the connection before. -/
theorem keyStep_of_prepareCrypto {c c₁ c' : SrtConn} {p : Packet} {cif : CIFKeyMaterialExtension}
    {draws : Draws} {count : UInt64} (hcif : unmarshalKMCIF p = .ok cif)
    (hprepare : ({ c with pktRecvKM := count } : SrtConn).prepareCrypto cif draws = some c₁)
    (hcrypto : c₁.crypto.isSome = true) (hcrypto' : c'.crypto.isSome = true)
    (hkey : c'.keyBaseEncryption = c₁.keyBaseEncryption ∨
      c'.keyBaseEncryption = c₁.keyBaseEncryption.opposite) :
    KeyStep True c p draws c' := by
  rcases prepareCrypto_cases hprepare with rfl | ⟨hversion, hnone, crypto, hnew, rfl⟩
  · rcases hkey with hkey | hkey
    · exact .same (hcrypto'.trans hcrypto.symm) hkey
    · exact .switches hcrypto hcrypto' hkey
  · refine .creates trivial cif hcif hversion hnone (by rw [hnew]; rfl) hcrypto' ?_
    rw [PacketEncryption.opposite_opposite] at hkey
    exact hkey.symm

theorem prepareCrypto_fields {c c₁ : SrtConn} {cif : CIFKeyMaterialExtension} {draws : Draws}
    (h : c.prepareCrypto cif draws = some c₁) :
    c₁.tsbpdTimeBase = c.tsbpdTimeBase ∧ c₁.version = c.version ∧ c.KeepsDelay c₁ := by
  rcases prepareCrypto_cases h with rfl | ⟨-, -, crypto, -, rfl⟩
  · exact ⟨rfl, rfl, .inl rfl⟩
  · exact ⟨rfl, rfl, .inl rfl⟩

/-- The one handler that may bring a context. -/
theorem handleKMRequest_answers (prim : Primitives) :
    c.Answers True p draws (c.handleKMRequest prim p draws) := by
  unfold handleKMRequest
  rcases attempt_cases (unmarshalKMCIF_noPanic p) with h | ⟨cif, hcif, h⟩
  · rw [h]
    exact ⟨_, _, rfl, rfl, rfl, .inl rfl, .same rfl rfl, rfl, by simp, by simp⟩
  rw [h, ok_bind]
  dsimp only
  split
  · exact ⟨_, _, rfl, rfl, rfl, .inl rfl, .same rfl rfl, rfl, by simp, by simp⟩
  -- From here on the connection is the one that has a crypto context.
  rename_i c₁ hprepare
  obtain ⟨hbase, hversion, hdelay⟩ := prepareCrypto_fields hprepare
  split
  · rename_i hnone
    rcases prepareCrypto_cases hprepare with rfl | ⟨-, -, crypto, -, rfl⟩
    · exact ⟨_, _, rfl, rfl, rfl, .inl rfl, .same rfl rfl, rfl, by simp, by simp⟩
    · cases hnone
  rename_i crypto hsome
  have hcrypto : c₁.crypto.isSome = true := by
    rw [hsome]
    rfl
  split
  · exact ⟨_, _, rfl, hbase, hversion, hdelay,
      keyStep_of_prepareCrypto hcif hprepare hcrypto hcrypto (Or.inl rfl), rfl, by simp, by simp⟩
  rcases attempt_cases (crypto.unmarshalKM_noPanic prim cif c₁.config.passphrase)
    with hkm | ⟨_, -, hkm⟩
  · rw [hkm]
    exact ⟨_, _, rfl, hbase, hversion, hdelay,
      keyStep_of_prepareCrypto hcif hprepare hcrypto rfl (Or.inl rfl), rfl, by simp, by simp⟩
  · rw [hkm]
    exact ⟨_, _, rfl, hbase, hversion, hdelay,
      keyStep_of_prepareCrypto hcif hprepare hcrypto rfl (Or.inr rfl), rfl, by simp, by simp⟩

theorem handleKMResponse_handled :
    c.Handled False p draws (c.handleKMResponse p).1
      ((c.handleKMResponse p).2.map Output.effect) := by
  unfold handleKMResponse
  dsimp only
  split
  · exact ⟨rfl, rfl, .inl rfl, .same rfl rfl, rfl, by simp, by simp⟩
  split
  · exact ⟨rfl, rfl, .inl rfl, .same rfl rfl, rfl, by simp, by simp⟩
  -- The branches only touch the counters and the countdown.
  split
  · rename_i hversion
    split
    · exact ⟨rfl, rfl, .inl rfl, .same rfl rfl, rfl, by simp, fun _ => hversion⟩
    · split
      · exact ⟨rfl, rfl, .inl rfl, .same rfl rfl, rfl, by simp, fun _ => hversion⟩
      · exact ⟨rfl, rfl, .inl rfl, .same rfl rfl, rfl, by simp, fun _ => hversion⟩
  · split
    · exact ⟨rfl, rfl, .inl rfl, .same rfl rfl, rfl, by simp, by simp⟩
    · exact ⟨rfl, rfl, .inl rfl, .same rfl rfl, rfl, by simp, by simp⟩

end

/-- What leaves the connection does not touch its time base and its version. The key switches at
the end of a period. -/
theorem pop_handled (prim : Primitives) (c : SrtConn) (p : Packet) (timestamp : UInt32)
    (random : Entropy) (draws : Draws) :
    c.Handled False p draws (c.pop prim p timestamp random).1 [] := by
  unfold pop
  dsimp only
  split
  · exact ⟨rfl, rfl, .inl rfl, .same rfl rfl, rfl, by simp, by simp⟩
  split
  · exact ⟨rfl, rfl, .inl rfl, .same rfl rfl, rfl, by simp, by simp⟩
  rename_i crypto hcrypto
  have hsome : c.crypto.isSome = true := by
    rw [hcrypto]
    rfl
  unfold regenerate switchKeys announce countDown
  dsimp only
  split <;> split <;> split <;>
    first
    | exact ⟨rfl, rfl, .inl rfl, .same (by simp [hsome]) rfl, rfl, by simp, by simp⟩
    | exact ⟨rfl, rfl, .inl rfl, .switches hsome (by simp [hsome]) rfl, rfl, by simp, by simp⟩

end SrtConn

/-! ### Control packets -/

namespace Connection

/-- The connection `c'` has the time base of `c`, and has seen the same wraps. Only a request of
version 4 sets another delay. -/
structure SameClock (c c' : Connection) : Prop where
  tsbpdWrapPeriod : c'.tsbpdWrapPeriod = c.tsbpdWrapPeriod
  tsbpdTimeBaseOffset : c'.tsbpdTimeBaseOffset = c.tsbpdTimeBaseOffset
  tsbpdDrift : c'.tsbpdDrift = c.tsbpdDrift
  tsbpdTimeBase : c'.conn.tsbpdTimeBase = c.conn.tsbpdTimeBase
  tsbpdDelay : c.conn.KeepsDelay c'.conn

theorem SameClock.refl (c : Connection) : SameClock c c := ⟨rfl, rfl, rfl, rfl, .inl rfl⟩

/-- The handler returns, and leaves the clock alone. -/
def Answers (kmreq : Prop) (c : Connection) (p : Packet) (draws : Draws)
    (x : Go (Connection × List Output)) : Prop :=
  ∃ c' outputs, x = .ok (c', outputs) ∧ c.SameClock c' ∧
    c.conn.Handled kmreq p draws c'.conn outputs

section
variable {kmreq : Prop} (c : Connection) (p : Packet) (draws : Draws)

theorem answers_lift {c : Connection} {p : Packet} {draws : Draws} {x : Go (SrtConn × List Output)}
    (h : c.conn.Answers kmreq p draws x) : c.Answers kmreq p draws (c.lift x) := by
  obtain ⟨conn, outputs, rfl, hhandled⟩ := h
  exact ⟨_, _, rfl, ⟨rfl, rfl, rfl, hhandled.tsbpdTimeBase, hhandled.tsbpdDelay⟩, hhandled⟩

theorem Answers.imp {kmreq' : Prop} {c : Connection} {p : Packet} {draws : Draws}
    {x : Go (Connection × List Output)} (h : c.Answers kmreq p draws x) (himp : kmreq → kmreq') :
    c.Answers kmreq' p draws x := by
  obtain ⟨c', outputs, hx, hclock, hhandled⟩ := h
  exact ⟨c', outputs, hx, hclock, { hhandled with key := hhandled.key.imp himp }⟩

theorem handleACK_answers (timestamp : UInt32) :
    c.Answers False p draws (c.handleACK p timestamp) := by
  unfold handleACK
  rcases attempt_cases (CIFACK.unmarshal_noPanic p.payload) with h | ⟨cif, -, h⟩
  · rw [h]
    exact ⟨_, _, rfl, ⟨rfl, rfl, rfl, rfl, .inl rfl⟩, rfl, rfl, .inl rfl, .same rfl rfl, rfl,
      by simp, by simp⟩
  · rw [h, ok_bind]
    dsimp only
    split
    · exact ⟨_, _, rfl, ⟨rfl, rfl, rfl, rfl, .inl rfl⟩, rfl, rfl, .inl rfl, .same rfl rfl, rfl,
        by simp, by simp⟩
    · exact ⟨_, _, rfl, ⟨rfl, rfl, rfl, rfl, .inl rfl⟩, rfl, rfl, .inl rfl, .same rfl rfl, rfl,
        by simp, by simp⟩

theorem handleNAK_answers (sort : SortSlice) : c.Answers False p draws (c.handleNAK sort p) := by
  unfold handleNAK
  rcases attempt_cases (CIFNAK.unmarshal_noPanic sort p.payload) with h | ⟨cif, -, h⟩
  · rw [h]
    exact ⟨_, _, rfl, ⟨rfl, rfl, rfl, rfl, .inl rfl⟩, rfl, rfl, .inl rfl, .same rfl rfl, rfl,
      by simp, by simp⟩
  · rw [h]
    exact ⟨_, _, rfl, ⟨rfl, rfl, rfl, rfl, .inl rfl⟩, rfl, rfl, .inl rfl, .same rfl rfl, rfl,
      by simp, by simp⟩

theorem handleACKACK_answers (now : Int) :
    c.Answers False p draws (.ok (c.handleACKACK p now)) := by
  unfold handleACKACK
  dsimp only
  split
  · exact ⟨_, _, rfl, ⟨rfl, rfl, rfl, rfl, .inl rfl⟩, rfl, rfl, .inl rfl, .same rfl rfl, rfl,
      by simp, by simp⟩
  · exact ⟨_, _, rfl, ⟨rfl, rfl, rfl, rfl, .inl rfl⟩, rfl, rfl, .inl rfl, .same rfl rfl, rfl,
      by simp, by simp⟩

theorem handleKMResponse_answers : c.Answers False p draws (.ok (c.handleKMResponse p)) := by
  have hhandled := c.conn.handleKMResponse_handled p draws
  exact ⟨_, _, rfl, ⟨rfl, rfl, rfl, hhandled.tsbpdTimeBase, hhandled.tsbpdDelay⟩, hhandled⟩

theorem handleUser_answers (prim : Primitives) :
    c.Answers (p.header.subType = .kmreq) p draws (c.handleUser prim p draws) := by
  unfold handleUser
  split
  · exact (answers_lift (c.conn.handleHSRequest_answers p draws)).imp False.elim
  split
  · exact (answers_lift (c.conn.handleHSResponse_answers p draws)).imp False.elim
  split
  · rename_i hsub
    exact (answers_lift (c.conn.handleKMRequest_answers p draws prim)).imp fun _ => hsub
  split
  · exact (c.handleKMResponse_answers p draws).imp False.elim
  · exact ⟨_, _, rfl, .refl c, rfl, rfl, .inl rfl, .same rfl rfl, rfl, by simp, by simp⟩

/-- Every control packet is handled without a panic. -/
theorem handleControl_answers (prim : Primitives) (sort : SortSlice) (i : HandleInputs) :
    c.Answers (p.header.controlType = .user ∧ p.header.subType = .kmreq) p i.draws
      (c.handleControl prim sort p i) := by
  unfold handleControl
  split
  · exact ⟨_, _, rfl, ⟨rfl, rfl, rfl, rfl, .inl rfl⟩, rfl, rfl, .inl rfl, .same rfl rfl, rfl,
      by simp, by simp⟩
  split
  · exact ⟨_, _, rfl, ⟨rfl, rfl, rfl, rfl, .inl rfl⟩, rfl, rfl, .inl rfl, .same rfl rfl, rfl,
      by simp, by simp⟩
  split
  · exact (c.handleNAK_answers p i.draws sort).imp False.elim
  split
  · exact (c.handleACK_answers p i.draws i.timestamp).imp False.elim
  split
  · exact (c.handleACKACK_answers p i.draws i.now).imp False.elim
  split
  · rename_i huser
    exact (c.handleUser_answers p i.draws prim).imp fun hsub => ⟨huser, hsub⟩
  · exact ⟨_, _, rfl, .refl c, rfl, rfl, .inl rfl, .same rfl rfl, rfl, by simp, by simp⟩

end

/-! ### Data packets -/

/-- Decryption changes the statistics and the payload. -/
theorem decrypt_fields (prim : Primitives) (c : Connection) (p : Packet) :
    c.SameClock (c.decrypt prim p).1 ∧ (c.decrypt prim p).1.conn = c.conn ∧
      (c.decrypt prim p).2.header = p.header := by
  unfold decrypt
  split
  · exact ⟨.refl c, rfl, rfl⟩
  split
  · exact ⟨⟨rfl, rfl, rfl, rfl, .inl rfl⟩, rfl, rfl⟩
  split
  · exact ⟨⟨rfl, rfl, rfl, rfl, .inl rfl⟩, rfl, rfl⟩
  · exact ⟨.refl c, rfl, rfl⟩

theorem updateWrapPeriod_fields (c : Connection) (timestamp : UInt32) :
    (c.updateWrapPeriod timestamp).conn = c.conn ∧
      (c.updateWrapPeriod timestamp).tsbpdDrift = c.tsbpdDrift := by
  unfold updateWrapPeriod
  split
  · split <;> exact ⟨rfl, rfl⟩
  · split <;> exact ⟨rfl, rfl⟩

/-- A data packet gets its time after the state of the wrap is brought up to date. -/
theorem handlePacket_data (prim : Primitives) (sort : SortSlice) (c : Connection) {p : Packet}
    (i : HandleInputs) (hcontrol : p.header.isControlPacket = false)
    (hmessage : p.header.messageNumber ≠ 0) :
    ∃ c' q, c.handlePacket prim sort p i = .ok (c', [.push q]) ∧
      (c.updateWrapPeriod p.header.timestamp).SameClock c' ∧ c'.conn = c.conn ∧
      q.header.pktTsbpdTime
        = (c.updateWrapPeriod p.header.timestamp).pktTsbpdTime p.header.timestamp := by
  unfold handlePacket handleData
  rw [hcontrol, if_neg Bool.false_ne_true, if_neg hmessage]
  obtain ⟨hclock, hconn, hheader⟩ := (c.updateWrapPeriod p.header.timestamp).decrypt_fields prim
    { p with header := { p.header with
      pktTsbpdTime := (c.updateWrapPeriod p.header.timestamp).pktTsbpdTime p.header.timestamp } }
  exact ⟨_, _, rfl, hclock, hconn.trans (c.updateWrapPeriod_fields _).1,
    congrArg PacketHeader.pktTsbpdTime hheader⟩

/-- Every other packet leaves the clock alone. -/
theorem handlePacket_other (prim : Primitives) (sort : SortSlice) (c : Connection) {p : Packet}
    (i : HandleInputs) (h : p.header.isControlPacket = true ∨ p.header.messageNumber = 0) :
    c.Answers (p.header.isControlPacket = true ∧ p.header.controlType = .user ∧
      p.header.subType = .kmreq) p i.draws (c.handlePacket prim sort p i) := by
  unfold handlePacket
  split
  · rename_i hcontrol
    exact (c.handleControl_answers p prim sort i).imp fun hreq => ⟨hcontrol, hreq⟩
  · rename_i hdata
    unfold handleData
    rw [if_pos (h.resolve_left hdata)]
    exact ⟨_, _, rfl, .refl c, rfl, rfl, .inl rfl, .same rfl rfl, rfl, by simp, by simp⟩

/-! ### Which handler a packet reaches -/

/-- A user packet with this subtype. -/
def IsUser (subType : CtrlSubType) (p : Packet) : Prop :=
  p.header.isControlPacket = true ∧ p.header.controlType = .user ∧ p.header.subType = subType

/-- The handler of a packet, for the packets that do more than to count. -/
inductive HandledBy (prim : Primitives) (c : Connection) (p : Packet) (draws : Draws)
    (c' : Connection) (outputs : List Output) : Prop where
  | hsRequest (huser : IsUser .hsreq p)
      (h : c.conn.handleHSRequest p = .ok (c'.conn, outputs))
  | hsResponse (huser : IsUser .hsrsp p)
      (h : c.conn.handleHSResponse p = .ok (c'.conn, outputs))
  | kmRequest (huser : IsUser .kmreq p)
      (h : c.conn.handleKMRequest prim p draws = .ok (c'.conn, outputs))
  | kmResponse (huser : IsUser .kmrsp p) (hconn : c'.conn = (c.conn.handleKMResponse p).1)
      (houtputs : outputs = (c.conn.handleKMResponse p).2.map .effect)
  | other (hhsreq : ¬IsUser .hsreq p) (hhsrsp : ¬IsUser .hsrsp p) (n : UInt64)
      (hconn : c'.conn = { c.conn with pktRecvInvalid := n })
      (houtputs : ∀ t, .setDropThreshold t ∉ outputs)

section
variable {prim : Primitives} {sort : SortSlice} {c c' : Connection} {p : Packet}
  {outputs : List Output}

/-- The handlers of `Connection` count the packets that they cannot decode. -/
def OnlyCounts (c c' : Connection) (outputs : List Output) : Prop :=
  ∃ n, c'.conn = { c.conn with pktRecvInvalid := n } ∧ ∀ t, .setDropThreshold t ∉ outputs

theorem handleNAK_onlyCounts (h : c.handleNAK sort p = .ok (c', outputs)) :
    c.OnlyCounts c' outputs := by
  obtain ⟨cif, -, h⟩ := bind_eq_ok_iff.mp h
  cases cif with
  | none =>
    cases h
    exact ⟨_, rfl, by simp⟩
  | some cif =>
    cases h
    exact ⟨_, rfl, by simp⟩

theorem handleACK_onlyCounts {timestamp : UInt32}
    (h : c.handleACK p timestamp = .ok (c', outputs)) : c.OnlyCounts c' outputs := by
  obtain ⟨cif, -, h⟩ := bind_eq_ok_iff.mp h
  cases cif with
  | none =>
    cases h
    exact ⟨_, rfl, by simp⟩
  | some cif =>
    dsimp only at h
    split at h
    · cases h
      exact ⟨_, rfl, by simp⟩
    · cases h
      exact ⟨_, rfl, by simp⟩

theorem handleACKACK_onlyCounts (c : Connection) (p : Packet) (now : Int) :
    c.OnlyCounts (c.handleACKACK p now).1 (c.handleACKACK p now).2 := by
  unfold handleACKACK
  dsimp only
  split
  · exact ⟨_, rfl, by simp⟩
  · exact ⟨_, rfl, by simp⟩

theorem handleData_onlyCounts (prim : Primitives) (c : Connection) (p : Packet) :
    c.OnlyCounts (c.handleData prim p).1 (c.handleData prim p).2 := by
  unfold handleData
  split
  · exact ⟨_, rfl, by simp⟩
  · have hconn := ((c.updateWrapPeriod p.header.timestamp).decrypt_fields prim
      { p with header := { p.header with
        pktTsbpdTime := (c.updateWrapPeriod p.header.timestamp).pktTsbpdTime
          p.header.timestamp } }).2.1.trans (c.updateWrapPeriod_fields p.header.timestamp).1
    exact ⟨_, hconn, by simp⟩

/-- The user packets go to their handlers, by the subtype. -/
theorem handleUser_handledBy {draws : Draws} (hcontrol : p.header.isControlPacket = true)
    (huser : p.header.controlType = .user) (h : c.handleUser prim p draws = .ok (c', outputs)) :
    HandledBy prim c p draws c' outputs := by
  unfold handleUser at h
  split at h
  · rename_i hsub
    obtain ⟨⟨conn, out⟩, h, hret⟩ := bind_eq_ok_iff.mp h
    cases hret
    exact .hsRequest ⟨hcontrol, huser, hsub⟩ h
  rename_i hhsreq
  split at h
  · rename_i hsub
    obtain ⟨⟨conn, out⟩, h, hret⟩ := bind_eq_ok_iff.mp h
    cases hret
    exact .hsResponse ⟨hcontrol, huser, hsub⟩ h
  rename_i hhsrsp
  split at h
  · rename_i hsub
    obtain ⟨⟨conn, out⟩, h, hret⟩ := bind_eq_ok_iff.mp h
    cases hret
    exact .kmRequest ⟨hcontrol, huser, hsub⟩ h
  split at h
  · rename_i hsub
    obtain ⟨rfl, rfl⟩ := Prod.ext_iff.mp (Except.ok.inj h)
    exact .kmResponse ⟨hcontrol, huser, hsub⟩ rfl rfl
  · cases h
    exact .other (fun hp => hhsreq hp.2.2) (fun hp => hhsrsp hp.2.2) _ rfl (by simp)

/-- Every handled packet went to the handler of its type. -/
theorem handlePacket_handledBy {i : HandleInputs}
    (h : c.handlePacket prim sort p i = .ok (c', outputs)) :
    HandledBy prim c p i.draws c' outputs := by
  have hother (hnot : ¬(p.header.isControlPacket = true ∧ p.header.controlType = .user))
      (hcounts : c.OnlyCounts c' outputs) : HandledBy prim c p i.draws c' outputs := by
    obtain ⟨n, hconn, houtputs⟩ := hcounts
    exact .other (fun hp => hnot ⟨hp.1, hp.2.1⟩) (fun hp => hnot ⟨hp.1, hp.2.1⟩) n hconn houtputs
  unfold handlePacket at h
  split at h
  · rename_i hcontrol
    unfold handleControl at h
    -- Each of the types is not the one of the user packets.
    split at h
    · rename_i htype
      cases h
      exact hother (fun hp => absurd (htype.symm.trans hp.2) (by decide)) ⟨_, rfl, by simp⟩
    split at h
    · rename_i htype
      cases h
      exact hother (fun hp => absurd (htype.symm.trans hp.2) (by decide)) ⟨_, rfl, by simp⟩
    split at h
    · rename_i htype
      exact hother (fun hp => absurd (htype.symm.trans hp.2) (by decide)) (handleNAK_onlyCounts h)
    split at h
    · rename_i htype
      exact hother (fun hp => absurd (htype.symm.trans hp.2) (by decide)) (handleACK_onlyCounts h)
    split at h
    · rename_i htype
      obtain ⟨rfl, rfl⟩ := Prod.ext_iff.mp (Except.ok.inj h)
      exact hother (fun hp => absurd (htype.symm.trans hp.2) (by decide))
        (c.handleACKACK_onlyCounts p i.now)
    split at h
    · rename_i huser
      exact handleUser_handledBy hcontrol huser h
    · rename_i huser
      cases h
      exact hother (fun hp => huser hp.2) ⟨_, rfl, by simp⟩
  · rename_i hdata
    obtain ⟨rfl, rfl⟩ := Prod.ext_iff.mp (Except.ok.inj h)
    exact hother (fun hp => hdata hp.1) (handleData_onlyCounts prim c p)

end

end Connection

/-! ### Steps of a run -/

namespace Timing

section
variable (prim : Primitives) (sort : SortSlice) {s : Timing} {e : Event} {t : Nat}

/-- What a data packet of the time `t` adds to the log. -/
def assignment (c : Connection) (timestamp : UInt32) (t : Nat) : Assignment :=
  ⟨t, c.conn.tsbpdTimeBase, c.conn.tsbpdDelay, c.tsbpdDrift,
    (c.updateWrapPeriod timestamp).pktTsbpdTime timestamp⟩

theorem step_receive {p : Packet} {i : HandleInputs} {c' : Connection} {outputs : List Output}
    (h : s.connection.handlePacket prim sort p i = .ok (c', outputs)) :
    step prim sort s (.receive p i t)
      = some ⟨c', s.log ++ (outputs.filterMap push?).map (assign c' t)⟩ := by
  unfold step
  dsimp only
  rw [h]
  rfl

/-- The step of a data packet. -/
theorem step_data (h : dataTime? e = some t) :
    ∃ c', step prim sort s e
        = some ⟨c', s.log ++ [assignment s.connection (timestamp e) t]⟩ ∧
      (s.connection.updateWrapPeriod (timestamp e)).SameClock c' ∧
      c'.conn = s.connection.conn := by
  cases e with
  | pop => cases h
  | sendACK => cases h
  | receive p i time =>
    change (if _ then none else some time) = some t at h
    split at h
    · cases h
    rename_i hdata
    cases h
    obtain ⟨hcontrol, hmessage⟩ := not_or.mp hdata
    obtain ⟨c', q, hhandle, hclock, hconn, htime⟩ := s.connection.handlePacket_data prim sort i
      (Bool.not_eq_true _ ▸ hcontrol) hmessage
    -- The log keeps what the connection had before the packet. The packet changes neither the
    -- time base nor the drift.
    rw [show timestamp (.receive p i t) = p.header.timestamp from rfl]
    refine ⟨c', ?_, hclock, hconn⟩
    rw [step_receive prim sort hhandle]
    show some (Timing.mk c' (s.log ++ [assign c' t q])) = _
    unfold assign assignment
    rw [htime, hconn, hclock.tsbpdDrift, (s.connection.updateWrapPeriod_fields _).2]

/-- Every other step. -/
theorem step_other (h : dataTime? e = none) :
    ∃ c', step prim sort s e = some ⟨c', s.log⟩ ∧ s.connection.SameClock c' := by
  cases e with
  | pop p timestamp random =>
    have hhandled := s.connection.conn.pop_handled prim p timestamp random ⟨none, none, none⟩
    exact ⟨_, rfl, rfl, rfl, rfl, hhandled.tsbpdTimeBase, hhandled.tsbpdDelay⟩
  | sendACK now => exact ⟨_, rfl, rfl, rfl, rfl, rfl, .inl rfl⟩
  | receive p i time =>
    change (if _ then none else some time) = none at h
    split at h
    · rename_i hother
      obtain ⟨c', outputs, hok, hclock, hhandled⟩ :=
        s.connection.handlePacket_other prim sort i hother
      refine ⟨c', ?_, hclock⟩
      rw [step_receive prim sort hok, hhandled.push, List.map_nil, List.append_nil]
    · cases h

/-- A step can always happen. -/
theorem exists_step (s : Timing) (e : Event) : ∃ s', step prim sort s e = some s' := by
  cases h : dataTime? e with
  | none =>
    obtain ⟨c', hs, -⟩ := step_other prim sort (s := s) h
    exact ⟨_, hs⟩
  | some t =>
    obtain ⟨c', hs, -⟩ := step_data prim sort (s := s) h
    exact ⟨_, hs⟩

/-- What a step does. -/
inductive StepCase (s : Timing) (e : Event) : Timing → Prop where
  | other (ht : dataTime? e = none) (c' : Connection) (hclock : s.connection.SameClock c') :
      StepCase s e ⟨c', s.log⟩
  | data (t : Nat) (ht : dataTime? e = some t) (c' : Connection)
      (hclock : (s.connection.updateWrapPeriod (timestamp e)).SameClock c')
      (hconn : c'.conn = s.connection.conn) :
      StepCase s e ⟨c', s.log ++ [assignment s.connection (timestamp e) t]⟩

/-- A step assigns a time to a data packet or leaves the log. -/
theorem step_cases {s' : Timing} (hs : step prim sort s e = some s') : StepCase s e s' := by
  cases ht : dataTime? e with
  | none =>
    obtain ⟨c', hstep, hclock⟩ := step_other prim sort (s := s) ht
    rw [hstep] at hs
    cases hs
    exact .other ht c' hclock
  | some t =>
    obtain ⟨c', hstep, hclock, hconn⟩ := step_data prim sort (s := s) ht
    rw [hstep] at hs
    cases hs
    exact .data t ht c' hclock hconn

/-- The log has an entry for each data packet of the run. -/
theorem times_run {s s' : Timing} {events : List Event}
    (h : run (step prim sort) s events = some s') :
    s'.log.map Assignment.time = s.log.map Assignment.time ++ events.filterMap dataTime? := by
  induction events generalizing s with
  | nil =>
    cases h
    exact (List.append_nil _).symm
  | cons e events ih =>
    rw [run_cons, Option.bind_eq_some_iff] at h
    obtain ⟨s1, h1, h2⟩ := h
    rw [ih h2]
    cases step_cases prim sort h1 with
    | other ht => rw [List.filterMap_cons_none ht]
    | data t ht =>
      rw [List.filterMap_cons_some ht, List.map_append, List.append_assoc]
      rfl

end

end Timing

end Gosrt
