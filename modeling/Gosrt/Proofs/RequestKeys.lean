import Gosrt.Proofs.Admission
import Gosrt.Proofs.Exchange.Parameters
import Gosrt.Proofs.Payload
import Gosrt.Proofs.Refresh

/-!
# `Gosrt.Proofs.RequestKeys`: the key material of a request

A CONCLUSION brings key material, a request keeps what is decoded from it, and `Accept` sends it
back. `lastKeyMaterial` says which bytes of the CONCLUSION this is about: a message may have several
such extensions, and the last one stays. What comes back is what the caller sent, byte by byte
(`keyMaterial_image`).

Before `Accept` the application may try passphrases. Each try writes to the one crypto context of
the request, and a try that succeeds also sets the passphrase. `Accept` looks at the passphrase
only. The invariant over the tries is `Tried`: once a try has succeeded the context has the keys of
the caller, because a try that fails copies a salt and nothing else.
-/

set_option autoImplicit false

namespace Gosrt

open Lib

/-! ### Which bytes the key material is decoded from -/

namespace CIFHandshake

instance (extensionType : CtrlSubType) : Decidable (IsKeyMaterial extensionType) := by
  unfold IsKeyMaterial
  infer_instance

/-- The bytes that the key material of a message is decoded from: the message from the body of the
last such extension on. -/
def lastKeyMaterial (pivot : Bytes) : Option Bytes :=
  match pivot with
  | t0 :: t1 :: l0 :: l1 :: rest =>
    let here := if IsKeyMaterial (uint16OfBytes t0 t1) then some rest else none
    let extensionLength := (uint16OfBytes l0 l1).toNat * 4
    if rest.length > extensionLength then
      (lastKeyMaterial (rest.drop extensionLength)).or here
    else here
  | _ => none
termination_by pivot.length
decreasing_by simp only [List.length_drop, List.length_cons]; omega

section
variable {c c' : CIFHandshake}

/-- The message is left with key material that was decoded from `data`, or with what it had where
there is none. -/
def LeftWith (c c' : CIFHandshake) (data : Option Bytes) : Prop :=
  match data with
  | some data => ∃ km, CIFKeyMaterialExtension.unmarshal {} data = .ok km ∧ c'.srtKM = some km
  | none => c'.srtKM = c.srtKM

theorem ExtensionCase.leftWith {extensionType : CtrlSubType} {rest : Bytes}
    (h : ExtensionCase c extensionType rest c') :
    LeftWith c c' (if IsKeyMaterial extensionType then some rest else none) := by
  cases h with
  | hs hother srtHS =>
    rw [if_neg hother]
    rfl
  | km hkm km hok encryptionField =>
    rw [if_pos hkm]
    exact ⟨km, hok, rfl⟩
  | other hother _ _ _ _ =>
    rw [if_neg hother]
    rfl

/-- Later key material replaces what was there before. -/
theorem LeftWith.trans {c₁ : CIFHandshake} {here later : Option Bytes} (h : LeftWith c c₁ here)
    (h' : LeftWith c₁ c' later) : LeftWith c c' (later.or here) := by
  cases later with
  | some data => exact h'
  | none =>
    have hsame : c'.srtKM = c₁.srtKM := h'
    cases here with
    | none => exact hsame.trans h
    | some data =>
      obtain ⟨km, hok, hkm⟩ := h
      exact ⟨km, hok, hsame.trans hkm⟩

/-- The key material of a message is that of its last extension. -/
theorem unmarshalExtensions_leftWith {pivot : Bytes} (hok : c.unmarshalExtensions pivot = .ok c') :
    LeftWith c c' (lastKeyMaterial pivot) := by
  fun_induction unmarshalExtensions c pivot with
  | case1 => cases hok
  | case2 c t0 t1 l0 l1 pivot extensionLength c₁ hext hmore ih =>
    rw [lastKeyMaterial, if_pos hmore]
    exact (unmarshalExtension_cases hext).leftWith.trans (ih hok)
  | case3 c t0 t1 l0 l1 pivot extensionLength c₁ hext hlast =>
    cases hok
    rw [lastKeyMaterial, if_neg hlast]
    exact (unmarshalExtension_cases hext).leftWith
  | case4 => cases hok

/-- What every decoded message has: it is no request, and it says so where it has key material. -/
structure Decoded (c : CIFHandshake) : Prop where
  isRequest : c.isRequest = false
  km : c.srtKM.isSome = true → c.hasKM = true

theorem ExtensionCase.decoded {extensionType : CtrlSubType} {rest : Bytes} (h : c.Decoded)
    (hcase : ExtensionCase c extensionType rest c') : c'.Decoded := by
  cases hcase with
  | hs _ srtHS => exact { h with }
  | km _ km hok encryptionField => exact { h with km := fun _ => rfl }
  | other _ _ _ _ _ => exact { h with }

/-- What comes out of a packet, and where its key material is. -/
theorem decoded_of_ofPacket {p : Packet} (hok : ofPacket p = .ok c) :
    c.Decoded ∧ ∀ km, c.srtKM = some km → ∃ data,
      lastKeyMaterial (p.payload.drop 48) = some data ∧
        CIFKeyMaterialExtension.unmarshal {} data = .ok km := by
  have hempty : ({} : CIFHandshake).Decoded := ⟨rfl, nofun⟩
  unfold ofPacket at hok
  split at hok
  · obtain ⟨c₁, hheader, hrest⟩ := unmarshal_parts hok
    obtain ⟨hisRequest, -, -, hhasKM, hsrtKM⟩ := unmarshalHeader_extensions hheader
    have h₁ : c₁.Decoded := by
      refine ⟨hisRequest, fun hsome => ?_⟩
      rw [hsrtKM] at hsome
      cases hsome
    rcases hrest with rfl | hrest
    · refine ⟨h₁, fun km hkm => ?_⟩
      rw [hsrtKM] at hkm
      cases hkm
    · refine ⟨unmarshalExtensions_keeps ExtensionCase.decoded h₁ hrest, fun km hkm => ?_⟩
      have hleft := unmarshalExtensions_leftWith hrest
      cases hlast : lastKeyMaterial (p.payload.drop 48) with
      | none =>
        rw [hlast] at hleft
        have hnone : c.srtKM = none := Eq.trans hleft hsrtKM
        rw [hnone] at hkm
        cases hkm
      | some data =>
        rw [hlast] at hleft
        obtain ⟨km', hdata, hkm'⟩ := hleft
        rw [hkm] at hkm'
        cases hkm'
        exact ⟨data, rfl, hdata⟩
  · cases hok
    exact ⟨hempty, nofun⟩

/-- The key material in the bytes of an answer. -/
theorem marshal_km_part {km : CIFKeyMaterialExtension} {data body : Bytes}
    (hdata : c.marshal = .ok data) (hrequest : c.isRequest = false) (hhas : c.hasKM = true)
    (hkm : c.srtKM = some km) (hbody : km.marshal = .ok body) :
    ∃ before after, data = before ++ (marshalExtension CtrlSubType.kmrsp body ++ after) := by
  unfold marshal at hdata
  obtain ⟨c', hprepare, hdata⟩ := bind_eq_ok_iff.mp hdata
  obtain ⟨hs, -, hdata⟩ := bind_eq_ok_iff.mp hdata
  obtain ⟨part, hpart, hdata⟩ := bind_eq_ok_iff.mp hdata
  obtain ⟨sid, -, hdata⟩ := bind_eq_ok_iff.mp hdata
  obtain ⟨congestion, -, hdata⟩ := bind_eq_ok_iff.mp hdata
  cases hdata
  obtain ⟨hrequest', hhas', hkm'⟩ :
      c'.isRequest = false ∧ c'.hasKM = true ∧ c'.srtKM = some km := by
    obtain ⟨_, _, _, rfl⟩ := prepare_fields hprepare
    exact ⟨hrequest, hhas, hkm⟩
  have hwritten : part = marshalExtension CtrlSubType.kmrsp body := by
    unfold marshalKM at hpart
    rw [if_pos hhas', hkm', orPanic_some, ok_bind, hbody, ok_bind, hrequest'] at hpart
    cases hpart
    rfl
  refine ⟨c'.marshalHeader ++ hs, sid ++ congestion, ?_⟩
  rw [hwritten, List.append_assoc]

end

end CIFHandshake

/-! ### The request -/

namespace Listener

section
variable {prim : Primitives} {ln ln' : Listener} {p : Packet} {cif : CIFHandshake} {a : Arrival}
  {req : ConnRequest} {sent : List Packet}

theorem refuse_ne_some {before : List Packet} {reason : RejectionReason} :
    ln.refuse before p cif reason ≠ .ok (ln', some req, sent) := by
  intro h
  unfold refuse at h
  split at h
  · obtain ⟨_, -, h⟩ := bind_eq_ok_iff.mp h
    cases h
  · cases h

theorem handshake_register {before : List Packet} {req₀ : ConnRequest}
    {socketIds : List (Option UInt32)}
    (h : ln.register before req₀ socketIds = (ln', some req, sent)) :
    req.handshake = req₀.handshake := by
  unfold register at h
  split at h
  · cases h
  dsimp only at h
  split at h
  · cases h
  · cases h
    rfl

theorem checkVersion_of_admission {config : Config} {before : List Packet}
    (h : ln.admission config p cif before a = .ok (ln', some req, sent)) :
    checkVersion config req.handshake = none := by
  unfold admission at h
  split at h
  · exact absurd h refuse_ne_some
  rename_i hcheck
  split at h
  · exact absurd h refuse_ne_some
  · rw [handshake_register (Except.ok.inj h)]
    exact hcheck

/-- A request passed the check of the version. -/
theorem checkVersion_of_newConnRequest
    (h : ln.newConnRequest prim p a = .ok (ln', some req, sent)) :
    ∃ config, checkVersion config req.handshake = none := by
  unfold newConnRequest at h
  split at h
  · cases h
  · cases h
  dsimp only at h
  split at h
  · unfold answerInduction at h
    obtain ⟨_, -, h⟩ := bind_eq_ok_iff.mp h
    obtain ⟨_, -, h⟩ := bind_eq_ok_iff.mp h
    cases h
  split at h
  · unfold request at h
    obtain ⟨_, -, h⟩ := bind_eq_ok_iff.mp h
    split at h
    · exact absurd h refuse_ne_some
    split at h
    · exact absurd h refuse_ne_some
    obtain ⟨⟨cif', before⟩, -, h⟩ := bind_eq_ok_iff.mp h
    exact ⟨_, checkVersion_of_admission h⟩
  · cases h

theorem isSome_srtHS_of_checkVersion {config : Config} (h : checkVersion config cif = none)
    (hversion : cif.version = 5) : cif.srtHS.isSome = true := by
  unfold checkVersion at h
  rw [if_neg (by rw [hversion]; decide), if_pos hversion] at h
  cases hhs : cif.srtHS with
  | none =>
    rw [hhs] at h
    cases h
  | some hs => rfl

end

end Listener

namespace ConnRequest

/-- What a request with key material has. -/
structure Brings (p : Packet) (req : ConnRequest) (km : CIFKeyMaterialExtension) : Prop where
  carries : req.handshake.Carries
  decoded : req.handshake.Decoded
  srtKM : req.handshake.srtKM = some km
  wellFormed : km.WellFormed
  /-- The crypto context is made for the keys of the message. -/
  crypto : ∃ cr, req.crypto = some cr ∧ cr.keyLength = km.kLen.toNat
  passphrase : req.passphrase = []
  srtHS : req.handshake.version = 5 → req.handshake.srtHS.isSome = true
  data : ∃ data, CIFHandshake.lastKeyMaterial (p.payload.drop 48) = some data ∧
    CIFKeyMaterialExtension.unmarshal {} data = .ok km

section
variable {prim : Primitives} {ln ln' : Listener} {p : Packet} {a : Arrival} {req : ConnRequest}
  {sent : List Packet} {km : CIFKeyMaterialExtension}

/-- A crypto context is made for well-formed key material only: the error message of four bytes has
no key length. -/
theorem wellFormed_of_requestCrypto {handshake : CIFHandshake} {data : Bytes} {draws : Draws}
    {crypto : Option Crypto} (hkm : handshake.srtKM = some km)
    (hdata : CIFKeyMaterialExtension.unmarshal {} data = .ok km)
    (hcrypto : Listener.requestCrypto handshake draws = some crypto) :
    km.WellFormed ∧ ∃ cr, crypto = some cr ∧ cr.keyLength = km.kLen.toNat := by
  unfold Listener.requestCrypto at hcrypto
  rw [hkm] at hcrypto
  obtain ⟨cr, hcr, rfl⟩ := Option.map_eq_some_iff.mp hcrypto
  have hnew := eq_ok_of_toOption hcr
  have hlength := Crypto.keyLength_of_new hnew
  rw [Int.toNat_natCast] at hlength
  refine ⟨?_, cr, rfl, hlength⟩
  rcases CIFKeyMaterialExtension.wellFormed_of_unmarshal hdata with ⟨error, rfl⟩ | hwell
  · have hvalid := cr.validKeyLength_keyLength
    rw [hlength] at hvalid
    cases hvalid
  · exact hwell

/-- The requests that `newConnRequest` makes. -/
theorem brings_of_newConnRequest (h : ln.newConnRequest prim p a = .ok (ln', some req, sent))
    (hkm : req.handshake.srtKM = some km) : Brings p req km := by
  obtain ⟨config, hversion⟩ := Listener.checkVersion_of_newConnRequest h
  cases hcif : CIFHandshake.ofPacket p with
  | error e =>
    unfold Listener.newConnRequest at h
    rw [hcif] at h
    cases e with
    | panic => cases h
    | error message => cases h
  | ok cif =>
    obtain ⟨hdecoded, hdata⟩ := CIFHandshake.decoded_of_ofPacket hcif
    have hcarries := CIFHandshake.carries_of_ofPacket hcif
    cases Listener.newConnRequest_cases hcif h with
    | concluded htype _ _ _ hcase hsent =>
      cases hcase with
      | created handshake crypto socketId hnew hsocket hrequests hcrypto =>
        have hsame : handshake.srtKM = cif.srtKM := hrequests.fields.2
        obtain ⟨data, hlast, hok⟩ := hdata km (hsame.symm.trans hkm)
        obtain ⟨hwell, hcontext⟩ := wellFormed_of_requestCrypto hkm hok hcrypto
        -- The message is the CONCLUSION, or what its rejection left of it.
        have hmessage : handshake.Carries ∧ handshake.Decoded := by
          rcases hrequests with rfl | hprepare
          · exact ⟨{ hcarries with }, { hdecoded with }⟩
          · obtain ⟨_, _, _, rfl⟩ := CIFHandshake.prepare_fields hprepare
            exact ⟨{ hcarries with }, { hdecoded with }⟩
        exact ⟨hmessage.1, hmessage.2, hkm, hwell, hcontext, rfl,
          Listener.isSome_srtHS_of_checkVersion hversion, data, hlast, hok⟩

end

/-! ### The passphrases that are tried -/

/-- One call of `SetPassphrase`, with the passphrase of the last call that returned `nil`. -/
def tryPassphrase (prim : Primitives) (s : ConnRequest × Option Bytes) (passphrase : Bytes) :
    ConnRequest × Option Bytes :=
  match s.1.setPassphrase prim passphrase with
  | (req, .ok ()) => (req, some passphrase)
  | (req, .error _) => (req, s.2)

/-- Calls of `SetPassphrase`, one after the other: the request afterwards, and the passphrase of the
last call that returned `nil`. -/
def setPassphrases (prim : Primitives) (req : ConnRequest) (passphrases : List Bytes) :
    ConnRequest × Option Bytes :=
  passphrases.foldl (tryPassphrase prim) (req, none)

/-- What the tries leave alone. -/
theorem setPassphrases_fields (prim : Primitives) (req : ConnRequest) (passphrases : List Bytes) :
    (req.setPassphrases prim passphrases).1.handshake = req.handshake ∧
      (req.setPassphrases prim passphrases).1.peerSocketId = req.peerSocketId := by
  have hstep : ∀ (s : ConnRequest × Option Bytes) (passphrase : Bytes),
      (tryPassphrase prim s passphrase).1 = (s.1.setPassphrase prim passphrase).1 := by
    intro s passphrase
    unfold tryPassphrase
    split
    · rename_i heq
      rw [heq]
    · rename_i heq
      rw [heq]
  have hfold : ∀ (s : ConnRequest × Option Bytes),
      (passphrases.foldl (tryPassphrase prim) s).1.handshake = s.1.handshake ∧
        (passphrases.foldl (tryPassphrase prim) s).1.peerSocketId = s.1.peerSocketId := by
    induction passphrases with
    | nil => exact fun s => ⟨rfl, rfl⟩
    | cons passphrase passphrases ih =>
      intro s
      obtain ⟨hhandshake, -, hpeer, -⟩ := setPassphrase_fields prim s.1 passphrase
      obtain ⟨ih₁, ih₂⟩ := ih (tryPassphrase prim s passphrase)
      rw [hstep] at ih₁ ih₂
      exact ⟨ih₁.trans hhandshake, ih₂.trans hpeer⟩
  exact hfold (req, none)

/-- After some tries: the passphrase is that of the last one that succeeded, and the context has the
keys if there was one. -/
structure Tried (req : ConnRequest) (km : CIFKeyMaterialExtension) (keys : Bytes)
    (s : ConnRequest × Option Bytes) : Prop where
  handshake : s.1.handshake = req.handshake
  context : ∃ cr, s.1.crypto = some cr ∧ cr.keyLength = km.kLen.toNat ∧
    (s.2.isSome = true → cr.plainKeys km.keyBasedEncryption = keys)
  passphrase : s.1.passphrase = s.2.getD []

section
variable {prim : Primitives} {p : Packet} {req : ConnRequest} {km : CIFKeyMaterialExtension}
  {keys : Bytes}

theorem Brings.tried (h : Brings p req km) : Tried req km keys (req, none) := by
  obtain ⟨cr, hcr, hlength⟩ := h.crypto
  exact ⟨rfl, ⟨cr, hcr, hlength, nofun⟩, h.passphrase⟩

/-- One more try. What unwraps are the keys of the caller. -/
theorem Tried.tryPassphrase {s : ConnRequest × Option Bytes} (hbrings : Brings p req km)
    (hversion : req.handshake.version = 5)
    (hopen : ∀ kek keys', Keywrap.unwrap prim kek km.wrap = .ok keys' → keys' = keys)
    (h : Tried req km keys s) (passphrase : Bytes) :
    Tried req km keys (ConnRequest.tryPassphrase prim s passphrase) := by
  obtain ⟨cr, hcr, hlength, hkeys⟩ := h.context
  have hwell := hbrings.wellFormed
  have hwrap : km.wrap.length = km.keyCount * cr.keyLength + 8 := by
    rw [hlength]
    exact hwell.wrap
  unfold ConnRequest.tryPassphrase setPassphrase
  rw [h.handshake, if_pos hversion, hcr, hbrings.srtKM]
  dsimp only
  obtain ⟨kek, keys', -, hunwrap, hlen, hok⟩ | ⟨-, e, herror⟩ :=
    Crypto.unmarshalKM_attempt prim passphrase hwell.key hwrap
  · rw [hok]
    obtain rfl := hopen kek keys' hunwrap
    refine ⟨rfl, ⟨_, rfl, ?_, fun _ => ?_⟩, rfl⟩
    · rw [Crypto.keyLength_copyKeys]
      exact hlength
    · exact (cr.copySalt km.salt).plainKeys_copyKeys hwell.key hlen
  · -- The salt is new, and the keys are the old ones.
    rw [herror]
    refine ⟨rfl, ⟨_, rfl, hlength, fun hsome => ?_⟩, h.passphrase⟩
    rw [← hkeys hsome]
    cases hkey : km.keyBasedEncryption <;> rfl

/-- All tries together. -/
theorem Brings.setPassphrases (h : Brings p req km) (hversion : req.handshake.version = 5)
    (hopen : ∀ kek keys', Keywrap.unwrap prim kek km.wrap = .ok keys' → keys' = keys)
    (passphrases : List Bytes) : Tried req km keys (req.setPassphrases prim passphrases) := by
  have hfold : ∀ s, Tried req km keys s →
      Tried req km keys (passphrases.foldl (ConnRequest.tryPassphrase prim) s) := by
    induction passphrases with
    | nil => exact fun s hs => hs
    | cons passphrase passphrases ih =>
      intro s hs
      exact ih _ (hs.tryPassphrase h hversion hopen passphrase)
  exact hfold _ h.tried

end

/-! ### `Accept` -/

section
variable {ln : Listener} {req : ConnRequest}

/-- `Reject` on a pending request answers with the reason. -/
theorem reject_pending (reason : UInt32) (timestamp : UInt32)
    (hpending : ln.connsByPeer.lookup req.peerSocketId = some none)
    (hcarries : req.handshake.Carries) :
    ∃ handshake q, reject ln req reason timestamp
      = .ok (ln.handleShutdown req.socketId req.peerSocketId,
        { req with handshake := handshake }, [q]) := by
  have hrejects : { req.handshake with handshakeType := reason }.Carries := { hcarries with }
  obtain ⟨handshake, q, hok⟩ := Listener.returns_marshalCIF (req.handshakePacket timestamp) hrejects
  refine ⟨handshake, q, ?_⟩
  unfold reject
  rw [hpending]
  dsimp only
  rw [hok, ok_bind]
  rfl

theorem returns_delays (hhs : req.handshake.version = 5 → req.handshake.srtHS.isSome = true) :
    Returns req.delays := by
  unfold delays
  refine returns_ite (fun hversion => ?_) fun _ => returns_ok _
  exact returns_bind (returns_orPanic (hhs hversion)) fun _ _ => returns_ok _

/-- The answer of `Accept` has the extensions of the request. -/
theorem carries_acceptCIF (hcarries : req.handshake.Carries) (recv send : UInt16) :
    (req.acceptCIF recv send).Carries := by
  refine { hcarries with hs := fun hhas => ?_ }
  have hsome := hcarries.hs hhas
  show (if req.handshake.version = 5 then req.handshake.srtHS.map _
    else req.handshake.srtHS).isSome = true
  split
  · rw [Option.isSome_map]
    exact hsome
  · exact hsome

/-- `Accept` on a pending request with encryption answers, and makes a connection exactly if there
is a passphrase. -/
theorem accept_pending (timestamp : UInt32)
    (hpending : ln.connsByPeer.lookup req.peerSocketId = some none)
    (hcrypto : req.crypto.isSome = true) (hcarries : req.handshake.Carries)
    (hhs : req.handshake.version = 5 → req.handshake.srtHS.isSome = true) :
    ∃ ln' req' conn sent, accept ln req timestamp = .ok (ln', req', conn, sent) ∧
      ((∃ c, conn = .ok c) ↔ req.passphrase ≠ []) ∧
      ∀ c, conn = .ok c → c.crypto = req.crypto ∧ c.config.passphrase = req.passphrase := by
  unfold accept
  by_cases hempty : req.passphrase = []
  · -- No try has succeeded with a passphrase, so the request is rejected.
    obtain ⟨handshake, q, hreject⟩ :=
      reject_pending RejectionReason.badSecret timestamp hpending hcarries
    rw [if_pos (by rw [hcrypto, hempty]; rfl), hreject, ok_bind]
    refine ⟨_, _, .error "passphrase is missing", _, rfl, ?_, ?_⟩
    · constructor
      · rintro ⟨c, hc⟩
        cases hc
      · intro hne
        exact absurd hempty hne
    · intro c hc
      cases hc
  · have hkeyed : ¬(req.crypto.isSome && req.passphrase.isEmpty) = true := by
      rw [hcrypto, Bool.true_and, List.isEmpty_iff]
      exact hempty
    obtain ⟨⟨recv, send⟩, hdelays⟩ := returns_delays hhs
    obtain ⟨handshake, q, hok⟩ := Listener.returns_marshalCIF (req.handshakePacket timestamp)
      (carries_acceptCIF hcarries recv send)
    rw [if_neg hkeyed, hpending]
    dsimp only
    rw [hdelays, ok_bind]
    dsimp only
    rw [hok, ok_bind]
    refine ⟨_, _, .ok (req.newConn ln recv send), _, rfl, ?_, ?_⟩
    · exact ⟨fun _ => hempty, fun _ => ⟨_, rfl⟩⟩
    · rintro c ⟨⟩
      exact ⟨rfl, rfl⟩

end

end ConnRequest

/-! ### A sample request -/

namespace Sample

/-- The sample primitives, with a key derivation that tells passphrases apart. -/
def guarded : Primitives where
  __ := primitives
  pbkdf2 passphrase' _ keyLength :=
    some (if passphrase' = passphrase then List.takeD keyLength kek 0
      else List.replicate keyLength 0)
  length_pbkdf2 := by
    intro passphrase' salt' keyLength kek' h
    cases h
    split
    · exact List.takeD_length _ _ _
    · exact List.length_replicate

/-- The CONCLUSION of the sample exchange, as the listener gets it. -/
def conclusionPacket : Packet :=
  Exchange.arrives (some "127.0.0.1:50000")
    (((runD (Exchange.step primitives) Exchange.sampleInit
      ((Exchange.sampleEvents [evenSEK]).take 2)).toListener[1]?).getD (newPacket none))

/-- What the listener makes of it. -/
def requested : Go (Listener × Option ConnRequest × List Packet) :=
  Exchange.sampleListener.newConnRequest guarded conclusionPacket Exchange.sampleArrival

theorem isSome_requested : (requested.toOption.bind (·.2.1)).isSome = true := by decide +kernel

def request : ConnRequest := (requested.toOption.bind (·.2.1)).get isSome_requested

/-- The listener afterwards, with the request pending. -/
def listener : Listener := (requested.toOption.map (·.1)).getD Exchange.sampleListener

theorem requested_eq : ∃ sent, requested = .ok (listener, some request, sent) := by
  have hget := Option.some_get isSome_requested
  obtain ⟨⟨ln, req, sent⟩, hok, hreq⟩ := Option.bind_eq_some_iff.mp hget.symm
  refine ⟨sent, ?_⟩
  unfold listener
  rw [hok, eq_ok_of_toOption hok, show req = some request from hreq]
  rfl

theorem pending_request : listener.connsByPeer.lookup request.peerSocketId = some none := by
  decide +kernel

/-- A wrong passphrase, the right one, and a wrong one again. -/
def tries : List Bytes := [[1], passphrase, []]

theorem accept_tries : ∃ ln req' conn sent,
    ConnRequest.accept listener (request.setPassphrases guarded tries).1 3000
      = .ok (ln, req', .ok conn, sent) := by
  have hsome : ((ConnRequest.accept listener (request.setPassphrases guarded tries).1
      3000).toOption.bind (·.2.2.1.toOption)).isSome = true := by decide +kernel
  obtain ⟨conn, hconn⟩ := Option.isSome_iff_exists.mp hsome
  obtain ⟨⟨ln, req', result, sent⟩, hok, hresult⟩ := Option.bind_eq_some_iff.mp hconn
  refine ⟨ln, req', conn, sent, ?_⟩
  rw [eq_ok_of_toOption hok]
  cases result with
  | error message => cases hresult
  | ok conn' =>
    cases hresult
    rfl

/-- The key material in the CONCLUSION, and what is decoded from it. -/
def keyMaterialBytes : Bytes :=
  (CIFHandshake.lastKeyMaterial (conclusionPacket.payload.drop 48)).getD []

def keyMaterial : CIFKeyMaterialExtension := request.handshake.srtKM.getD {}

/-- The request is of version 5 and has the key material with the wrapped even key. -/
theorem request_decoded :
    request.handshake.version = 5 ∧ request.handshake.srtKM = some keyMaterial ∧
      CIFHandshake.lastKeyMaterial (conclusionPacket.payload.drop 48) = some keyMaterialBytes ∧
      CIFKeyMaterialExtension.unmarshal {} keyMaterialBytes = .ok keyMaterial ∧
      keyMaterialBytes.length ≠ 4 ∧ keyMaterial.keyBasedEncryption = .evenKeyEncrypted ∧
      Keywrap.wrap guarded kek evenSEK = .ok keyMaterial.wrap := by
  decide +kernel

/-- Without a table AES is the identity, whatever the key is. -/
theorem aesDecrypt_of_table_eq {key key' : Bytes} (h : table key = table key') :
    guarded.aesDecrypt key = guarded.aesDecrypt key' := by
  funext block
  show bytesOfNat 16 (back (table key) _) = bytesOfNat 16 (back (table key') _)
  rw [h]

/-- The two SEKs and the zero keys do not open the wrapped key. -/
theorem unwrap_refused :
    ∀ key ∈ [evenSEK, newSEK, List.replicate 16 0, List.replicate 24 0, List.replicate 32 0],
      Keywrap.unwrap guarded key keyMaterial.wrap
        = .error (.error "keywrap: failed to unwrap key") := by
  decide +kernel

/-- The wrapped key opens under the one key only. -/
theorem unwrap_exact (key keys : Bytes)
    (h : Keywrap.unwrap guarded key keyMaterial.wrap = .ok keys) : key = kek := by
  by_contra hne
  have hvalid : validKeyLength key.length = true := by
    unfold Keywrap.unwrap at h
    obtain ⟨-, h⟩ := check_eq_ok_iff.mp h
    obtain ⟨hkey, -⟩ := check_eq_ok_iff.mp h
    simpa using hkey
  by_cases heven : key = evenSEK
  · rw [unwrap_refused key (by simp [heven])] at h
    cases h
  by_cases hnew : key = newSEK
  · rw [unwrap_refused key (by simp [hnew])] at h
    cases h
  -- Any other key does the same as the zero key of its length.
  have htable : table key = [] := by
    unfold table
    rw [if_neg hne, if_neg heven, if_neg hnew]
  have hzero : ∀ n, n = 16 ∨ n = 24 ∨ n = 32 → key.length = n → False := by
    intro n hn hlen
    have hsame : table key = table (List.replicate n 0) := by
      rw [htable]
      rcases hn with rfl | rfl | rfl <;> decide +kernel
    rw [Keywrap.unwrap_congr (by rw [hlen, List.length_replicate])
      (aesDecrypt_of_table_eq hsame)] at h
    rw [unwrap_refused _ (by rcases hn with rfl | rfl | rfl <;> simp)] at h
    cases h
  simp only [validKeyLength, Bool.or_eq_true, beq_iff_eq, or_assoc] at hvalid
  exact hzero _ hvalid rfl

end Sample

/-! ### The two results -/

/-- Key material that `Unmarshal` accepts, in any receiver, is what `Marshal` writes: all of the
input if this has the length that the decoded fields say, and otherwise the start of it, which also
decodes to the same message. So the answer to a CONCLUSION with this key material has the same
bytes. -/
theorem keyMaterial_image {c km : CIFKeyMaterialExtension} {data : Bytes}
    (h : c.unmarshal data = .ok km) (hlen : data.length ≠ 4) :
    (data.length = km.size → km.marshal = .ok data) ∧
    (km.size ≤ data.length ∧ c.unmarshal (data.take km.size) = .ok km ∧
      km.marshal = .ok (data.take km.size)) ∧
    ∀ (prim : Primitives) (ln ln' : Listener) (p : Packet) (a : Arrival) (req : ConnRequest)
      (sent : List Packet) (passphrases : List Bytes) (ln₁ ln₂ : Listener) (req' : ConnRequest)
      (timestamp : UInt32) (conn : SrtConn) (sent' : List Packet),
      ln.newConnRequest prim p a = .ok (ln', some req, sent) →
      req.handshake.srtKM.isSome = true →
      CIFHandshake.lastKeyMaterial (p.payload.drop 48) = some data →
      ConnRequest.accept ln₁ (req.setPassphrases prim passphrases).1 timestamp
        = .ok (ln₂, req', .ok conn, sent') →
      ∃ q before after, sent' = [q] ∧ q.payload = before ++
        (CIFHandshake.marshalExtension CtrlSubType.kmrsp (data.take km.size) ++ after) := by
  obtain ⟨hsize, hdecode, hmarshal⟩ := CIFKeyMaterialExtension.unmarshal_take_size h hlen
  refine ⟨fun hexact => ?_, ⟨hsize, hdecode, hmarshal⟩, ?_⟩
  · rw [hmarshal, ← hexact, List.take_length]
  intro prim ln ln' p a req sent passphrases ln₁ ln₂ req' timestamp conn sent' hreq hsome hlast
    haccept
  obtain ⟨km', hkm'⟩ := Option.isSome_iff_exists.mp hsome
  have hbrings := ConnRequest.brings_of_newConnRequest hreq hkm'
  -- The request decoded the same bytes, into an empty receiver.
  obtain ⟨data', hlast', hdata'⟩ := hbrings.data
  obtain rfl := Option.some.inj (hlast.symm.trans hlast')
  have hsame : km = c.onto km' := by
    rw [CIFKeyMaterialExtension.unmarshal_eq_onto c hlen, hdata'] at h
    exact (Except.ok.inj h).symm
  obtain ⟨-, -, hmarshal'⟩ := CIFKeyMaterialExtension.unmarshal_take_size hdata' hlen
  have hsizes : km.size = km'.size := by
    rw [hsame]
    rfl
  obtain ⟨hhandshake, -⟩ := ConnRequest.setPassphrases_fields prim req passphrases
  cases ConnRequest.accept_cases haccept with
  | created hopen hpassphrase recv send hdelays handshake q hprepare hdata =>
    have hrequest := hbrings.decoded.isRequest
    have hhas := hbrings.decoded.km hsome
    rw [← hhandshake] at hrequest hhas hkm'
    obtain ⟨before, after, hpayload⟩ :=
      CIFHandshake.marshal_km_part hdata hrequest hhas hkm' hmarshal'
    exact ⟨q, before, after, rfl, by rw [hpayload, hsizes]⟩

/-- The answer carries the bytes of the request. -/
theorem keyMaterial_image_sample :
    CIFKeyMaterialExtension.unmarshal {} Sample.keyMaterialBytes = .ok Sample.keyMaterial ∧
      Sample.keyMaterialBytes.length ≠ 4 ∧
      Sample.keyMaterial.marshal
        = .ok (Sample.keyMaterialBytes.take Sample.keyMaterial.size) ∧
      ∃ ln req' conn q before after,
        ConnRequest.accept Sample.listener
            (Sample.request.setPassphrases Sample.guarded Sample.tries).1 3000
          = .ok (ln, req', .ok conn, [q]) ∧
        q.payload = before ++ (CIFHandshake.marshalExtension CtrlSubType.kmrsp
          (Sample.keyMaterialBytes.take Sample.keyMaterial.size) ++ after) := by
  obtain ⟨-, hkm, hlast, hdecode, hlen, -, -⟩ := Sample.request_decoded
  obtain ⟨-, ⟨-, -, hmarshal⟩, hecho⟩ := keyMaterial_image hdecode hlen
  obtain ⟨sent, hreq⟩ := Sample.requested_eq
  obtain ⟨ln, req', conn, sent', haccept⟩ := Sample.accept_tries
  obtain ⟨q, before, after, rfl, hpayload⟩ := hecho _ _ _ _ _ _ _ _ _ _ _ _ _ _ hreq
    (by rw [hkm]; rfl) hlast haccept
  exact ⟨hdecode, hlen, hmarshal, ln, req', conn, q, before, after, haccept, hpayload⟩

/-- `Accept` on the pending request makes a connection exactly if some try succeeded and the last
one that did had a passphrase. Then the connection has this passphrase and the keys that the caller
wrapped. -/
theorem accept_iff_passphrase {prim : Primitives} {ln ln' : Listener} {p : Packet} {a : Arrival}
    {req : ConnRequest} {sent : List Packet} {km : CIFKeyMaterialExtension} {kek keys : Bytes}
    (hreq : ln.newConnRequest prim p a = .ok (ln', some req, sent))
    (hversion : req.handshake.version = 5) (hkm : req.handshake.srtKM = some km)
    (hwrap : Keywrap.wrap prim kek keys = .ok km.wrap)
    (hexact : ∀ kek' keys', Keywrap.unwrap prim kek' km.wrap = .ok keys' → kek' = kek)
    (passphrases : List Bytes) (ln₁ : Listener) (timestamp : UInt32)
    (hpending : ln₁.connsByPeer.lookup req.peerSocketId = some none) :
    ∃ ln₂ req' conn sent', ConnRequest.accept ln₁ (req.setPassphrases prim passphrases).1 timestamp
        = .ok (ln₂, req', conn, sent') ∧
      ((∃ c, conn = .ok c) ↔
        ∃ passphrase, (req.setPassphrases prim passphrases).2 = some passphrase ∧
          passphrase ≠ []) ∧
      ∀ c, conn = .ok c →
        (req.setPassphrases prim passphrases).2 = some c.config.passphrase ∧
          ∃ cr, c.crypto = some cr ∧ cr.plainKeys km.keyBasedEncryption = keys := by
  have hbrings := ConnRequest.brings_of_newConnRequest hreq hkm
  -- Whatever unwraps was unwrapped with the key of the caller, so it is what the caller wrapped.
  have hopen : ∀ kek' keys', Keywrap.unwrap prim kek' km.wrap = .ok keys' → keys' = keys := by
    intro kek' keys' hunwrap
    obtain rfl := hexact kek' keys' hunwrap
    exact Except.ok.inj (hunwrap.symm.trans (Keywrap.unwrap_of_wrap hwrap).2)
  have htried := hbrings.setPassphrases hversion hopen passphrases
  obtain ⟨hhandshake, hpeer⟩ := ConnRequest.setPassphrases_fields prim req passphrases
  generalize req.setPassphrases prim passphrases = s at htried hhandshake hpeer ⊢
  obtain ⟨req₁, last⟩ := s
  dsimp only at htried hhandshake hpeer ⊢
  obtain ⟨cr, hcr, -, hkeys⟩ := htried.context
  have hpending₁ : ln₁.connsByPeer.lookup req₁.peerSocketId = some none := by
    rw [hpeer]
    exact hpending
  obtain ⟨ln₂, req', conn, sent', haccept, hiff, hconn⟩ :=
    ConnRequest.accept_pending timestamp hpending₁
      (by rw [hcr]; rfl) (by rw [hhandshake]; exact hbrings.carries)
      (by rw [hhandshake]; exact hbrings.srtHS)
  have hpassphrase : req₁.passphrase = last.getD [] := htried.passphrase
  refine ⟨ln₂, req', conn, sent', haccept, ?_, fun c hc => ?_⟩
  · rw [hiff, hpassphrase]
    cases last with
    | none => simp
    | some passphrase => simp
  · obtain ⟨hcrypto, hconfig⟩ := hconn c hc
    have hne := hiff.mp ⟨c, hc⟩
    cases last with
    | none => exact absurd hpassphrase hne
    | some passphrase =>
      refine ⟨?_, cr, hcrypto.trans hcr, hkeys rfl⟩
      rw [hconfig, hpassphrase]
      rfl

/-- The second passphrase opens the wrap, and the request is accepted. -/
theorem accept_iff_passphrase_sample :
    (Sample.request.setPassphrases Sample.guarded Sample.tries).2 = some Sample.passphrase ∧
      ∃ ln req' c sent, ConnRequest.accept Sample.listener
          (Sample.request.setPassphrases Sample.guarded Sample.tries).1 3000
          = .ok (ln, req', .ok c, sent) ∧
        c.config.passphrase = Sample.passphrase ∧
        ∃ cr, c.crypto = some cr ∧ cr.plainKeys .evenKeyEncrypted = Sample.evenSEK := by
  obtain ⟨hversion, hkm, -, -, -, heven, hwrap⟩ := Sample.request_decoded
  obtain ⟨sent, hreq⟩ := Sample.requested_eq
  have hlast : (Sample.request.setPassphrases Sample.guarded Sample.tries).2
      = some Sample.passphrase := by decide +kernel
  obtain ⟨ln, req', conn, sent', haccept, hiff, hconn⟩ :=
    @accept_iff_passphrase Sample.guarded _ _ _ _ _ _ Sample.keyMaterial Sample.kek Sample.evenSEK
      hreq hversion hkm hwrap Sample.unwrap_exact Sample.tries
      Sample.listener 3000 Sample.pending_request
  obtain ⟨c, rfl⟩ := hiff.mpr ⟨Sample.passphrase, hlast, by decide +kernel⟩
  obtain ⟨hpassphrase, cr, hcr, hkeys⟩ := hconn c rfl
  rw [hlast] at hpassphrase
  rw [heven] at hkeys
  exact ⟨hlast, ln, req', c, sent', haccept, (Option.some.inj hpassphrase).symm, cr, hcr, hkeys⟩

end Gosrt
