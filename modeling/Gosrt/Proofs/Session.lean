import Gosrt.Proofs.Connection
import Gosrt.Proofs.Handle
import Gosrt.Proofs.HandshakeCodec
import Gosrt.Proofs.Live.Receiving
import Gosrt.Spec.Session

/-!
# `Gosrt.Proofs.Session`: what a peer can do to a connection in use

Three properties of whole runs. Each is about what the peer chooses, and each has a branch of a
handler in which the code does not do what it should.

- `survives_iff`: which connections no packet can crash. The handlers of the version 4 responses
  look at the version only, and not at whether there are requests to stop.
- `sealed_iff`: when the connection encrypts all that it sends. The key in use is lost when the
  first request of a version 4 peer names both keys.
- `rejects_iff`: when only decrypted packets reach the application. A packet that cannot be
  decrypted is counted, but it goes on to `recv`.

The three proofs use one lemma about `handlePacket` (`handlePacket_handles`).
-/

set_option autoImplicit false

namespace Gosrt

open Lib

namespace Connection

/-- The packet is a key material request. -/
def IsKMRequest (p : Packet) : Prop :=
  p.header.isControlPacket = true ∧ p.header.controlType = .user ∧ p.header.subType = .kmreq

/-- What `handlePacket` does to the connection and to its requests. -/
structure Handles (c : Connection) (p : Packet) (draws : Draws) (c' : Connection)
    (outputs : List Output) : Prop where
  version : c'.conn.version = c.conn.version
  key : SrtConn.KeyStep (IsKMRequest p) c.conn p draws c'.conn
  stopHSRequests : .stopHSRequests ∈ outputs → c.conn.version = 4
  stopKMRequests : .effect .stopKMRequests ∈ outputs → c.conn.version = 4

/-- Every packet is handled without a panic. -/
theorem handlePacket_handles (prim : Primitives) (sort : SortSlice) (c : Connection) (p : Packet)
    (i : HandleInputs) :
    ∃ c' outputs, c.handlePacket prim sort p i = .ok (c', outputs) ∧
      c.Handles p i.draws c' outputs := by
  by_cases h : p.header.isControlPacket = true ∨ p.header.messageNumber = 0
  · obtain ⟨c', outputs, hok, -, hhandled⟩ := c.handlePacket_other prim sort i h
    exact ⟨c', outputs, hok, hhandled.version, hhandled.key, hhandled.stopHSRequests,
      hhandled.stopKMRequests⟩
  · simp only [not_or, Bool.not_eq_true] at h
    obtain ⟨c', q, hok, -, hconn, -⟩ := c.handlePacket_data prim sort i h.1 h.2
    refine ⟨c', _, hok, ?_, ?_, by simp, by simp⟩
    · rw [hconn]
    · rw [hconn]
      exact .same rfl rfl

/-- A key material request goes to its handler. -/
theorem handlePacket_kmRequest (prim : Primitives) (sort : SortSlice) (c : Connection) {p : Packet}
    (i : HandleInputs) (hreq : IsKMRequest p) :
    c.handlePacket prim sort p i = c.lift (c.conn.handleKMRequest prim p i.draws) := by
  obtain ⟨hcontrol, huser, hsub⟩ := hreq
  simp only [handlePacket, handleControl, handleUser, hcontrol, huser, hsub]
  rfl

theorem handlePacket_kmResponse (prim : Primitives) (sort : SortSlice) (c : Connection) {p : Packet}
    (i : HandleInputs) (hcontrol : p.header.isControlPacket = true)
    (huser : p.header.controlType = .user) (hsub : p.header.subType = .kmrsp) :
    c.handlePacket prim sort p i = .ok (c.handleKMResponse p) := by
  simp only [handlePacket, handleControl, handleUser, hcontrol, huser, hsub]
  rfl

/-- The first request of a version 4 peer that names both keys is refused, since both keys are
then the key in use. The new crypto context and this key stay. -/
theorem handlePacket_bothKeys (prim : Primitives) (sort : SortSlice) {c : Connection} {p : Packet}
    {i : HandleInputs} {cif : CIFKeyMaterialExtension} {crypto : Crypto} (hreq : IsKMRequest p)
    (hcif : SrtConn.unmarshalKMCIF p = .ok cif) (hversion : c.conn.version = 4)
    (hnone : c.conn.crypto = none)
    (hnew : Crypto.new cif.kLen.toNat i.draws.salt i.draws.even i.draws.odd = .ok crypto)
    (hboth : cif.keyBasedEncryption = .evenAndOddKey) :
    c.handlePacket prim sort p i
      = .ok ({ c with conn := SrtConn.countInvalid { c.conn with
          pktRecvKM := c.conn.pktRecvKM + 1
          keyBaseEncryption := .evenAndOddKey
          crypto := some crypto } }, []) := by
  rw [c.handlePacket_kmRequest prim sort i hreq]
  unfold SrtConn.handleKMRequest SrtConn.prepareCrypto
  dsimp only
  rw [hcif]
  simp only [Go.attempt, ok_bind, hversion, hnone, and_self, if_true, hnew, hboth]
  rfl

end Connection

namespace Session

/-! ### Function values that are not set -/

/-- The connection never stops its requests, or can stop both. -/
def CanStop (s : Session) : Prop :=
  s.connection.conn.version ≠ 4 ∨ (s.stopHSRequests = true ∧ s.stopKMRequests = true)

section
variable (prim : Primitives) (sort : SortSlice)

theorem CanStop.not_callsUnset {s : Session} (h : s.CanStop) {p : Packet} {draws : Draws}
    {c' : Connection} {outputs : List Output} (hhandles : s.connection.Handles p draws c' outputs) :
    s.callsUnset outputs = false := by
  unfold callsUnset
  rcases h with hversion | ⟨hhs, hkm⟩
  · have hnohs : outputs.contains .stopHSRequests = false := by
      simpa using fun hmem => hversion (hhandles.stopHSRequests hmem)
    have hnokm : outputs.contains (.effect .stopKMRequests) = false := by
      simpa using fun hmem => hversion (hhandles.stopKMRequests hmem)
    rw [hnohs, hnokm, Bool.and_false, Bool.and_false, Bool.or_false]
  · rw [hhs, hkm]
    rfl

/-- A packet that arrives is handled, and its step can happen when it calls no unset function. -/
theorem step_receive {s : Session} {p : Packet} {i : HandleInputs} {c' : Connection}
    {outputs : List Output} (hok : s.connection.handlePacket prim sort p i = .ok (c', outputs))
    (hcalls : s.callsUnset outputs = false) :
    step prim sort s (.receive p i) = some { s with
      connection := c'
      receiving := push s.receiving (outputs.filterMap Timing.push?)
      opened := if opens prim s.connection.conn p then
          s.opened ++ outputs.filterMap Timing.push?
        else s.opened } := by
  unfold step
  dsimp only
  rw [hok]
  dsimp only
  rw [if_neg (by rw [hcalls]; exact Bool.false_ne_true)]

theorem step_receive_inv {s s' : Session} {p : Packet} {i : HandleInputs} {c' : Connection}
    {outputs : List Output} (hok : s.connection.handlePacket prim sort p i = .ok (c', outputs))
    (hs : step prim sort s (.receive p i) = some s') :
    s' = { s with
      connection := c'
      receiving := push s.receiving (outputs.filterMap Timing.push?)
      opened := if opens prim s.connection.conn p then
          s.opened ++ outputs.filterMap Timing.push?
        else s.opened } := by
  unfold step at hs
  dsimp only at hs
  rw [hok] at hs
  dsimp only at hs
  split at hs
  · cases hs
  · exact (Option.some.inj hs).symm

/-- Every event can happen at a connection that can stop its requests. -/
theorem CanStop.exists_step {s : Session} (h : s.CanStop) (e : Event) :
    ∃ s', step prim sort s e = some s' ∧ s'.CanStop := by
  cases e with
  | receive p i =>
    obtain ⟨c', outputs, hok, hhandles⟩ := s.connection.handlePacket_handles prim sort p i
    refine ⟨_, step_receive prim sort hok (h.not_callsUnset hhandles), ?_⟩
    unfold CanStop
    dsimp only
    rw [hhandles.version]
    exact h
  | pop p timestamp random =>
    refine ⟨_, rfl, ?_⟩
    have hhandled := s.connection.conn.pop_handled prim p timestamp random ⟨none, none, none⟩
    unfold CanStop
    dsimp only
    rw [hhandled.version]
    exact h
  | sendACK now => exact ⟨_, rfl, h⟩
  | tickACK now => exact ⟨_, rfl, h⟩
  | tickNAK now => exact ⟨_, rfl, h⟩
  | tickDeliver now => exact ⟨_, rfl, h⟩
  | tickRate now => exact ⟨_, rfl, h⟩

/-- A run of a connection that can stop its requests does not end before its events do. -/
theorem CanStop.exists_run {s : Session} (h : s.CanStop) (events : List Event) :
    ∃ s', run (step prim sort) s events = some s' := by
  induction events generalizing s with
  | nil => exact ⟨s, rfl⟩
  | cons e events ih =>
    obtain ⟨s₁, hs₁, hcan⟩ := h.exists_step prim sort e
    obtain ⟨s', hs'⟩ := ih hcan
    exact ⟨s', by rw [run_cons, hs₁]; exact hs'⟩

end

end Session

/-! ### Packets of a version 4 peer -/

namespace Sample

/-- A control packet for the user types. -/
def userPacket (subType : CtrlSubType) (payload : Bytes) : Packet :=
  let p := newPacket none
  { header := { p.header with
      isControlPacket := true
      controlType := .user
      subType := subType }
    payload := payload }

/-- What a version 4 listener answers to the extension of the handshake. -/
def hsAnswer : CIFHandshakeExtension where
  srtVersion := 0x010203
  srtFlags := { tsbpdrcv := true, crypt := true, tlpktdrop := true, rexmitflg := true }

/-- Key material that names both keys. -/
def bothKeys : CIFKeyMaterialExtension where
  version := 1
  packetType := 2
  sign := 0x2029
  keyBasedEncryption := .evenAndOddKey
  cipher := 2
  streamEncapsulation := 2
  kLen := 16
  wrap := List.replicate 40 0

def draws : Draws := ⟨some [], some [], some []⟩

def inputs : HandleInputs := ⟨0, 0, draws⟩

/-- A version 4 connection, without a crypto context until the peer sends key material. -/
def version4 (isCaller : Bool) : SrtConnConfig :=
  { connConfig 4 2 with version := 4, isCaller := isCaller, crypto := none }

theorem bothKeys_wellFormed : bothKeys.WellFormed where
  error := rfl
  s := rfl
  version := rfl
  packetType := rfl
  sign := rfl
  resv1 := by decide
  key := by decide
  keki := rfl
  streamEncapsulation := rfl
  sLen := Or.inl rfl
  kLen := Or.inl rfl
  salt := Or.inr ⟨rfl, rfl⟩
  wrap := rfl

theorem unmarshalKMCIF_bothKeys (subType : CtrlSubType) :
    SrtConn.unmarshalKMCIF (userPacket subType bothKeys.marshalData) = .ok bothKeys := by
  have h := CIFKeyMaterialExtension.unmarshal_marshalData bothKeys_wellFormed []
  rwa [List.append_nil] at h

end Sample

namespace Session

section
variable (prim : Primitives) (sort : SortSlice) {s : Session} (i : HandleInputs)

/-- A response to the handshake extension crashes a connection that never asked. -/
theorem step_hsResponse (hversion : s.connection.conn.version = 4)
    (hunset : s.stopHSRequests = false) :
    step prim sort s (.receive (Sample.userPacket .hsrsp Sample.hsAnswer.marshal) i) = none := by
  have hdecode : CIFHandshakeExtension.unmarshal Sample.hsAnswer.marshal = .ok Sample.hsAnswer := by
    simpa using CIFHandshakeExtension.unmarshal_append Sample.hsAnswer []
  have haccepts : SrtConn.refusesHS Sample.hsAnswer.srtFlags.tsbpdrcv Sample.hsAnswer = false := by
    decide
  have hok : s.connection.handlePacket prim sort
      (Sample.userPacket .hsrsp Sample.hsAnswer.marshal) i
      = .ok (s.connection, [.setDropThreshold (s.connection.conn.hsDropThreshold
          (max Sample.hsAnswer.sendTSBPDDelay s.connection.conn.config.peerLatency.ms16)),
        .stopHSRequests]) := by
    show s.connection.lift (s.connection.conn.handleHSResponse
      (Sample.userPacket .hsrsp Sample.hsAnswer.marshal)) = _
    unfold SrtConn.handleHSResponse
    rw [show (Sample.userPacket .hsrsp Sample.hsAnswer.marshal).payload
      = Sample.hsAnswer.marshal from rfl, hdecode]
    show s.connection.lift (if s.connection.conn.version ≠ 4 then _
      else if SrtConn.refusesHS _ _ then _ else _) = _
    rw [if_neg (not_not.mpr hversion), if_neg (by rw [haccepts]; exact Bool.false_ne_true)]
    rfl
  unfold step
  dsimp only
  rw [hok]
  dsimp only
  rw [if_pos (by simp [callsUnset, hunset])]

/-- A response to key material crashes a connection that has a crypto context but did not have
it from the start. -/
theorem step_kmResponse (hversion : s.connection.conn.version = 4)
    (hcrypto : s.connection.conn.crypto.isSome = true) (hunset : s.stopKMRequests = false) :
    step prim sort s (.receive (Sample.userPacket .kmrsp Sample.bothKeys.marshalData) i)
      = none := by
  have hstops : .effect .stopKMRequests ∈
      (s.connection.handleKMResponse
        (Sample.userPacket .kmrsp Sample.bothKeys.marshalData)).2 := by
    unfold Connection.handleKMResponse SrtConn.handleKMResponse
    dsimp only
    rw [Sample.unmarshalKMCIF_bothKeys]
    dsimp only
    rw [if_neg (by rw [Option.isNone_eq_false_iff.mpr hcrypto]; exact Bool.false_ne_true),
      if_pos hversion, if_neg (by decide)]
    simp
  have hok : s.connection.handlePacket prim sort
      (Sample.userPacket .kmrsp Sample.bothKeys.marshalData) i
      = .ok (s.connection.handleKMResponse
        (Sample.userPacket .kmrsp Sample.bothKeys.marshalData)) := rfl
  unfold step
  dsimp only
  rw [hok]
  dsimp only
  rw [if_pos (by simp [callsUnset, hunset, hstops])]

/-- A version 4 connection without a crypto context gets one with the first request, even though
the request is then refused. -/
theorem step_kmRequest (hversion : s.connection.conn.version = 4)
    (hnone : s.connection.conn.crypto = none) :
    ∃ s', step prim sort s
        (.receive (Sample.userPacket .kmreq Sample.bothKeys.marshalData) Sample.inputs) = some s' ∧
      s'.connection.conn.version = 4 ∧ s'.connection.conn.crypto.isSome = true ∧
      s'.stopKMRequests = s.stopKMRequests ∧
      s'.connection.conn.keyBaseEncryption = .evenAndOddKey := by
  have hok := s.connection.handlePacket_bothKeys prim sort (i := Sample.inputs) ⟨rfl, rfl, rfl⟩
    (Sample.unmarshalKMCIF_bothKeys .kmreq) hversion hnone rfl rfl
  refine ⟨_, step_receive prim sort hok (by simp [callsUnset]), hversion, rfl, rfl, rfl⟩

end

/-- No sequence of packets crashes the process exactly when the connection is not a version 4
connection, or is that of a version 4 caller that had a crypto context from the start. -/
theorem survives_iff (prim : Primitives) (sort : SortSlice) (config : SrtConnConfig) :
    (∀ events, ∃ s', run (step prim sort) (init config) events = some s') ↔
      config.version ≠ 4 ∨ (config.isCaller = true ∧ config.crypto.isSome = true) := by
  constructor
  · intro hsurvives
    by_contra hnot
    simp only [not_or, not_not, not_and, Bool.not_eq_true] at hnot
    obtain ⟨hversion, hcaller⟩ := hnot
    cases hrole : config.isCaller with
    | false =>
      -- A listener has no handshake requests to stop.
      obtain ⟨s', hs'⟩ := hsurvives
        [.receive (Sample.userPacket .hsrsp Sample.hsAnswer.marshal) Sample.inputs]
      rw [run_cons, step_hsResponse prim sort Sample.inputs hversion (by simp [init, hrole])] at hs'
      cases hs'
    | true =>
      -- A caller without a crypto context gets one from the peer.
      have hnone : config.crypto = none := by simpa using hcaller hrole
      obtain ⟨s', hs'⟩ := hsurvives
        [.receive (Sample.userPacket .kmreq Sample.bothKeys.marshalData) Sample.inputs,
          .receive (Sample.userPacket .kmrsp Sample.bothKeys.marshalData) Sample.inputs]
      obtain ⟨s₁, hs₁, hversion₁, hcrypto₁, hstop₁, -⟩ :=
        step_kmRequest prim sort (s := init config) hversion hnone
      rw [run_cons, hs₁, Option.bind_some, run_cons,
        step_kmResponse prim sort Sample.inputs hversion₁ hcrypto₁
          (hstop₁.trans (by simp [init, hnone]))] at hs'
      cases hs'
  · intro hcan events
    refine CanStop.exists_run prim sort ?_ events
    rcases hcan with hversion | ⟨hcaller, hcrypto⟩
    · exact Or.inl hversion
    · by_cases hversion : config.version = 4
      · exact Or.inr ⟨by simp [init, hversion, hcaller], by simp [init, hversion, hcaller, hcrypto]⟩
      · exact Or.inl hversion

/-- A peer crashes a version 4 listener with a response to a handshake that the listener never
sent, and a version 4 caller with a request for key material and a response to it. -/
theorem responses_crash :
    run (step Sample.primitives SortSlice.insertion) (init (Sample.version4 false))
        [.receive (Sample.userPacket .hsrsp Sample.hsAnswer.marshal) Sample.inputs] = none ∧
      run (step Sample.primitives SortSlice.insertion) (init (Sample.version4 true))
        [.receive (Sample.userPacket .kmreq Sample.bothKeys.marshalData) Sample.inputs,
          .receive (Sample.userPacket .kmrsp Sample.bothKeys.marshalData) Sample.inputs] = none :=
  ⟨Option.isNone_iff_eq_none.mp (by decide +kernel),
    Option.isNone_iff_eq_none.mp (by decide +kernel)⟩

/-! ### The key in use -/

section
variable {kmreq : Prop} {c c' : SrtConn} {p : Packet} {draws : Draws}

/-- A message that a context can be made for names a key: it is not the error message. -/
theorem key_of_new {cif : CIFKeyMaterialExtension} (hcif : SrtConn.unmarshalKMCIF p = .ok cif)
    (hnew : (Crypto.new cif.kLen.toNat draws.salt draws.even draws.odd).toOption.isSome = true) :
    cif.keyBasedEncryption ≠ .unencryptedPacket := by
  have hlen : cif.kLen ≠ 0 := by
    intro hzero
    rw [hzero] at hnew
    exact Bool.false_ne_true hnew
  unfold SrtConn.unmarshalKMCIF at hcif
  split at hcif
  · rcases CIFKeyMaterialExtension.wellFormed_of_unmarshal hcif with ⟨error, rfl⟩ | hwell
    · exact absurd rfl hlen
    · exact hwell.key
  · cases hcif
    exact absurd rfl hlen

/-- A step keeps the key in use one of the two, as long as a new context starts with one. -/
theorem isSingle_of_keyStep (hstep : SrtConn.KeyStep kmreq c p draws c')
    (hnew : ∀ cif, kmreq → SrtConn.unmarshalKMCIF p = .ok cif → c.version = 4 → c.crypto = none →
      (Crypto.new cif.kLen.toNat draws.salt draws.even draws.odd).toOption.isSome = true →
      cif.keyBasedEncryption ≠ .evenAndOddKey)
    (hkey : c.crypto.isSome = true → c.keyBaseEncryption.IsSingle) :
    c'.crypto.isSome = true → c'.keyBaseEncryption.IsSingle := by
  intro hcrypto'
  cases hstep with
  | same hcrypto hsame =>
    rw [hsame]
    exact hkey (hcrypto.symm.trans hcrypto')
  | switches hcrypto _ hopposite =>
    rw [hopposite, PacketEncryption.isSingle_opposite_iff]
    exact hkey hcrypto
  | creates hreq cif hcif hversion hnone hok _ hfirst =>
    have hone : cif.keyBasedEncryption.IsSingle :=
      (PacketEncryption.isSingle_iff _).mpr
        ⟨key_of_new hcif hok, hnew cif hreq hcif hversion hnone hok⟩
    rcases hfirst with hfirst | hfirst
    · rw [hfirst]
      exact hone
    · rw [hfirst, PacketEncryption.isSingle_opposite_iff]
      exact hone

/-- A key that is none of the two stays in use. -/
theorem isSingle_of_keyStep_back (hstep : SrtConn.KeyStep kmreq c p draws c')
    (hkey' : c'.crypto.isSome = true → c'.keyBaseEncryption.IsSingle) :
    c.crypto.isSome = true → c.keyBaseEncryption.IsSingle := by
  intro hcrypto
  cases hstep with
  | same hsame hkey =>
    rw [← hkey]
    exact hkey' (hsame.trans hcrypto)
  | switches _ hcrypto' hopposite =>
    rw [← PacketEncryption.isSingle_opposite_iff, ← hopposite]
    exact hkey' hcrypto'
  | creates _ _ _ _ hnone =>
    rw [hnone] at hcrypto
    cases hcrypto

end

section
variable (prim : Primitives) (sort : SortSlice) {s s' : Session} {e : Event}

/-- What an event does to the key in use. -/
theorem step_key (hs : step prim sort s e = some s') :
    ∃ p draws, SrtConn.KeyStep (∃ i, i.draws = draws ∧ kmRequest? e = some (p, i))
      s.connection.conn p draws s'.connection.conn := by
  cases e with
  | receive p i =>
    obtain ⟨c', outputs, hok, hhandles⟩ := s.connection.handlePacket_handles prim sort p i
    refine ⟨p, i.draws, ?_⟩
    rw [step_receive_inv prim sort hok hs]
    refine hhandles.key.imp fun hreq => ⟨i, rfl, ?_⟩
    exact if_pos hreq
  | pop p timestamp random =>
    cases hs
    exact ⟨p, ⟨none, none, none⟩,
      (s.connection.conn.pop_handled prim p timestamp random _).key.imp False.elim⟩
  | sendACK now =>
    cases hs
    exact ⟨newPacket none, ⟨none, none, none⟩, .same rfl rfl⟩
  | tickACK now =>
    cases hs
    exact ⟨newPacket none, ⟨none, none, none⟩, .same rfl rfl⟩
  | tickNAK now =>
    cases hs
    exact ⟨newPacket none, ⟨none, none, none⟩, .same rfl rfl⟩
  | tickDeliver now =>
    cases hs
    exact ⟨newPacket none, ⟨none, none, none⟩, .same rfl rfl⟩
  | tickRate now =>
    cases hs
    exact ⟨newPacket none, ⟨none, none, none⟩, .same rfl rfl⟩

theorem keyNamed_of_step (hs : step prim sort s e = some s') (hone : s.NamesOneKey e)
    (h : s.KeyNamed) : s'.KeyNamed := by
  obtain ⟨p, draws, hstep⟩ := step_key prim sort hs
  refine isSingle_of_keyStep hstep ?_ h
  rintro cif ⟨i, rfl, hreq⟩ hcif hversion hnone hok
  exact hone hversion hnone (p, i) hreq cif (by rw [hcif]; rfl) hok

theorem keyNamed_of_step_back (hs : step prim sort s e = some s') (h : s'.KeyNamed) :
    s.KeyNamed := by
  obtain ⟨p, draws, hstep⟩ := step_key prim sort hs
  exact isSingle_of_keyStep_back hstep h

/-- The first request that names both keys leaves the connection without a key to encrypt
with. -/
theorem namesOneKey_of_keyNamed (hs : step prim sort s e = some s') (h : s'.KeyNamed) :
    s.NamesOneKey e := by
  rintro hversion hnone ⟨p, i⟩ hreq cif hcif hok hboth
  obtain ⟨crypto, hnew⟩ := Option.isSome_iff_exists.mp hok
  -- The event is this request, so the key in use is now that of the request.
  cases e with
  | receive p' i' =>
    change (if _ then some (p', i') else none) = some (p, i) at hreq
    split at hreq
    · rename_i hkmreq
      cases hreq
      have hhandled := s.connection.handlePacket_bothKeys prim sort hkmreq (eq_ok_of_toOption hcif)
        hversion hnone (eq_ok_of_toOption hnew) hboth
      rw [step_receive prim sort hhandled (by simp [callsUnset])] at hs
      cases hs
      have hsingle : PacketEncryption.IsSingle .evenAndOddKey := h rfl
      exact absurd hsingle (by simp [PacketEncryption.IsSingle])
    · cases hreq
  | _ => cases hreq

/-- With one of the two keys, the encryption does not fail. -/
theorem KeyNamed.encrypts (h : s.KeyNamed) (e : Event) : Encrypts prim s e := by
  cases e with
  | pop p timestamp random =>
    intro crypto hcrypto hdata hfirst
    have hkey : s.connection.conn.keyBaseEncryption.IsSingle := h (by rw [hcrypto]; rfl)
    obtain ⟨sek, hsek⟩ := crypto.exists_sek hkey
    have hok : crypto.encryptOrDecryptPayload prim p.payload s.connection.conn.keyBaseEncryption
        p.seq.val = .ok (Crypto.crypt prim crypto.salt sek p.seq.val p.payload) := by
      unfold Crypto.encryptOrDecryptPayload
      rw [hsek]
    refine ⟨_, hok, ?_⟩
    rw [SrtConn.pop_data prim timestamp random hdata hcrypto]
    show (if p.header.retransmittedPacketFlag then _ else _) = _
    rw [hfirst, if_neg Bool.false_ne_true]
    show (crypto.encryptOrDecryptPayload prim p.payload s.connection.conn.keyBaseEncryption
      p.seq.val).toOption.getD p.payload = _
    rw [hok]
    rfl
  | _ => trivial

end

/-- In every state of a run the key in use is one of the two, and every data packet that leaves an
encrypted connection for the first time leaves encrypted, exactly when the connection starts with
one of the two, and the request that gives a version 4 connection its context never names both. -/
theorem sealed_iff (prim : Primitives) (sort : SortSlice) (config : SrtConnConfig)
    {events : List Event} {s' : Session}
    (hrun : run (step prim sort) (init config) events = some s') :
    (RunMeets (step prim sort) (fun s e => s.KeyNamed ∧ Encrypts prim s e) (init config) events ∧
      s'.KeyNamed) ↔
    (init config).KeyNamed ∧ RunMeets (step prim sort) NamesOneKey (init config) events := by
  have hiff : (init config).KeyNamed →
      (RunMeets (step prim sort) NamesOneKey (init config) events ↔ s'.KeyNamed) := fun hkey =>
    runMeets_iff (fun s e s' hone h hs => keyNamed_of_step prim sort hs hone h) (fun _ h => h)
      (fun s e s' _ hs h => namesOneKey_of_keyNamed prim sort hs h)
      (fun s e s' hs h => keyNamed_of_step_back prim sort hs h) hkey hrun
  constructor
  · rintro ⟨-, hend⟩
    have hkey : (init config).KeyNamed :=
      run_backward (fun s e s' hs h => keyNamed_of_step_back prim sort hs h) hrun hend
    exact ⟨hkey, (hiff hkey).mpr hend⟩
  · rintro ⟨hkey, hone⟩
    refine ⟨runMeets_of KeyNamed ?_ ?_ hone hkey, (hiff hkey).mp hone⟩
    · intro s e s' hone h hs
      exact keyNamed_of_step prim sort hs hone h
    · intro s e _ h
      exact ⟨h, h.encrypts prim e⟩

/-- The request of a peer that encrypts with the even key, and a data packet of the listener. -/
def oneKeyEvents : List Event :=
  [.receive ((newSRTConn (Sample.connConfig 4 2)).kmRequest Sample.primitives Sample.crypto
      .evenKeyEncrypted 0) Sample.inputs,
    .pop (Sample.dataPacket 1) 0 none]

def oneKeyEnd : Session :=
  runD (step Sample.primitives SortSlice.insertion) (init (Sample.version4 false)) oneKeyEvents

/-- The listener takes the key of the request and encrypts with it. -/
theorem sealed_iff_oneKey :
    run (step Sample.primitives SortSlice.insertion) (init (Sample.version4 false)) oneKeyEvents
        = some oneKeyEnd ∧
      oneKeyEnd.connection.conn.crypto.isSome = true ∧
      RunMeets (step Sample.primitives SortSlice.insertion)
        (fun s e => s.KeyNamed ∧ Encrypts Sample.primitives s e) (init (Sample.version4 false))
        oneKeyEvents ∧
      oneKeyEnd.KeyNamed :=
  ⟨run_eq_some_runD (by decide +kernel), by decide +kernel,
    (sealed_iff Sample.primitives SortSlice.insertion (Sample.version4 false)
      (run_eq_some_runD (by decide +kernel))).mpr ⟨by decide +kernel, by decide +kernel⟩⟩

/-- The listener after a request that names both keys. -/
def bothKeysEnd : Session :=
  runD (step Sample.primitives SortSlice.insertion) (init (Sample.version4 false))
    [.receive (Sample.userPacket .kmreq Sample.bothKeys.marshalData) Sample.inputs]

/-- A request that names both keys makes a version 4 listener send its data in the clear. -/
theorem bothKeys_unsealed :
    run (step Sample.primitives SortSlice.insertion) (init (Sample.version4 false))
        [.receive (Sample.userPacket .kmreq Sample.bothKeys.marshalData) Sample.inputs]
      = some bothKeysEnd ∧
      bothKeysEnd.connection.conn.crypto.isSome = true ∧
      bothKeysEnd.connection.conn.keyBaseEncryption = .evenAndOddKey ∧
      (bothKeysEnd.connection.conn.pop Sample.primitives (Sample.dataPacket 1) 0
        none).2.1.payload = (Sample.dataPacket 1).payload ∧
      ¬ bothKeysEnd.KeyNamed :=
  ⟨run_eq_some_runD (by decide +kernel), by decide +kernel⟩

/-! ### Packets that cannot be decrypted -/

section
variable (prim : Primitives) (sort : SortSlice) {s s' : Session} {e : Event}

/-- The decryption of a packet succeeds exactly with one of the two keys. -/
theorem opens_iff (c : SrtConn) (p : Packet) :
    opens prim c p = true ↔ (c.crypto.isSome = true → p.header.keyBaseEncryptionFlag.IsSingle) := by
  unfold opens Crypto.encryptOrDecryptPayload
  cases c.crypto with
  | none => simp
  | some crypto =>
    cases p.header.keyBaseEncryptionFlag <;>
      simp [Crypto.sek, PacketEncryption.IsSingle, Go.err, Except.toOption]

theorem opens_of_namesKey {p : Packet} {i : HandleInputs} (hkey : s.NamesKey (.receive p i))
    (hdata : p.header.isControlPacket = false) : opens prim s.connection.conn p = true := by
  refine (opens_iff prim _ p).mpr fun hcrypto => hkey hcrypto p ?_
  exact if_neg (by rw [hdata]; exact Bool.false_ne_true)

/-- A packet that can be decrypted need not be rejected. -/
theorem rejects_of_namesKey (hkey : s.NamesKey e) : Rejects prim sort s e := by
  cases e with
  | receive p i =>
    intro hdata hclosed
    rw [opens_of_namesKey prim hkey hdata] at hclosed
    cases hclosed
  | _ => trivial

/-- A packet that cannot be decrypted is never rejected: it is given to `recv`, or it belongs to a
packet filter and is not counted. -/
theorem namesKey_of_rejects (h : Rejects prim sort s e) : s.NamesKey e := by
  intro hcrypto p hp
  cases e with
  | receive p' i =>
    change (if _ then none else some p') = some p at hp
    split at hp
    · cases hp
    rename_i hcontrol
    cases hp
    by_contra hnot
    have hdata : p.header.isControlPacket = false := by simpa using hcontrol
    have hclosed : opens prim s.connection.conn p = false := by
      simpa using fun hopen => hnot ((opens_iff prim _ p).mp hopen hcrypto)
    obtain ⟨c, outputs, hok, hcount, hpush⟩ := h hdata hclosed
    by_cases hfilter : p.header.messageNumber = 0
    · -- The count of a filter packet stays.
      have hignored : s.connection.handlePacket prim sort p i = .ok (s.connection, []) := by
        simp [Connection.handlePacket, Connection.handleData, hdata, hfilter]
      rw [hignored] at hok
      cases hok
      simp at hcount
    · obtain ⟨c', q, hhandled, -⟩ := s.connection.handlePacket_data prim sort i hdata hfilter
      rw [hhandled] at hok
      cases hok
      cases hpush
  | _ => cases hp

/-- The packets in the buffer and those of the application were decrypted. -/
structure Opened (s : Session) : Prop where
  buffered : ∀ p ∈ s.receiving.receiver.packetList, p ∈ s.opened
  delivered : ∀ p ∈ s.receiving.delivered, p ∈ s.opened

/-- A packet that arrives. Only a data packet reaches the buffer, and it was decrypted. -/
theorem Opened.receive (h : s.Opened) {p : Packet} {i : HandleInputs}
    (hkey : s.NamesKey (.receive p i)) (hs : step prim sort s (.receive p i) = some s') :
    s'.Opened := by
  by_cases hother : p.header.isControlPacket = true ∨ p.header.messageNumber = 0
  · obtain ⟨c', outputs, hok, -, hhandled⟩ := s.connection.handlePacket_other prim sort i hother
    have hs' := step_receive_inv prim sort hok hs
    rw [hhandled.push, List.append_nil, ite_self] at hs'
    subst hs'
    exact ⟨h.buffered, h.delivered⟩
  · simp only [not_or, Bool.not_eq_true] at hother
    obtain ⟨hdata, hmessage⟩ := hother
    obtain ⟨c', q, hok, -⟩ := s.connection.handlePacket_data prim sort i hdata hmessage
    have hs' := step_receive_inv prim sort hok hs
    rw [if_pos (opens_of_namesKey prim hkey hdata)] at hs'
    subst hs'
    constructor
    · intro q' hq'
      rcases (Receiver.pushed_push s.receiving.receiver q).mem hq' with rfl | hold
      · exact List.mem_append_right _ List.mem_cons_self
      · exact List.mem_append_left _ (h.buffered q' hold)
    · intro q' hq'
      exact List.mem_append_left _ (h.delivered q' hq')

theorem Opened.of_sameBuffer (h : s.Opened) {r : Receiver}
    (hr : s.receiving.receiver.SameBuffer r) :
    ({ s with receiving := { s.receiving with receiver := r } } : Session).Opened where
  buffered := by
    intro p hp
    refine h.buffered p ?_
    rw [← hr.packetList]
    exact hp
  delivered := h.delivered

theorem Opened.tickDeliver (h : s.Opened) (now : UInt64) :
    ({ s with receiving := s.receiving.tickDeliver now } : Session).Opened where
  buffered := by
    intro p hp
    exact h.buffered p (( List.dropWhile_suffix _).subset hp)
  delivered := by
    intro p hp
    rcases List.mem_append.mp hp with hp | hp
    · exact h.delivered p hp
    · exact h.buffered p (( List.takeWhile_prefix _).subset hp)

/-- A packet whose flag names a key is decrypted before it is buffered. -/
theorem Opened.of_step (h : s.Opened) (hkey : s.NamesKey e)
    (hs : step prim sort s e = some s') : s'.Opened := by
  cases e with
  | receive p i => exact h.receive prim sort hkey hs
  | pop p timestamp random =>
    cases hs
    exact ⟨h.buffered, h.delivered⟩
  | sendACK now =>
    cases hs
    exact ⟨h.buffered, h.delivered⟩
  | tickACK now =>
    cases hs
    exact h.of_sameBuffer (Receiver.sameBuffer_periodicACK _ now)
  | tickNAK now =>
    cases hs
    exact h.of_sameBuffer (Receiver.sameBuffer_periodicNAK _ now)
  | tickDeliver now =>
    cases hs
    exact h.tickDeliver now
  | tickRate now =>
    cases hs
    exact h.of_sameBuffer (Receiver.sameBuffer_tickRate _ now)

end

/-- While a connection is encrypted, every data packet that cannot be decrypted is counted and kept
from `recv`, and only packets that were decrypted without an error reach the application, exactly
when no data packet arrives whose key flag is neither even nor odd. -/
theorem rejects_iff (prim : Primitives) (sort : SortSlice) (config : SrtConnConfig)
    {events : List Event} {s' : Session}
    (hrun : run (step prim sort) (init config) events = some s') :
    (RunMeets (step prim sort) (Rejects prim sort) (init config) events ∧
      ∀ p ∈ s'.receiving.delivered, p ∈ s'.opened) ↔
    RunMeets (step prim sort) NamesKey (init config) events := by
  have hiff : RunMeets (step prim sort) (Rejects prim sort) (init config) events ↔
      RunMeets (step prim sort) NamesKey (init config) events :=
    runMeets_congr (fun _ => True)
      (fun s e _ _ _ => ⟨namesKey_of_rejects prim sort, rejects_of_namesKey prim sort⟩)
      (fun _ _ _ _ _ _ => trivial) trivial hrun
  constructor
  · rintro ⟨hrejects, -⟩
    exact hiff.mp hrejects
  · intro hkeys
    refine ⟨hiff.mpr hkeys, ?_⟩
    have hopened : s'.Opened :=
      run_induct_of Opened (fun s e s' hkey h hs => h.of_step prim sort hkey hs) hkeys
        ⟨by simp [init, Receiving.init, newReceiver], by simp [init, Receiving.init]⟩ hrun
    exact hopened.delivered

/-- A data packet with the given key flag arrives, and its time comes. -/
def flaggedEvents (flag : PacketEncryption) : List Event :=
  [.receive { Sample.dataPacket 1 with header := { (Sample.dataPacket 1).header with
      messageNumber := 1, keyBaseEncryptionFlag := flag } } Sample.inputs,
    .tickACK 1000000, .tickDeliver 1000000]

def flaggedEnd (flag : PacketEncryption) : Session :=
  runD (step Sample.primitives SortSlice.insertion) (init (Sample.connConfig 4 2))
    (flaggedEvents flag)

/-- A packet under the even key is decrypted and handed over. -/
theorem rejects_iff_evenKey :
    run (step Sample.primitives SortSlice.insertion) (init (Sample.connConfig 4 2))
        (flaggedEvents .evenKeyEncrypted) = some (flaggedEnd .evenKeyEncrypted) ∧
      (flaggedEnd .evenKeyEncrypted).receiving.delivered.length = 1 ∧
      ∀ p ∈ (flaggedEnd .evenKeyEncrypted).receiving.delivered,
        p ∈ (flaggedEnd .evenKeyEncrypted).opened :=
  ⟨run_eq_some_runD (by decide +kernel), by decide +kernel,
    ((rejects_iff Sample.primitives SortSlice.insertion (Sample.connConfig 4 2)
      (run_eq_some_runD (by decide +kernel))).mpr (by decide +kernel)).2⟩

/-- A packet in the clear is counted, and the application gets it all the same. -/
theorem clearPacket_delivered :
    run (step Sample.primitives SortSlice.insertion) (init (Sample.connConfig 4 2))
        (flaggedEvents .unencryptedPacket) = some (flaggedEnd .unencryptedPacket) ∧
      (flaggedEnd .unencryptedPacket).connection.conn.crypto.isSome = true ∧
      (flaggedEnd .unencryptedPacket).connection.statistics.pktRecvUndecrypt = 1 ∧
      (flaggedEnd .unencryptedPacket).receiving.delivered.map Packet.payload
        = [(Sample.dataPacket 1).payload] ∧
      (flaggedEnd .unencryptedPacket).opened = [] :=
  ⟨run_eq_some_runD (by decide +kernel), by decide +kernel⟩

end Session

end Gosrt
