import Gosrt.Proofs.Exchange.Parameters

/-!
# `Gosrt.Proofs.Exchange.Keys`: when the caller and the listener agree on the key

The caller draws a new key for every INDUCTION that it gets, and sends it in a new CONCLUSION.
The listener keeps the first CONCLUSION that it accepts, and the caller does not look at the
key material in the answer. So the two connections can have different keys.

`Offers` says which key a CONCLUSION carries. The last CONCLUSION of the caller offers the key
that the caller has, and an accepted one offers the key of the listener's connection. The keys
agree in every run in which these two are the same whenever the caller gets the answer
(`keysAgree_of_inStep`).
-/

set_option autoImplicit false

namespace Gosrt

open Lib

namespace Exchange

open Dialer

section
variable {prim : Primitives} {passphrase : Bytes}

/-- The CONCLUSION carries the even key of a context. -/
def Offers (prim : Primitives) (passphrase payload : Bytes) (cr : Crypto) : Prop :=
  ∃ cif, CIFHandshake.unmarshal {} payload = .ok cif ∧
    cif.srtKM = some (cr.marshalKM prim {} passphrase .evenKeyEncrypted).1

/-- A CONCLUSION carries one key. -/
theorem Offers.sameKey {payload : Bytes} {c d : Crypto} (hderives : prim.Derives passphrase)
    (hc : Offers prim passphrase payload c) (hd : Offers prim passphrase payload d) :
    c.salt = d.salt ∧ c.evenSEK = d.evenSEK := by
  obtain ⟨cif, hcif, hkm⟩ := hc
  obtain ⟨cif', hcif', hkm'⟩ := hd
  rw [hcif] at hcif'
  cases hcif'
  have hkey : PacketEncryption.evenKeyEncrypted ≠ .unencryptedPacket := by decide
  obtain ⟨kek, hkek⟩ := hderives (c.salt.drop 8) c.keyLength c.validKeyLength_keyLength
  obtain ⟨kek', hkek'⟩ := hderives (d.salt.drop 8) d.keyLength d.validKeyLength_keyLength
  obtain ⟨wrap, hmarshal, -, hunwrap⟩ := c.marshalKM_spec prim hkey hkek
  obtain ⟨wrap', hmarshal', -, hunwrap'⟩ := d.marshalKM_spec prim hkey hkek'
  rw [hmarshal] at hkm
  rw [hmarshal'] at hkm'
  have heq := Option.some.inj (hkm.symm.trans hkm')
  -- The message shows the salt and the key length, so both sides derive the same KEK.
  have hsalt : c.salt = d.salt := congrArg CIFKeyMaterialExtension.salt heq
  have hlength : c.keyLength = d.keyLength := by
    rw [← c.toNat_ofNat_keyLength, ← d.toNat_ofNat_keyLength]
    exact congrArg (fun km : CIFKeyMaterialExtension => km.kLen.toNat) heq
  have hwrap : wrap = wrap' := congrArg CIFKeyMaterialExtension.wrap heq
  rw [hsalt, hlength, hkek'] at hkek
  cases hkek
  rw [hwrap, hunwrap'] at hunwrap
  exact ⟨hsalt, (Except.ok.inj hunwrap).symm⟩

/-- The context has the key of `cr`. -/
def HasKey (cr d : Crypto) : Prop := d.salt = cr.salt ∧ d.evenSEK = cr.evenSEK

/-- A request whose CONCLUSION offers a key has it once a passphrase is set. -/
def Keyed (prim : Primitives) (passphrase : Bytes) (r : Bytes × ConnRequest) : Prop :=
  ∃ cr d, Offers prim passphrase r.1 cr ∧ r.2.handshake.version = 5 ∧
    r.2.handshake.srtKM = some (cr.marshalKM prim {} passphrase .evenKeyEncrypted).1 ∧
    r.2.crypto = some d ∧ d.keyLength = cr.keyLength ∧ (r.2.passphrase ≠ [] → HasKey cr d)

/-- The passphrase of the caller gives the key that the CONCLUSION offers. -/
theorem Keyed.setPassphrase {r : Bytes × ConnRequest} (hderives : prim.Derives passphrase)
    (h : Keyed prim passphrase r) :
    Keyed prim passphrase (r.1, (r.2.setPassphrase prim passphrase).1) := by
  obtain ⟨cr, d, hoffers, hversion, hkm, hcrypto, hlength, -⟩ := h
  obtain ⟨kek, hkek⟩ := hderives (cr.salt.drop 8) cr.keyLength cr.validKeyLength_keyLength
  have hkey : PacketEncryption.evenKeyEncrypted ≠ .unencryptedPacket := by decide
  have hunmarshal := cr.unmarshalKM_marshalKM prim d hkey hkek hlength
  have hset : (r.2.setPassphrase prim passphrase).1 =
      { r.2 with
        crypto := some ((d.copySalt cr.salt).copyKeys .evenKeyEncrypted
          (cr.plainKeys .evenKeyEncrypted))
        passphrase := passphrase } := by
    unfold ConnRequest.setPassphrase
    rw [if_pos hversion, hcrypto, hkm]
    dsimp only
    rw [hunmarshal]
  rw [hset]
  refine ⟨cr, _, hoffers, hversion, hkm, rfl, hlength, fun _ => ⟨?_, ?_⟩⟩
  · exact copyBytes_of_length_eq (cr.length_salt.trans d.length_salt.symm)
  · refine copyBytes_of_length_eq ?_
    show cr.evenSEK.length = d.evenSEK.length
    rw [cr.length_evenSEK, d.length_evenSEK, hlength]

/-- The message of a request may be rewritten, as long as its version and its key material
stay. -/
theorem Keyed.handshake {r : Bytes × ConnRequest} {req : ConnRequest}
    (h : Keyed prim passphrase r) (hversion : req.handshake.version = r.2.handshake.version)
    (hkm : req.handshake.srtKM = r.2.handshake.srtKM) (hcrypto : req.crypto = r.2.crypto)
    (hpassphrase : req.passphrase = r.2.passphrase) : Keyed prim passphrase (r.1, req) := by
  obtain ⟨cr, d, hoffers, hv, hk, hc, hlength, hkeys⟩ := h
  exact ⟨cr, d, hoffers, hversion.trans hv, hkm.trans hk, hcrypto.trans hc, hlength,
    fun hne => hkeys (hpassphrase ▸ hne)⟩

/-- What `Marshal` does to the message of a request leaves the key material alone. -/
theorem Keyed.of_prepare {r : Bytes × ConnRequest} (h : Keyed prim passphrase r)
    (req : ConnRequest) (cif : CIFHandshake) (hprepare : cif.prepare = .ok req.handshake)
    (hversion : cif.version = r.2.handshake.version) (hkm : cif.srtKM = r.2.handshake.srtKM)
    (hcrypto : req.crypto = r.2.crypto) (hpassphrase : req.passphrase = r.2.passphrase) :
    Keyed prim passphrase (r.1, req) := by
  obtain ⟨_, _, _, hfields⟩ := CIFHandshake.prepare_fields hprepare
  exact h.handshake (by rw [hfields]; exact hversion) (by rw [hfields]; exact hkm) hcrypto
    hpassphrase

end

/-- What holds of the keys, with the dialer as it started. -/
structure Keys (prim : Primitives) (caller : Dialer) (s : Exchange) : Prop where
  concluded : ∀ payload, s.concluded = some payload →
    ∃ cr, s.dialer.crypto = some cr ∧ Offers prim caller.config.passphrase payload cr
  toListener : ∀ p ∈ s.toListener, p.header.controlType = CtrlType.handshake →
    ∀ cif, CIFHandshake.unmarshal {} p.payload = .ok cif →
      cif.handshakeType = HandshakeType.conclusion →
      ∃ cr, Offers prim caller.config.passphrase p.payload cr
  requests : ∀ r ∈ s.requests, Keyed prim caller.config.passphrase r
  accepted : ∀ a ∈ s.accepted, ∃ cr d, Offers prim caller.config.passphrase a.1 cr ∧
    a.2.crypto = some d ∧ HasKey cr d
  conns : ∀ conn ∈ s.conns, ∃ cr, conn.crypto = some cr ∧
    ∀ a ∈ s.accepted, Offers prim caller.config.passphrase a.1 cr

section
variable {prim : Primitives} {caller dl : Dialer} {listener : Config} {s s' : Exchange}
  {r : Bytes × ConnRequest} {req : ConnRequest} {ln : Listener} {sent : List Packet}

/-- Both ends got their keys from the same CONCLUSION, so they agree. -/
theorem Keys.keysAgree (hderives : prim.Derives caller.config.passphrase)
    (h : Keys prim caller s) : s.KeysAgree := by
  intro a ha conn hconn
  obtain ⟨cr, d, hoffers, hcrypto, hsalt, heven⟩ := h.accepted a ha
  obtain ⟨cr', hcrypto', hoffers'⟩ := h.conns conn hconn
  obtain ⟨hsame, hsame'⟩ := hoffers.sameKey hderives (hoffers' a ha)
  rw [hcrypto, hcrypto']
  exact ⟨hsalt.trans hsame, heven.trans hsame'⟩

/-- Before the CONCLUSION there is no key. The INDUCTION of the caller is not one. -/
theorem keys_init (prim : Primitives) (caller : Dialer) (ln : Listener) (callerAddr : String)
    (timestamp : UInt32) : Keys prim caller (init caller ln callerAddr timestamp) where
  concluded := fun _ hnone => nomatch hnone
  toListener := by
    intro p hp _ cif hcif htype
    obtain ⟨cif', hdecode, hinduction, -⟩ := unmarshal_sendInduction hp
    have hsame := hcif.symm.trans hdecode
    cases hsame
    rw [hinduction] at htype
    exact absurd htype (by decide)
  requests := List.forall_mem_nil _
  accepted := List.forall_mem_nil _
  conns := List.forall_mem_nil _

/-! ### The dialer -/

/-- Shutdowns are not handshakes. -/
theorem lastHandshake_of_shutdown (h : ∀ q ∈ sent, q.header.controlType = CtrlType.shutdown) :
    lastHandshake sent = none := by
  have hfilter : sent.filter (·.header.controlType == CtrlType.handshake) = [] := by
    rw [List.filter_eq_nil_iff]
    intro q hq
    rw [h q hq]
    decide
  unfold lastHandshake
  rw [hfilter]
  rfl

/-- The CONCLUSION of the dialer offers the key of its crypto context. -/
theorem offers_concludes {dl₀ : Dialer} {cif conclusion : CIFHandshake} {data : Bytes}
    {cr : Crypto} (hcaller : IsCaller caller) (h₀ : Evolves caller dl₀)
    (hdl : Evolves caller dl) (hind : Induces cif) (hcrypto : dl.crypto = some cr)
    (hkm : dl.withKeyMaterial prim (dl.withExtensions (dl₀.conclusionCIF cif)) = .ok conclusion)
    (hdata : conclusion.marshal = .ok data) :
    Offers prim caller.config.passphrase data cr := by
  obtain ⟨htype, hconcludes⟩ := callerConcludes_withKeyMaterial hcaller h₀ hdl hind hkm
  obtain ⟨data', hdata', hdecode⟩ := CIFHandshake.unmarshal_marshal hconcludes.wellFormed htype
  rw [hdata] at hdata'
  cases hdata'
  refine ⟨_, hdecode, ?_⟩
  rcases withKeyMaterial_cases hkm with ⟨hnone, -⟩ | ⟨cr', km, hsome, hmarshal, rfl⟩
  · rw [hcrypto] at hnone
    cases hnone
  · rw [hcrypto] at hsome
    cases hsome
    rw [hdl.passphrase] at hmarshal
    rw [hmarshal]
    rfl

/-- What the dialer does with a message of the listener, for the keys. -/
theorem Keys.dialer_spec {cif : CIFHandshake} {draws : Draws} {now : UInt64} {conns : List SrtConn}
    (hcaller : IsCaller caller) (hderives : prim.Derives caller.config.passphrase)
    (hpass : caller.config.passphrase ≠ []) (hdl : Evolves caller s.dialer) (h : Keys prim caller s)
    (hmessage : ListenerSays caller listener s.accepted cif)
    (hnew : cif.handshakeType = HandshakeType.induction →
      (newCrypto s.dialer.config.pbKeylen cif.encryptionField draws).toOption.isSome = true)
    (hlast : cif.handshakeType = HandshakeType.conclusion →
      ∀ a ∈ s.accepted, s.concluded = some a.1)
    (hcase : DialerCase prim s.dialer cif draws now dl sent conns) :
    (∀ payload, (lastHandshake sent).or s.concluded = some payload →
        ∃ cr, dl.crypto = some cr ∧ Offers prim caller.config.passphrase payload cr) ∧
      (∀ q ∈ sent, q.header.controlType = CtrlType.handshake →
        ∃ cr, Offers prim caller.config.passphrase q.payload cr) ∧
      ∀ conn ∈ conns, ∃ cr, conn.crypto = some cr ∧
        ∀ a ∈ s.accepted, Offers prim caller.config.passphrase a.1 cr := by
  cases hcase with
  | concludes hind conclusion q hhandshake hkm hdata =>
    obtain ⟨cr, hcr⟩ := Option.isSome_iff_exists.mp (hnew hind.handshakeType)
    have hdl' : Evolves caller (s.dialer.setupCrypto cif.encryptionField draws).1 :=
      hdl.trans (evolves_setupCrypto cif draws _)
    have hcrypto : (s.dialer.setupCrypto cif.encryptionField draws).1.crypto = some cr := by
      have hne : ¬s.dialer.config.passphrase.isEmpty = true := by
        rw [hdl.passphrase, List.isEmpty_iff]
        exact hpass
      rw [setupCrypto_eq]
      dsimp only
      rw [if_neg hne, hcr]
    have hoffers := offers_concludes hcaller hdl hdl' hind hcrypto hkm hdata
    have hlastq : lastHandshake [q] = some q.payload := by
      unfold lastHandshake
      rw [List.filter_cons_of_pos (by rw [hhandshake]; rfl)]
      rfl
    refine ⟨fun payload hpayload => ?_, fun r hr _ => ?_, List.forall_mem_nil _⟩
    · rw [hlastq] at hpayload
      cases hpayload
      exact ⟨cr, hcrypto, hoffers⟩
    · rw [List.mem_singleton.mp hr]
      exact ⟨cr, hoffers⟩
  | noKeyMaterial _ cr hkm =>
    -- The key derivation works, so `MarshalKM` does.
    obtain ⟨kek, hkek⟩ := hderives (cr.salt.drop 8) cr.keyLength cr.validKeyLength_keyLength
    have hkey : PacketEncryption.evenKeyEncrypted ≠ .unencryptedPacket := by decide
    obtain ⟨wrap, hmarshal, -, -⟩ := cr.marshalKM_spec prim hkey hkek
    rw [hdl.passphrase, hmarshal] at hkm
    exact absurd rfl hkm
  | refuses config sent _ hshutdown =>
    refine ⟨fun payload hpayload => ?_, fun q hq hhandshake => ?_, List.forall_mem_nil _⟩
    · rw [lastHandshake_of_shutdown hshutdown] at hpayload
      exact h.concluded payload hpayload
    · rw [hshutdown q hq] at hhandshake
      exact absurd hhandshake (by decide)
  | connects htype =>
    refine ⟨h.concluded, List.forall_mem_nil _, List.forall_mem_singleton.mpr ?_⟩
    -- The answer is to the last CONCLUSION, and that one was made with the crypto context
    -- that the dialer still has.
    obtain ⟨a, ha, -⟩ := hmessage.concludes htype
    obtain ⟨cr, hcrypto, hoffers⟩ := h.concluded a.1 (hlast htype a ha)
    refine ⟨cr, hcrypto, fun a' ha' => ?_⟩
    have hsame := (hlast htype a' ha').symm.trans (hlast htype a ha)
    rw [Option.some.inj hsame]
    exact hoffers

/-- What the condition on the run says about a message that the dialer handles. -/
theorem InStep.heeds {index : Nat} {p : Packet} {cif : CIFHandshake} {draws : Draws}
    {now : UInt64} (h : s.InStep (.dialerReceives index draws now))
    (hp : s.toDialer[index]? = some p) (hcontrol : p.header.isControlPacket = true)
    (hcif : CIFHandshake.unmarshal {} p.payload = .ok cif) :
    (cif.handshakeType = HandshakeType.induction →
      (newCrypto s.dialer.config.pbKeylen cif.encryptionField draws).toOption.isSome = true) ∧
    (cif.handshakeType = HandshakeType.conclusion →
      ∀ a ∈ s.accepted, s.concluded = some a.1) := by
  have hof : CIFHandshake.ofPacket p = .ok cif := (if_pos hcontrol).trans hcif
  unfold InStep at h
  dsimp only at h
  rw [hp] at h
  unfold Heeds at h
  dsimp only at h
  rw [hof] at h
  exact h

/-! ### The listener -/

/-- A request for a CONCLUSION that offers a key. -/
theorem keyed_newRequest {p : Packet} {payload : Bytes} {cif handshake : CIFHandshake}
    {a : Arrival} {config : Config} {crypto : Option Crypto} {peerSocketId socketId : UInt32}
    {cr : Crypto} (hderives : prim.Derives caller.config.passphrase)
    (hcif : CIFHandshake.unmarshal {} payload = .ok cif)
    (hoffers : Offers prim caller.config.passphrase payload cr)
    (hversion : handshake.version = 5) (hkm : handshake.srtKM = cif.srtKM)
    (hcrypto : Listener.requestCrypto handshake a.draws = some crypto) :
    Keyed prim caller.config.passphrase
      (payload, Listener.newRequest p config peerSocketId handshake crypto socketId) := by
  have hsrtKM : cif.srtKM
      = some (cr.marshalKM prim {} caller.config.passphrase .evenKeyEncrypted).1 := by
    obtain ⟨cif', hcif', hsrtKM⟩ := hoffers
    have hsame := hcif.symm.trans hcif'
    cases hsame
    exact hsrtKM
  have hlength : (cr.marshalKM prim {} caller.config.passphrase .evenKeyEncrypted).1.kLen.toNat
      = cr.keyLength := by
    obtain ⟨kek, hkek⟩ := hderives (cr.salt.drop 8) cr.keyLength cr.validKeyLength_keyLength
    have hkey : PacketEncryption.evenKeyEncrypted ≠ .unencryptedPacket := by decide
    obtain ⟨wrap, hmarshal, -, -⟩ := cr.marshalKM_spec prim hkey hkek
    rw [hmarshal]
    exact cr.toNat_ofNat_keyLength
  unfold Listener.requestCrypto at hcrypto
  rw [hkm, hsrtKM] at hcrypto
  obtain ⟨d, hd, rfl⟩ := Option.map_eq_some_iff.mp hcrypto
  refine ⟨cr, d, hoffers, hversion, hkm.trans hsrtKM, rfl, ?_, fun hne => absurd rfl hne⟩
  rw [Crypto.keyLength_of_new (eq_ok_of_toOption hd), Int.toNat_natCast, hlength]

/-- What the listener hears from the caller gives requests with the caller's keys. -/
theorem Keys.listener_step (hderives : prim.Derives caller.config.passphrase)
    (h : Keys prim caller s) {p : Packet} {addr : Option String} {cif : CIFHandshake} {a : Arrival}
    {req : Option ConnRequest} (hp : p ∈ s.toListener)
    (hhandshake : p.header.controlType = CtrlType.handshake)
    (hcif : CIFHandshake.unmarshal {} p.payload = .ok cif) (hmessage : CallerSays caller cif)
    (hcase : Listener.MessageCase s.listener (arrives addr p) cif a ln req sent) :
    Keys prim caller (s.afterListener p.payload ln req sent) := by
  have hnew : ∀ r ∈ (req.map (p.payload, ·)).toList, Keyed prim caller.config.passphrase r := by
    intro r hr
    obtain ⟨req', hreq, rfl⟩ := Option.map_eq_some_iff.mp (Option.mem_toList.mp hr)
    -- Only a CONCLUSION makes a request.
    cases hcase with
    | answered => cases hreq
    | dropped => cases hreq
    | concluded htype _ _ _ hcase _ =>
      cases hcase with
      | ignored => cases hreq
      | exhausted => cases hreq
      | created handshake crypto socketId _ _ hrequests hcrypto =>
        cases hreq
        obtain ⟨cr, hoffers⟩ := h.toListener p hp hhandshake cif hcif htype
        have hconcludes : CallerConcludes caller { cif with peerIP := s.listener.ip } := by
          rcases hmessage with ⟨hinduction, -⟩ | ⟨-, hconcludes⟩
          · rw [htype] at hinduction
            exact absurd hinduction (by decide)
          · exact { hconcludes with wellFormed := { hconcludes.wellFormed with } }
        exact keyed_newRequest hderives hcif hoffers
          (hconcludes.requests htype hrequests).1.wellFormed.version hrequests.fields.2 hcrypto
  exact
    { h with
      requests := fun r hr => (List.mem_append.mp hr).elim (h.requests r) (hnew r) }

/-! ### The application of the listener -/

theorem Keys.set (h : Keys prim caller s) (request : Nat)
    (hr : Keyed prim caller.config.passphrase r) (ln : Listener) (sent : List Packet) :
    Keys prim caller (s.afterRequest request r ln sent) :=
  { h with
    requests := forall_mem_set h.requests request hr }

theorem Keys.reject_step (h : Keys prim caller s) (request : Nat) {reason : RejectionReason}
    (hr : r ∈ s.requests) (hcase : ConnRequest.RejectCase s.listener r.2 reason ln req sent) :
    Keys prim caller (s.afterRequest request (r.1, req) ln sent) := by
  cases hcase with
  | resolved _ => exact h.set request (h.requests r hr) _ _
  | rejected _ handshake q hprepare _ =>
    have hkeyed := (h.requests r hr).of_prepare { r.2 with handshake := handshake }
      { r.2.handshake with handshakeType := reason } hprepare rfl rfl rfl rfl
    exact h.set request hkeyed _ _

/-- An accepted request has a context with the keys it brought. -/
theorem Keys.accept_step (hinv : Inv caller listener s) (h : Keys prim caller s) (request : Nat)
    {conn : Except String SrtConn} (hr : r ∈ s.requests)
    (hcase : ConnRequest.AcceptCase s.listener r.2 ln req conn sent) :
    Keys prim caller
      { s.afterRequest request (r.1, req) ln sent with
        accepted := s.accepted ++ (conn.toOption.map (r.1, ·)).toList } := by
  have hnone : ∀ message : String,
      ((Except.error message : Except String SrtConn).toOption.map (r.1, ·)).toList = [] :=
    fun _ => rfl
  cases hcase with
  | noPassphrase _ _ _ hreject =>
    rw [hnone, List.append_nil]
    exact h.reject_step request hr hreject
  | resolved _ =>
    rw [hnone, List.append_nil]
    exact h.set request (h.requests r hr) _ _
  | created hopen hpassphrase recv send _ handshake q hprepare _ =>
    -- Nothing was accepted before from this socket, so there is no connection of the caller yet
    -- that could have another key.
    rw [hinv.peer r hr] at hopen
    have hnil := hinv.accepted_eq_nil hopen
    obtain ⟨cr, d, hoffers, -, -, hcrypto, -, hkey⟩ := h.requests r hr
    have hkeyed := (h.requests r hr).of_prepare
      { r.2 with config := r.2.connConfig, handshake := handshake } (r.2.acceptCIF recv send)
      hprepare rfl rfl rfl rfl
    rw [hnil, List.nil_append]
    exact
      { h.set request hkeyed s.listener [] with
        accepted := List.forall_mem_singleton.mpr
          ⟨cr, d, hoffers, hcrypto, hkey (hpassphrase (by rw [hcrypto]; rfl))⟩
        conns := by
          intro conn hconn
          obtain ⟨a, ha, -⟩ := hinv.conns conn hconn
          rw [hnil] at ha
          cases ha }

/-! ### Runs -/

/-- The key invariant survives every step in which the two parties are in step. -/
theorem Keys.step (hcaller : IsCaller caller) (hderives : prim.Derives caller.config.passphrase)
    (hpass : caller.config.passphrase ≠ []) (hinv : Inv caller listener s)
    (h : Keys prim caller s) {e : Event} (hC : s.InStep e) (hs : step prim s e = some s') :
    Keys prim caller s' := by
  cases hinv.step_cases hs with
  | unread => exact h
  | dialer index draws now p cif dl outputs hp hcif hcontrol hmessage hcase =>
    obtain ⟨hnew, hlast⟩ := hC.heeds hp hcontrol hcif
    obtain ⟨hconcluded, hsent, hmade⟩ :=
      h.dialer_spec hcaller hderives hpass hinv.dialer hmessage hnew hlast hcase
    exact
      { h with
        concluded := hconcluded
        toListener := fun q hq hhandshake cif hcif htype =>
          (List.mem_append.mp hq).elim (fun hq => h.toListener q hq hhandshake cif hcif htype)
            fun hq => hsent q hq hhandshake
        conns := by
          rw [conns_afterDialer]
          exact List.forall_mem_append.mpr ⟨h.conns, hmade⟩ }
  | listener _ _ _ _ _ _ _ _ hp hhandshake hcif hmessage hcase =>
    exact h.listener_step hderives hp hhandshake hcif hmessage hcase
  | setPassphrase request passphrase r hr =>
    -- The condition on the step: the listener sets the passphrase of the caller.
    have hsame : passphrase = caller.config.passphrase := Eq.trans hC hinv.dialer.passphrase
    have hkeyed := (h.requests r hr).setPassphrase hderives
    rw [hsame]
    exact { h with requests := (h.set request hkeyed s.listener []).requests }
  | accept request _ r hr _ _ _ _ hcase => exact h.accept_step hinv request hr hcase
  | reject request _ _ r hr _ _ _ _ hcase => exact h.reject_step request hr hcase

/-- With a passphrase both ends have one key, if the run is in step. -/
theorem keys_of_run {callerAddr : String} {timestamp : UInt32} {events : List Event}
    (hcaller : IsCaller caller) (hpass : caller.config.passphrase ≠ [])
    (hderives : prim.Derives caller.config.passphrase)
    (hC : RunMeets (Exchange.step prim) InStep (init caller ln callerAddr timestamp) events)
    (hrun : run (Exchange.step prim) (init caller ln callerAddr timestamp) events = some s) :
    Keys prim caller s :=
  (run_keeps hcaller (keys_init prim _ ln callerAddr timestamp)
    (fun hinv h hC hs => h.step hcaller hderives hpass hinv hC hs) hC hrun).2

end

end Exchange

end Gosrt
