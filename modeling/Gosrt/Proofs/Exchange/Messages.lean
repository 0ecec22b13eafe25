import Gosrt.Proofs.Dial
import Gosrt.Proofs.Listen
import Gosrt.Spec.Exchange

/-!
# `Gosrt.Proofs.Exchange.Messages`: what the two ends of an exchange say to each other

The caller says an INDUCTION or a CONCLUSION with its parameters (`CallerSays`). The listener
says an INDUCTION, a rejection, or the CONCLUSION of a connection that it has made
(`ListenerSays`). `dialer_spec` and `listener_spec` say that each end answers messages of the
other one with messages of its own.

The delays change hands twice. The caller asks with its own two, the listener takes the larger
one in each direction and sends both back, and the caller takes the larger ones again. Taking
the larger one twice changes nothing (`max_max`).
-/

set_option autoImplicit false

namespace Gosrt

open Lib

namespace Exchange

open Dialer

/-! ### The larger delay -/

theorem toNat_max (a b : UInt16) : (max a b).toNat = max a.toNat b.toNat := by
  show (if a ≤ b then b else a).toNat = _
  split <;> rename_i h <;> rw [UInt16.le_iff_toNat_le] at h <;> omega

theorem larger_eq_max (a b : UInt16) : (if a > b then a else b) = max b a := by
  rw [← UInt16.toNat_inj, toNat_max]
  split <;> rename_i h <;> rw [gt_iff_lt, UInt16.lt_iff_toNat_lt] at h <;> omega

theorem max_max (a b : UInt16) : max a (max b a) = max a b := by
  rw [← UInt16.toNat_inj, toNat_max, toNat_max, toNat_max]
  omega

theorem max_swap (a b : UInt16) : max a b = max b a := by
  rw [← UInt16.toNat_inj, toNat_max, toNat_max]
  omega

/-! ### Messages -/

/-- What a dialer keeps while it handles messages. -/
structure Evolves (dl dl' : Dialer) : Prop where
  socketId : dl'.socketId = dl.socketId
  sequenceNumber : dl'.initialPacketSequenceNumber = dl.initialPacketSequenceNumber
  passphrase : dl'.config.passphrase = dl.config.passphrase
  pbKeylen : dl'.config.pbKeylen = dl.config.pbKeylen
  streamId : dl'.config.streamId = dl.config.streamId
  receiverLatency : dl'.config.receiverLatency = dl.config.receiverLatency
  peerLatency : dl'.config.peerLatency = dl.config.peerLatency

/-- What is asked of the dialer at the start. -/
structure IsCaller (caller : Dialer) : Prop where
  sequenceNumber : caller.initialPacketSequenceNumber.IsSequenceNumber
  streamId : caller.config.streamId.length ≤ 512

/-- The listener's INDUCTION. -/
structure Induces (cif : CIFHandshake) : Prop where
  handshakeType : cif.handshakeType = HandshakeType.induction
  version : cif.version = 5
  encryptionField : cif.encryptionField = 0
  extensionField : cif.extensionField = 0x4A17
  plain : cif.Plain

/-- A CONCLUSION with the parameters of the caller. The type is left open, because the message
of a request takes the type of a rejection. -/
structure CallerConcludes (caller : Dialer) (cif : CIFHandshake) : Prop where
  wellFormed : cif.WellFormed
  hasHS : cif.hasHS = true
  srtHS : ∃ hs, cif.srtHS = some hs ∧
    hs.recvTSBPDDelay = caller.config.receiverLatency.ms16 ∧
    hs.sendTSBPDDelay = caller.config.peerLatency.ms16
  sequenceNumber : cif.initialPacketSequenceNumber = caller.initialPacketSequenceNumber
  srtSocketId : cif.srtSocketId = caller.socketId

/-- A CONCLUSION with the parameters of a connection of the listener. -/
structure ListenerConcludes (caller : Dialer) (listener : Config) (conn : SrtConn)
    (cif : CIFHandshake) : Prop where
  version : cif.version = 5
  srtHS : ∃ hs, cif.srtHS = some hs ∧
    hs.recvTSBPDDelay = max listener.receiverLatency.ms16 caller.config.peerLatency.ms16 ∧
    hs.sendTSBPDDelay = max caller.config.receiverLatency.ms16 listener.peerLatency.ms16
  sequenceNumber : cif.initialPacketSequenceNumber = conn.initialPacketSequenceNumber
  srtSocketId : cif.srtSocketId = conn.socketId

/-- The messages of the caller. -/
def CallerSays (caller : Dialer) (cif : CIFHandshake) : Prop :=
  cif.handshakeType = HandshakeType.induction ∧ cif.Plain ∨
    cif.handshakeType = HandshakeType.conclusion ∧ CallerConcludes caller cif

/-- The messages of the listener, with the connections that it has made. -/
def ListenerSays (caller : Dialer) (listener : Config) (accepted : List (Bytes × SrtConn))
    (cif : CIFHandshake) : Prop :=
  Induces cif ∨ cif.handshakeType.isRejection = true ∨
    cif.handshakeType = HandshakeType.conclusion ∧
      ∃ a ∈ accepted, ListenerConcludes caller listener a.2 cif

/-- What the caller puts on the wire. -/
def FromCaller (caller : Dialer) (payload : Bytes) : Prop :=
  ∃ cif, CIFHandshake.unmarshal {} payload = .ok cif ∧ CallerSays caller cif

/-- What the listener puts on the wire. -/
def FromListener (caller : Dialer) (listener : Config) (accepted : List (Bytes × SrtConn))
    (payload : Bytes) : Prop :=
  ∃ cif, CIFHandshake.unmarshal {} payload = .ok cif ∧
    ListenerSays caller listener accepted cif

/-- A request with the parameters of the caller. -/
structure Requested (caller : Dialer) (listener : Config) (req : ConnRequest) : Prop where
  receiverLatency : req.config.receiverLatency = listener.receiverLatency
  peerLatency : req.config.peerLatency = listener.peerLatency
  concludes : CallerConcludes caller req.handshake
  handshakeType : req.handshake.handshakeType = HandshakeType.conclusion ∨
    req.handshake.handshakeType.isRejection = true

/-- A connection of the listener with the agreed parameters. -/
structure Accepted (caller : Dialer) (listener : Config) (conn : SrtConn) : Prop where
  delay : conn.tsbpdDelay = agreedDelay listener caller.config
  peerDelay : conn.peerTsbpdDelay = agreedDelay caller.config listener
  sequenceNumber : conn.initialPacketSequenceNumber = caller.initialPacketSequenceNumber
  peerSocketId : conn.peerSocketId = caller.socketId

section
variable {prim : Primitives} {caller dl dl' : Dialer} {listener : Config}
  {accepted : List (Bytes × SrtConn)} {p : Packet} {cif : CIFHandshake}

theorem Evolves.refl (dl : Dialer) : Evolves dl dl := ⟨rfl, rfl, rfl, rfl, rfl, rfl, rfl⟩

theorem Evolves.trans {dl'' : Dialer} (h : Evolves dl dl') (h' : Evolves dl' dl'') :
    Evolves dl dl'' where
  socketId := h'.socketId.trans h.socketId
  sequenceNumber := h'.sequenceNumber.trans h.sequenceNumber
  passphrase := h'.passphrase.trans h.passphrase
  pbKeylen := h'.pbKeylen.trans h.pbKeylen
  streamId := h'.streamId.trans h.streamId
  receiverLatency := h'.receiverLatency.trans h.receiverLatency
  peerLatency := h'.peerLatency.trans h.peerLatency

/-- The MTU size of the peer does not matter for what is kept. -/
theorem evolves_config {config : Config} {mtu : UInt32}
    (h : config = dl.config ∨ config = dl.config.adjustMSS mtu) :
    Evolves dl { dl with config := config } := by
  rcases h with rfl | rfl
  · exact Evolves.refl dl
  · obtain ⟨hpass, hkey, hsid, hrecv, hpeer⟩ := dl.config.adjustMSS_fields mtu
    exact ⟨rfl, rfl, hpass, hkey, hsid, hrecv, hpeer⟩

theorem evolves_setupCrypto (cif : CIFHandshake) (draws : Draws) (version : UInt32) :
    Evolves dl { (dl.setupCrypto cif.encryptionField draws).1 with version := version } := by
  rw [setupCrypto_eq]
  exact ⟨rfl, rfl, rfl, rfl, rfl, rfl, rfl⟩

/-- A packet that is read has a message in its payload. -/
theorem ofPacket_arrives {addr : Option String}
    (h : (arrives addr p).header.isControlPacket = true) :
    CIFHandshake.ofPacket (arrives addr p) = CIFHandshake.unmarshal {} p.payload := if_pos h

/-- What the listener decodes from a CONCLUSION of the caller. -/
theorem CallerConcludes.received (hcaller : IsCaller caller) (h : CallerConcludes caller cif) :
    CallerConcludes caller cif.received where
  wellFormed := h.wellFormed.received
  hasHS := h.hasHS
  srtHS := by
    show ∃ hs, (if cif.hasHS then cif.srtHS else none) = some hs ∧ _
    rw [if_pos h.hasHS]
    exact h.srtHS
  sequenceNumber := by
    show Number.new (cif.initialPacketSequenceNumber.val &&& maxSequenceNumber) _ = _
    rw [h.sequenceNumber]
    exact hcaller.sequenceNumber
  srtSocketId := h.srtSocketId

/-- A rejection of the message keeps its parameters. -/
theorem CallerConcludes.prepared (h : CallerConcludes caller cif) (reason : RejectionReason) :
    CallerConcludes caller { cif with handshakeType := reason }.prepared where
  wellFormed := by
    have hwf : { cif with handshakeType := reason }.WellFormed := { h.wellFormed with }
    exact hwf.prepared
  hasHS := h.hasHS
  srtHS := h.srtHS
  sequenceNumber := h.sequenceNumber
  srtSocketId := h.srtSocketId

/-- A CONCLUSION of the caller stays one when it is prepared as an answer. -/
theorem CallerConcludes.of_prepare (h : CallerConcludes caller cif) {reason : RejectionReason}
    {handshake : CIFHandshake}
    (hprepare : { cif with handshakeType := reason }.prepare = .ok handshake) :
    CallerConcludes caller handshake ∧ handshake.handshakeType = reason := by
  have hwf : { cif with handshakeType := reason }.WellFormed := { h.wellFormed with }
  rw [hwf.prepare_eq] at hprepare
  cases hprepare
  exact ⟨h.prepared reason, rfl⟩

/-! ### The dialer -/

/-- The CONCLUSION with which the dialer answers the listener's INDUCTION. -/
theorem callerConcludes_withKeyMaterial {dl₀ : Dialer} (hcaller : IsCaller caller)
    (h₀ : Evolves caller dl₀) (hdl : Evolves caller dl) (hind : Induces cif)
    {conclusion : CIFHandshake}
    (hkm : dl.withKeyMaterial prim (dl.withExtensions (dl₀.conclusionCIF cif)) = .ok conclusion) :
    conclusion.handshakeType = HandshakeType.conclusion ∧ CallerConcludes caller conclusion := by
  have hlen : dl.config.streamId.length ≤ 512 := by
    rw [hdl.streamId]
    exact hcaller.streamId
  have hfield : CIFHandshake.knownEncryptionField cif.encryptionField = true := by
    rw [hind.encryptionField]
    rfl
  have hcongestion : cif.congestionCtl.length ≤ 4 := by
    rw [hind.plain.congestionCtl]
    exact Nat.zero_le 4
  have hhs : ∃ hs, (dl.withExtensions (dl₀.conclusionCIF cif)).srtHS = some hs ∧
      hs.recvTSBPDDelay = caller.config.receiverLatency.ms16 ∧
      hs.sendTSBPDDelay = caller.config.peerLatency.ms16 :=
    ⟨_, rfl, congrArg Duration.ms16 hdl.receiverLatency, congrArg Duration.ms16 hdl.peerLatency⟩
  -- The two cases differ in the key material only.
  rcases withKeyMaterial_cases hkm with ⟨-, rfl⟩ | ⟨cr, km, -, hmarshal, rfl⟩
  · have hnone : ∀ {P : Prop}, cif.hasKM = true → P := by
      intro P h
      rw [hind.plain.hasKM] at h
      cases h
    exact ⟨rfl, ⟨hind.version, hfield, fun _ => rfl, hnone, hlen, hcongestion⟩, rfl, hhs,
      h₀.sequenceNumber, h₀.socketId⟩
  · have hok : (cr.marshalKM prim {} dl.config.passphrase .evenKeyEncrypted).2 = .ok () := by
      rw [hmarshal]
    have hkey : PacketEncryption.evenKeyEncrypted ≠ .unencryptedPacket := by decide
    obtain ⟨kek, hkek⟩ := cr.exists_kek_of_marshalKM prim {} hkey hok
    obtain ⟨wrap, hspec, hwf, -⟩ := cr.marshalKM_spec prim hkey hkek
    rw [hspec] at hmarshal
    cases hmarshal
    exact ⟨rfl, ⟨hind.version, hfield, fun _ => rfl, fun _ => ⟨_, rfl, hwf⟩, hlen, hcongestion⟩,
      rfl, hhs, h₀.sequenceNumber, h₀.socketId⟩

/-- A CONCLUSION with the parameters of the caller, on the wire. -/
theorem fromCaller_marshal (hcaller : IsCaller caller) (h : CallerConcludes caller cif)
    (htype : cif.handshakeType = HandshakeType.conclusion) {data : Bytes}
    (hdata : cif.marshal = .ok data) : FromCaller caller data := by
  obtain ⟨data', hdata', hdecode⟩ := CIFHandshake.unmarshal_marshal h.wellFormed htype
  rw [hdata] at hdata'
  cases hdata'
  exact ⟨_, hdecode, Or.inr ⟨htype, h.received hcaller⟩⟩

/-- The INDUCTION with which the dialer starts. -/
theorem unmarshal_sendInduction {timestamp : UInt32}
    (hp : p ∈ (dl.sendInduction timestamp).toOption.toList) :
    ∃ cif, CIFHandshake.unmarshal {} p.payload = .ok cif ∧
      cif.handshakeType = HandshakeType.induction ∧ cif.Plain := by
  have hsend := eq_ok_of_toOption (Option.mem_toList.mp hp)
  unfold sendInduction at hsend
  obtain ⟨data, hdata, hsend⟩ := bind_eq_ok_iff.mp hsend
  cases hsend
  obtain ⟨cif, hprepare, hdecode⟩ := CIFHandshake.unmarshal_marshal_of_ne hdata
    (show HandshakeType.induction ≠ HandshakeType.conclusion by decide)
  obtain ⟨_, _, _, rfl⟩ := CIFHandshake.prepare_fields hprepare
  exact ⟨_, hdecode, rfl, CIFHandshake.plain_fixed _⟩

/-- The packets that a dialer sends. -/
def sends (outputs : List Output) : List Packet := outputs.filterMap packet?

@[simp] theorem sends_append (os os' : List Output) :
    sends (os ++ os') = sends os ++ sends os' := List.filterMap_append

@[simp] theorem sends_fail (message : String) : sends [fail message] = [] := rfl

@[simp] theorem sends_send (q : Packet) : sends [.send q] = [q] := rfl

@[simp] theorem sends_sends (ps : List Packet) : sends (ps.map .send) = ps := by
  induction ps with
  | nil => rfl
  | cons q ps ih => exact congrArg (q :: ·) ih

@[simp] theorem sends_setupCrypto (encryptionField : UInt16) (draws : Draws) :
    sends (dl.setupCrypto encryptionField draws).2 = [] := by
  unfold setupCrypto
  split
  · rfl
  · split
    · rfl
    · rfl

/-- The connections that a dialer makes. -/
def made (outputs : List Output) : List SrtConn :=
  (Dialing.written outputs).filterMap Except.toOption

@[simp] theorem made_append (os os' : List Output) : made (os ++ os') = made os ++ made os' := by
  unfold made
  rw [Dialing.written_append, List.filterMap_append]

@[simp] theorem made_fail (message : String) : made [fail message] = [] := rfl

@[simp] theorem made_send (q : Packet) : made [.send q] = [] := rfl

@[simp] theorem made_sends (ps : List Packet) : made (ps.map .send) = [] := by
  unfold made
  rw [Dialing.written_sends]
  rfl

@[simp] theorem made_setupCrypto (encryptionField : UInt16) (draws : Draws) :
    made (dl.setupCrypto encryptionField draws).2 = [] :=
  (Dialing.written_setupCrypto dl encryptionField draws).1

/-- What the dialer does with a message, when only the listener's INDUCTION arrives as one: the
dialer afterwards, what it sends, and the connections that it makes. -/
inductive DialerCase (prim : Primitives) (dl : Dialer) (cif : CIFHandshake) (draws : Draws)
    (now : UInt64) : Dialer → List Packet → List SrtConn → Prop where
  | concludes (hind : Induces cif) (conclusion : CIFHandshake) (q : Packet)
      (hhandshake : q.header.controlType = CtrlType.handshake)
      (hkm : (dl.setupCrypto cif.encryptionField draws).1.withKeyMaterial prim
        ((dl.setupCrypto cif.encryptionField draws).1.withExtensions (dl.conclusionCIF cif))
          = .ok conclusion)
      (hdata : conclusion.marshal = .ok q.payload) :
      DialerCase prim dl cif draws now
        { (dl.setupCrypto cif.encryptionField draws).1 with version := 5 } [q] []
  | noKeyMaterial (hind : Induces cif) (cr : Crypto)
      (hkm : (cr.marshalKM prim {} dl.config.passphrase .evenKeyEncrypted).2 ≠ .ok ()) :
      DialerCase prim dl cif draws now
        { (dl.setupCrypto cif.encryptionField draws).1 with version := 5 } [] []
  | refuses (config : Config) (sent : List Packet)
      (hconfig : config = dl.config ∨ cif.handshakeType = HandshakeType.conclusion ∧
        config = dl.config.adjustMSS cif.maxTransmissionUnitSize)
      (hshutdown : ∀ q ∈ sent, q.header.controlType = CtrlType.shutdown) :
      DialerCase prim dl cif draws now { dl with config := config } sent []
  | connects (htype : cif.handshakeType = HandshakeType.conclusion) :
      DialerCase prim dl cif draws now
        { dl with config := dl.config.adjustMSS cif.maxTransmissionUnitSize } []
        [{ dl with config := dl.config.adjustMSS cif.maxTransmissionUnitSize }.newConn cif now]

/-- What the dialer makes of a message from the listener. -/
theorem handleHandshake_cases {draws : Draws} {now : UInt64} {outputs : List Output}
    (hcif : CIFHandshake.ofPacket p = .ok cif)
    (hind : cif.handshakeType = HandshakeType.induction → Induces cif)
    (h : dl.handleHandshake prim p draws now = .ok (dl', outputs)) :
    DialerCase prim dl cif draws now dl' (sends outputs) (made outputs) := by
  unfold handleHandshake at h
  rw [hcif] at h
  dsimp only at h
  split at h
  · rename_i htype
    replace hind := hind htype
    -- Of the outcomes for an INDUCTION, three are for other versions or magic numbers.
    cases handleInduction_cases h with
    | unsupported hversion => exact absurd (Or.inr hind.version) hversion
    | wrongMagic _ hmagic => exact absurd hind.extensionField hmagic
    | noKeyMaterial _ _ cr message _ hkm =>
      simp only [sends_append, sends_setupCrypto, sends_fail, made_append, made_setupCrypto,
        made_fail, List.append_nil]
      refine .noKeyMaterial hind cr ?_
      rw [hkm]
      nofun
    | concludes5 _ _ conclusion data hkm hdata =>
      simp only [sends_append, sends_setupCrypto, sends_send, made_append, made_setupCrypto,
        made_send, List.nil_append, List.append_nil]
      exact .concludes hind conclusion _ rfl hkm hdata
    | concludes4 hversion =>
      rw [hind.version] at hversion
      cases hversion
  split at h
  · rename_i htype
    have hcase := handleConclusion_cases dl cif now
    rw [Except.ok.inj h] at hcase
    cases hcase with
    | refused config sent message hconfig hshutdown _ =>
      show DialerCase prim dl cif draws now _ (sends (sent.map .send ++ [fail message]))
        (made (sent.map .send ++ [fail message]))
      simp only [sends_append, sends_sends, sends_fail, made_append, made_sends, made_fail,
        List.append_nil]
      exact .refuses config sent (hconfig.imp_right fun h => ⟨htype, h⟩) hshutdown
    | created _ => exact .connects htype
  · cases h
    exact .refuses dl.config [] (Or.inl rfl) (List.forall_mem_nil _)

/-- The connection that the dialer makes from the listener's CONCLUSION. -/
theorem parametersAgree_newConn {conn : SrtConn} (now : UInt64) (hdl : Evolves caller dl)
    (hconn : Accepted caller listener conn) (h : ListenerConcludes caller listener conn cif) :
    ParametersAgree caller.config listener (dl.newConn cif now) conn := by
  obtain ⟨hs, hsome, hrecv, hsend⟩ := h.srtHS
  -- The dialer takes the larger of its own latency and a maximum that has it already.
  have htwice : ∀ a b : UInt16, max a (max a b) = max a b := by
    intro a b
    rw [max_swap a b, max_max, max_swap]
  have hdelays : delays dl.config cif =
      (max caller.config.receiverLatency.ms16 listener.peerLatency.ms16,
        max listener.receiverLatency.ms16 caller.config.peerLatency.ms16) := by
    unfold delays
    rw [hsome]
    dsimp only
    rw [if_pos h.version, larger_eq_max, larger_eq_max, hrecv, hsend, hdl.receiverLatency,
      hdl.peerLatency, htwice, max_max, max_swap caller.config.peerLatency.ms16]
  have hnew : (dl.newConn cif now).tsbpdDelay = agreedDelay caller.config listener ∧
      (dl.newConn cif now).peerTsbpdDelay = agreedDelay listener caller.config := by
    unfold newConn
    rw [hdelays]
    exact ⟨rfl, rfl⟩
  exact
    { callerDelay := hnew.1
      listenerPeerDelay := hconn.peerDelay
      listenerDelay := hconn.delay
      callerPeerDelay := hnew.2
      sequenceNumber := h.sequenceNumber
      callerPeer := h.srtSocketId
      listenerPeer := hconn.peerSocketId.trans hdl.socketId.symm }

/-- A message of the listener that is an INDUCTION is its answer to the caller's. -/
theorem ListenerSays.induces (hmessage : ListenerSays caller listener accepted cif)
    (htype : cif.handshakeType = HandshakeType.induction) : Induces cif := by
  rcases hmessage with hind | hreject | ⟨hconclusion, -⟩
  · exact hind
  · rw [htype] at hreject
    exact absurd hreject (by decide)
  · rw [htype] at hconclusion
    exact absurd hconclusion (by decide)

/-- A message of the listener that is a CONCLUSION belongs to one of its connections. -/
theorem ListenerSays.concludes (hmessage : ListenerSays caller listener accepted cif)
    (htype : cif.handshakeType = HandshakeType.conclusion) :
    ∃ a ∈ accepted, ListenerConcludes caller listener a.2 cif := by
  rcases hmessage with hind | hreject | ⟨-, hconcludes⟩
  · have hinduction := hind.handshakeType
    rw [htype] at hinduction
    exact absurd hinduction (by decide)
  · rw [htype] at hreject
    exact absurd hreject (by decide)
  · exact hconcludes

/-- What the dialer does with a message of the listener. -/
theorem dialer_spec {draws : Draws} {now : UInt64} {sent : List Packet} {conns : List SrtConn}
    (hcaller : IsCaller caller) (hdl : Evolves caller dl)
    (haccepted : ∀ a ∈ accepted, Accepted caller listener a.2)
    (hmessage : ListenerSays caller listener accepted cif)
    (hcase : DialerCase prim dl cif draws now dl' sent conns) :
    Evolves caller dl' ∧
      (∀ q ∈ sent, q.header.controlType = CtrlType.handshake → FromCaller caller q.payload) ∧
      ∀ conn ∈ conns, ∃ a ∈ accepted, ParametersAgree caller.config listener conn a.2 := by
  cases hcase with
  | concludes hind conclusion q _ hkm hdata =>
    have hdl' : Evolves caller (dl.setupCrypto cif.encryptionField draws).1 :=
      hdl.trans (evolves_setupCrypto cif draws _)
    obtain ⟨htype, hconcludes⟩ := callerConcludes_withKeyMaterial hcaller hdl hdl' hind hkm
    refine ⟨hdl.trans (evolves_setupCrypto cif draws 5), fun r hr _ => ?_, List.forall_mem_nil _⟩
    rw [List.mem_singleton.mp hr]
    exact fromCaller_marshal hcaller hconcludes htype hdata
  | noKeyMaterial _ _ _ =>
    exact ⟨hdl.trans (evolves_setupCrypto cif draws 5), List.forall_mem_nil _,
      List.forall_mem_nil _⟩
  | refuses config sent hconfig hshutdown =>
    refine ⟨hdl.trans (evolves_config (hconfig.imp_right And.right)),
      fun q hq hhandshake => ?_, List.forall_mem_nil _⟩
    -- What is sent with a refusal is a shutdown packet, not a handshake.
    rw [hshutdown q hq] at hhandshake
    exact absurd hhandshake (by decide)
  | connects htype =>
    have hdl' : Evolves caller
        { dl with config := dl.config.adjustMSS cif.maxTransmissionUnitSize } :=
      hdl.trans (evolves_config (Or.inr rfl))
    obtain ⟨a, ha, hconcludes⟩ := hmessage.concludes htype
    exact ⟨hdl', List.forall_mem_nil _, List.forall_mem_singleton.mpr
      ⟨a, ha, parametersAgree_newConn now hdl' (haccepted a ha) hconcludes⟩⟩

/-! ### The listener -/

/-- A rejection is a message that the listener may send. -/
theorem fromListener_of_isRejection {q : Packet} (h : IsRejection q) :
    FromListener caller listener accepted q.payload := by
  obtain ⟨cif, hdecode, hreject⟩ := h.unmarshal
  exact ⟨cif, hdecode, Or.inr (Or.inl hreject)⟩

/-- The message of a new request has the parameters of the caller. -/
theorem CallerConcludes.requests {handshake : CIFHandshake} (h : CallerConcludes caller cif)
    (htype : cif.handshakeType = HandshakeType.conclusion)
    (hrequests : Listener.Requests cif handshake) :
    CallerConcludes caller handshake ∧
      (handshake.handshakeType = HandshakeType.conclusion ∨
        handshake.handshakeType.isRejection = true) := by
  rcases hrequests with rfl | hprepare
  · exact ⟨h, Or.inl htype⟩
  · obtain ⟨hconcludes, hreason⟩ := h.of_prepare hprepare
    refine ⟨hconcludes, Or.inr ?_⟩
    rw [hreason]
    rfl

/-- What the listener does with a message of the caller. -/
theorem listener_spec {ln ln' : Listener} {a : Arrival} {req : Option ConnRequest}
    {sent : List Packet} (hln : ln.config = listener)
    (hmessage : CallerSays caller cif)
    (hcase : Listener.MessageCase ln p cif a ln' req sent) :
    ln'.config = listener ∧
      (∀ conn, ln.connsByPeer.lookup caller.socketId = some conn →
        ln'.connsByPeer.lookup caller.socketId = some conn) ∧
      (∀ q ∈ sent, FromListener caller listener accepted q.payload) ∧
      ∀ r, req = some r → r.peerSocketId = caller.socketId ∧ Requested caller listener r := by
  cases hcase with
  | answered htype synCookie q hdata =>
    have hplain : cif.Plain := by
      rcases hmessage with ⟨-, hplain⟩ | ⟨hconclusion, -⟩
      · exact hplain
      · rw [htype] at hconclusion
        exact absurd hconclusion (by decide)
    have hne : cif.handshakeType ≠ HandshakeType.conclusion := by
      rw [htype]
      decide
    refine ⟨hln, fun _ hlookup => hlookup, ?_, fun _ hr => nomatch hr⟩
    intro r hr
    rw [List.mem_singleton.mp hr]
    -- `Marshal` leaves the answer alone, so its fixed fields arrive as they were set.
    obtain ⟨answer, hprepare, hdecode⟩ := CIFHandshake.unmarshal_marshal_of_ne hdata hne
    have hsame := hprepare.symm.trans (CIFHandshake.Plain.prepare_eq
      ⟨hplain.hasHS, hplain.hasKM, hplain.hasSID, hplain.hasCongestionCtl, hplain.congestionCtl⟩
      rfl hne)
    cases hsame
    exact ⟨_, hdecode, Or.inl ⟨htype, rfl, rfl, rfl, CIFHandshake.plain_fixed _⟩⟩
  | concluded htype _ _ _ hcase hsent =>
    have hconcludes : CallerConcludes caller { cif with peerIP := ln.ip } := by
      rcases hmessage with ⟨hinduction, -⟩ | ⟨-, hconcludes⟩
      · rw [htype] at hinduction
        exact absurd hinduction (by decide)
      · exact { hconcludes with wellFormed := { hconcludes.wellFormed with } }
    have hid : cif.srtSocketId = caller.socketId := hconcludes.srtSocketId
    have hanswers : ∀ q ∈ sent, FromListener caller listener accepted q.payload :=
      fun q hq => fromListener_of_isRejection (hsent q hq)
    cases hcase with
    | ignored => exact ⟨hln, fun _ hlookup => hlookup, hanswers, fun _ hr => nomatch hr⟩
    | exhausted hnew _ =>
      refine ⟨hln, fun conn hlookup => ?_, hanswers, fun _ hr => nomatch hr⟩
      change ln.connsByPeer.lookup cif.srtSocketId = none at hnew
      rw [hid, hlookup] at hnew
      cases hnew
    | created handshake crypto socketId hnew _ hrequests hcrypto =>
      refine ⟨hln, fun conn hlookup => ?_, hanswers, fun r hr => ?_⟩
      · change ln.connsByPeer.lookup cif.srtSocketId = none at hnew
        rw [hid, hlookup] at hnew
        cases hnew
      · cases hr
        obtain ⟨hhandshake, htypes⟩ := hconcludes.requests htype hrequests
        obtain ⟨-, -, -, hrecv, hpeer⟩ :=
          ln.config.adjustMSS_fields cif.maxTransmissionUnitSize
        rw [hln] at hrecv hpeer
        exact ⟨hid, hln ▸ hrecv, hln ▸ hpeer, hhandshake, htypes⟩
  | dropped =>
    exact ⟨hln, fun _ hlookup => hlookup, fun _ hq => absurd hq List.not_mem_nil,
      fun _ hr => nomatch hr⟩

/-! ### The application of the listener -/

/-- The delays of a request. -/
theorem Requested.delays_eq {req : ConnRequest} (h : Requested caller listener req) :
    req.delays = .ok
      (max listener.receiverLatency.ms16 caller.config.peerLatency.ms16,
        max caller.config.receiverLatency.ms16 listener.peerLatency.ms16) := by
  obtain ⟨hs, hsome, hrecv, hsend⟩ := h.concludes.srtHS
  unfold ConnRequest.delays
  dsimp only
  rw [if_pos h.concludes.wellFormed.version, hsome, orPanic_some, ok_bind, larger_eq_max,
    larger_eq_max, hrecv, hsend, h.receiverLatency, h.peerLatency,
    max_swap listener.peerLatency.ms16]
  rfl

/-- The connection that `Accept` makes, and its CONCLUSION. -/
theorem Requested.accept {req : ConnRequest} {recv send : UInt16} {q : Packet}
    (h : Requested caller listener req) (ln : Listener) (payload : Bytes)
    (hcaller : IsCaller caller)
    (hpeer : req.peerSocketId = caller.socketId) (hdelays : req.delays = .ok (recv, send))
    (hdata : (req.acceptCIF recv send).marshal = .ok q.payload) :
    Accepted caller listener (req.newConn ln recv send) ∧
      FromListener caller listener [(payload, req.newConn ln recv send)] q.payload := by
  rw [h.delays_eq] at hdelays
  cases hdelays
  have hversion := h.concludes.wellFormed.version
  obtain ⟨hs, hsome, -, -⟩ := h.concludes.srtHS
  refine ⟨⟨rfl, rfl, h.concludes.sequenceNumber, hpeer⟩, ?_⟩
  rcases h.handshakeType with htype | hreject
  · -- A CONCLUSION: the delays of the connection are what the caller decodes.
    have hwf := h.concludes.wellFormed
    have hhs : (req.acceptCIF
        (max listener.receiverLatency.ms16 caller.config.peerLatency.ms16)
        (max caller.config.receiverLatency.ms16 listener.peerLatency.ms16)).srtHS = some
          { srtVersion := srtVersion
            srtFlags := CIFHandshakeExtensionFlags.own
            recvTSBPDDelay := max listener.receiverLatency.ms16 caller.config.peerLatency.ms16
            sendTSBPDDelay := max caller.config.receiverLatency.ms16
              listener.peerLatency.ms16 } := by
      unfold ConnRequest.acceptCIF
      rw [hsome, if_pos hversion]
      rfl
    obtain ⟨data, hmarshal, hdecode⟩ := CIFHandshake.unmarshal_marshal
      (c := req.acceptCIF _ _)
      { hwf with srtHS := fun _ => by rw [hhs]; rfl } htype
    rw [hdata] at hmarshal
    cases hmarshal
    refine ⟨_, hdecode, Or.inr (Or.inr ⟨htype, _, List.mem_singleton_self _, ?_⟩)⟩
    exact
      { version := hversion
        srtHS := ⟨_, (if_pos h.concludes.hasHS).trans hhs, rfl, rfl⟩
        sequenceNumber := by
          show Number.new (req.handshake.initialPacketSequenceNumber.val &&& _) _ =
            req.handshake.initialPacketSequenceNumber
          rw [h.concludes.sequenceNumber]
          exact hcaller.sequenceNumber
        srtSocketId := rfl }
  · exact fromListener_of_isRejection ⟨req.acceptCIF _ _, hreject, hdata⟩

end

end Exchange

end Gosrt
