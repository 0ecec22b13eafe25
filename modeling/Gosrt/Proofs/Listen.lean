import Gosrt.Proofs.HandshakeCodec
import Gosrt.Spec.Listen

/-!
# `Gosrt.Proofs.Listen`: what the listener does with a message and with a request

`RequestCase`, `RejectCase` and `AcceptCase` are the outcomes of `newConnRequest` on a
CONCLUSION, of `Reject` and of `Accept`. The proofs about whole runs go through them, and do
not look into the functions again.
-/

set_option autoImplicit false

namespace Gosrt

open Lib

/-- The packet carries a rejection. -/
def IsRejection (q : Packet) : Prop :=
  ∃ cif : CIFHandshake, cif.handshakeType.isRejection = true ∧ cif.marshal = .ok q.payload

/-- What the peer decodes from a rejection is one. -/
theorem IsRejection.unmarshal {q : Packet} (h : IsRejection q) :
    ∃ cif, CIFHandshake.unmarshal {} q.payload = .ok cif ∧
      cif.handshakeType.isRejection = true := by
  obtain ⟨cif, hreject, hdata⟩ := h
  have hne : cif.handshakeType ≠ HandshakeType.conclusion := by
    intro heq
    rw [heq] at hreject
    exact absurd hreject (by decide)
  obtain ⟨cif', hprepare, hdecode⟩ := CIFHandshake.unmarshal_marshal_of_ne hdata hne
  obtain ⟨_, _, _, rfl⟩ := CIFHandshake.prepare_fields hprepare
  exact ⟨_, hdecode, hreject⟩

namespace Listener

section
variable {prim : Primitives} {ln ln' : Listener} {p q : Packet} {cif cif' : CIFHandshake}
  {a : Arrival} {req : Option ConnRequest} {sent : List Packet}

theorem marshalCIF_ok (h : marshalCIF p cif = .ok (cif', q)) :
    cif.prepare = .ok cif' ∧ cif.marshal = .ok q.payload := by
  unfold marshalCIF at h
  obtain ⟨data, hdata, h⟩ := bind_eq_ok_iff.mp h
  obtain ⟨c, hprepare, h⟩ := bind_eq_ok_iff.mp h
  cases h
  exact ⟨hprepare, hdata⟩

/-- The message of a request: the CONCLUSION, or what the rejection for its MTU size left. -/
def Requests (cif handshake : CIFHandshake) : Prop :=
  handshake = cif ∨
    { cif with handshakeType := RejectionReason.rogue }.prepare = .ok handshake

theorem Requests.fields {handshake : CIFHandshake} (h : Requests cif handshake) :
    handshake.srtSocketId = cif.srtSocketId ∧ handshake.srtKM = cif.srtKM := by
  rcases h with rfl | hprepare
  · exact ⟨rfl, rfl⟩
  · obtain ⟨_, _, _, rfl⟩ := CIFHandshake.prepare_fields hprepare
    exact ⟨rfl, rfl⟩

/-- The request that `newConnRequest` makes. -/
def newRequest (p : Packet) (config : Config) (peerSocketId : UInt32)
    (handshake : CIFHandshake) (crypto : Option Crypto) (socketId : UInt32) : ConnRequest where
  addr := p.header.addr
  localAddr := p.header.localAddr
  socketId := socketId
  peerSocketId := peerSocketId
  timestamp := p.header.timestamp
  config := config
  handshake := handshake
  crypto := crypto
  passphrase := []

/-- What `newConnRequest` can do with a CONCLUSION. Whatever it sends is a rejection. -/
inductive RequestCase (ln : Listener) (p : Packet) (cif : CIFHandshake) (a : Arrival)
    (sent : List Packet) : Listener → Option ConnRequest → Prop where
  /-- The message is refused, or the peer is known already. -/
  | ignored : RequestCase ln p cif a sent ln none
  /-- No socket id was found. -/
  | exhausted (hnew : ln.connsByPeer.lookup cif.srtSocketId = none)
      (hsocket : generateSocketId ln.conns 10 a.socketIds = none) :
      RequestCase ln p cif a sent
        { ln with connsByPeer := ln.connsByPeer.insert cif.srtSocketId none } none
  | created (handshake : CIFHandshake) (crypto : Option Crypto) (socketId : UInt32)
      (hnew : ln.connsByPeer.lookup cif.srtSocketId = none)
      (hsocket : generateSocketId ln.conns 10 a.socketIds = some socketId)
      (hrequests : Requests cif handshake)
      (hcrypto : requestCrypto handshake a.draws = some crypto) :
      RequestCase ln p cif a sent
        { ln with
          conns := ln.conns.insert socketId none
          connsByPeer := ln.connsByPeer.insert cif.srtSocketId none }
        (some (newRequest p (ln.config.adjustMSS cif.maxTransmissionUnitSize) cif.srtSocketId
          handshake crypto socketId))

/-- A refused message is answered with one rejection. -/
theorem refuse_cases {before : List Packet} {reason : RejectionReason}
    (hreason : HandshakeType.isRejection reason = true)
    (h : ln.refuse before p cif' reason = .ok (ln', req, sent)) :
    RequestCase ln p cif a sent ln' req ∧ ∀ q ∈ sent, IsRejection q := by
  unfold refuse at h
  split at h
  · obtain ⟨⟨c, q⟩, hmarshal, h⟩ := bind_eq_ok_iff.mp h
    cases h
    refine ⟨.ignored, fun r hr => ?_⟩
    rw [List.mem_singleton.mp hr]
    exact ⟨{ cif' with handshakeType := reason }, hreason, (marshalCIF_ok hmarshal).2⟩
  · cases h

/-- The reasons for which `newConnRequest` refuses a CONCLUSION are rejections. -/
theorem isRejection_checkVersion {config : Config} {reason : RejectionReason}
    (h : checkVersion config cif = some reason) : HandshakeType.isRejection reason = true := by
  unfold checkVersion at h
  split at h
  · split at h
    · cases h
      rfl
    · cases h
  split at h
  · split at h
    · cases h
      rfl
    split at h
    · cases h
      rfl
    split at h
    · cases h
      rfl
    split at h
    · cases h
      rfl
    split at h
    · cases h
      rfl
    · cases h
  · cases h
    rfl

/-- The size check refuses or leaves a request. -/
theorem checkSize_cases (h : ln.checkSize p cif = .ok (cif', sent)) :
    Requests cif cif' ∧ ∀ q ∈ sent, IsRejection q := by
  unfold checkSize at h
  split at h
  · obtain ⟨⟨c, q⟩, hmarshal, h⟩ := bind_eq_ok_iff.mp h
    cases h
    obtain ⟨hprepare, hdata⟩ := marshalCIF_ok hmarshal
    refine ⟨Or.inr hprepare, fun r hr => ?_⟩
    rw [List.mem_singleton.mp hr]
    exact ⟨{ cif with handshakeType := RejectionReason.rogue }, rfl, hdata⟩
  · cases h
    exact ⟨Or.inl rfl, List.forall_mem_nil _⟩

theorem admission_cases {before : List Packet} (hbefore : ∀ q ∈ before, IsRejection q)
    (hrequests : Requests cif cif')
    (h : ln.admission (ln.config.adjustMSS cif.maxTransmissionUnitSize) p cif' before a
      = .ok (ln', req, sent)) :
    RequestCase ln p cif a sent ln' req ∧ ∀ q ∈ sent, IsRejection q := by
  unfold admission at h
  cases hcheck : checkVersion (ln.config.adjustMSS cif.maxTransmissionUnitSize) cif' with
  | some reason =>
    rw [hcheck] at h
    exact refuse_cases (isRejection_checkVersion hcheck) h
  | none =>
    rw [hcheck] at h
    cases hcrypto : requestCrypto cif' a.draws with
    | none =>
      rw [hcrypto] at h
      exact refuse_cases rfl h
    | some crypto =>
      rw [hcrypto] at h
      -- `register` looks the peer up under the socket id of the request, which the checks before it
      -- have not changed.
      have hid := hrequests.fields.1
      unfold register at h
      dsimp only at h
      rw [hid] at h
      cases hknown : ln.connsByPeer.lookup cif.srtSocketId with
      | some conn =>
        rw [hknown] at h
        cases h
        exact ⟨.ignored, hbefore⟩
      | none =>
        rw [hknown] at h
        cases hsocket : generateSocketId ln.conns 10 a.socketIds with
        | none =>
          rw [hsocket] at h
          cases h
          exact ⟨.exhausted hknown hsocket, hbefore⟩
        | some socketId =>
          rw [hsocket] at h
          cases h
          exact ⟨.created cif' crypto socketId hknown hsocket hrequests hcrypto, hbefore⟩

/-- A CONCLUSION is registered or refused. -/
theorem request_cases (h : ln.request prim p cif a = .ok (ln', req, sent)) :
    RequestCase ln p cif a sent ln' req ∧ ∀ q ∈ sent, IsRejection q := by
  unfold request at h
  obtain ⟨saddr, -, h⟩ := bind_eq_ok_iff.mp h
  split at h
  · exact refuse_cases rfl h
  split at h
  · exact refuse_cases rfl h
  obtain ⟨⟨cif', before⟩, hsize, h⟩ := bind_eq_ok_iff.mp h
  obtain ⟨hrequests, hbefore⟩ := checkSize_cases hsize
  exact admission_cases hbefore hrequests h

/-- The socket id that is drawn is not in use. -/
theorem lookup_generateSocketId {conns : ConnMap} {tries : Nat} {draws : List (Option UInt32)}
    {socketId : UInt32} (h : generateSocketId conns tries draws = some socketId) :
    conns.lookup socketId = none := by
  fun_induction generateSocketId conns tries draws with
  | case1 tries id draws hfree =>
    cases h
    exact Option.isNone_iff_eq_none.mp hfree
  | case2 tries id draws hused ih => exact ih h
  | case3 => cases h

/-- What `newConnRequest` can do with a message. -/
inductive MessageCase (ln : Listener) (p : Packet) (cif : CIFHandshake) (a : Arrival) :
    Listener → Option ConnRequest → List Packet → Prop where
  | answered (htype : cif.handshakeType = HandshakeType.induction) (synCookie : UInt32)
      (q : Packet)
      (hdata : { cif with
          peerIP := ln.ip
          version := 5
          encryptionField := 0
          extensionField := 0x4A17
          synCookie := synCookie }.marshal = .ok q.payload) :
      MessageCase ln p cif a ln none [q]
  | concluded (htype : cif.handshakeType = HandshakeType.conclusion) (ln' : Listener)
      (req : Option ConnRequest) (sent : List Packet)
      (hcase : RequestCase ln (answer p cif.srtSocketId a.timestamp) { cif with peerIP := ln.ip }
        a sent ln' req)
      (hsent : ∀ q ∈ sent, IsRejection q) :
      MessageCase ln p cif a ln' req sent
  | dropped : MessageCase ln p cif a ln none []

/-- Every handshake of a peer is one of these cases. -/
theorem newConnRequest_cases (hcif : CIFHandshake.ofPacket p = .ok cif)
    (h : ln.newConnRequest prim p a = .ok (ln', req, sent)) :
    MessageCase ln p cif a ln' req sent := by
  unfold newConnRequest at h
  rw [hcif] at h
  dsimp only at h
  split at h
  · rename_i htype
    unfold answerInduction at h
    obtain ⟨saddr, -, h⟩ := bind_eq_ok_iff.mp h
    obtain ⟨⟨c, q⟩, hmarshal, h⟩ := bind_eq_ok_iff.mp h
    cases h
    exact .answered htype _ q (marshalCIF_ok hmarshal).2
  split at h
  · rename_i htype
    obtain ⟨hcase, hsent⟩ := request_cases h
    exact .concluded htype ln' req sent hcase hsent
  · cases h
    exact .dropped

end

end Listener

namespace ConnRequest

/-- What `SetPassphrase` leaves alone. -/
theorem setPassphrase_fields (prim : Primitives) (req : ConnRequest) (passphrase : Bytes) :
    (req.setPassphrase prim passphrase).1.handshake = req.handshake ∧
      (req.setPassphrase prim passphrase).1.config = req.config ∧
      (req.setPassphrase prim passphrase).1.peerSocketId = req.peerSocketId ∧
      (req.setPassphrase prim passphrase).1.socketId = req.socketId := by
  unfold setPassphrase
  split
  · split
    · exact ⟨rfl, rfl, rfl, rfl⟩
    · exact ⟨rfl, rfl, rfl, rfl⟩
    · split
      · exact ⟨rfl, rfl, rfl, rfl⟩
      · exact ⟨rfl, rfl, rfl, rfl⟩
  · exact ⟨rfl, rfl, rfl, rfl⟩

section
variable {ln ln' : Listener} {req req' : ConnRequest} {timestamp : UInt32} {sent : List Packet}

/-- What `Reject` can do. -/
inductive RejectCase (ln : Listener) (req : ConnRequest) (reason : RejectionReason) :
    Listener → ConnRequest → List Packet → Prop where
  | resolved (hresolved : ln.connsByPeer.lookup req.peerSocketId ≠ some none) :
      RejectCase ln req reason ln req []
  | rejected (hopen : ln.connsByPeer.lookup req.peerSocketId = some none)
      (handshake : CIFHandshake) (q : Packet)
      (hprepare : { req.handshake with handshakeType := reason }.prepare = .ok handshake)
      (hdata : { req.handshake with handshakeType := reason }.marshal = .ok q.payload) :
      RejectCase ln req reason (ln.handleShutdown req.socketId req.peerSocketId)
        { req with handshake := handshake } [q]

/-- Every call of `Reject` is one of these cases. -/
theorem reject_cases {reason : RejectionReason}
    (h : reject ln req reason timestamp = .ok (ln', req', sent)) :
    RejectCase ln req reason ln' req' sent := by
  unfold reject at h
  split at h
  · rename_i hopen
    obtain ⟨⟨handshake, q⟩, hmarshal, h⟩ := bind_eq_ok_iff.mp h
    cases h
    obtain ⟨hprepare, hdata⟩ := Listener.marshalCIF_ok hmarshal
    exact .rejected hopen handshake q hprepare hdata
  · rename_i hresolved
    cases h
    exact .resolved hresolved

/-- What `Accept` can do. -/
inductive AcceptCase (ln : Listener) (req : ConnRequest) :
    Listener → ConnRequest → Except String SrtConn → List Packet → Prop where
  | noPassphrase (ln' : Listener) (req' : ConnRequest) (sent : List Packet)
      (hreject : RejectCase ln req RejectionReason.badSecret ln' req' sent) :
      AcceptCase ln req ln' req' (.error "passphrase is missing") sent
  | resolved (hresolved : ln.connsByPeer.lookup req.peerSocketId ≠ some none) :
      AcceptCase ln req ln req (.error "connection already accepted") []
  | created (hopen : ln.connsByPeer.lookup req.peerSocketId = some none)
      (hpassphrase : req.crypto.isSome = true → req.passphrase ≠ [])
      (recvTsbpdDelay sendTsbpdDelay : UInt16)
      (hdelays : req.delays = .ok (recvTsbpdDelay, sendTsbpdDelay))
      (handshake : CIFHandshake) (q : Packet)
      (hprepare : (req.acceptCIF recvTsbpdDelay sendTsbpdDelay).prepare = .ok handshake)
      (hdata : (req.acceptCIF recvTsbpdDelay sendTsbpdDelay).marshal = .ok q.payload) :
      AcceptCase ln req
        { ln with
          conns := ln.conns.insert req.socketId
            (some (req.newConn ln recvTsbpdDelay sendTsbpdDelay))
          connsByPeer := ln.connsByPeer.insert req.peerSocketId
            (some (req.newConn ln recvTsbpdDelay sendTsbpdDelay)) }
        { req with config := req.connConfig, handshake := handshake }
        (.ok (req.newConn ln recvTsbpdDelay sendTsbpdDelay)) [q]

/-- Every call of `Accept` is one of these cases. -/
theorem accept_cases {conn : Except String SrtConn}
    (h : accept ln req timestamp = .ok (ln', req', conn, sent)) :
    AcceptCase ln req ln' req' conn sent := by
  unfold accept at h
  split at h
  · obtain ⟨⟨ln₁, req₁, sent₁⟩, hreject, h⟩ := bind_eq_ok_iff.mp h
    cases h
    exact .noPassphrase ln' req' sent (reject_cases hreject)
  rename_i hkeyed
  split at h
  · rename_i hopen
    obtain ⟨⟨recv, send⟩, hdelays, h⟩ := bind_eq_ok_iff.mp h
    obtain ⟨⟨handshake, q⟩, hmarshal, h⟩ := bind_eq_ok_iff.mp h
    cases h
    obtain ⟨hprepare, hdata⟩ := Listener.marshalCIF_ok hmarshal
    refine .created hopen (fun hsome hnil => hkeyed ?_) recv send hdelays handshake q hprepare hdata
    rw [hsome, hnil]
    rfl
  · rename_i hresolved
    cases h
    exact .resolved hresolved

end

end ConnRequest

end Gosrt
