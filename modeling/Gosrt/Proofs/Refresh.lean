import Gosrt.Proofs.Rekey
import Gosrt.Proofs.Session
import Gosrt.Spec.Refresh

/-!
# `Gosrt.Proofs.Refresh`: when a key that is announced again is confirmed

The receiver switches its own key when it accepts a request, although it sends no data. The next
copy of the request then names the key in use, and the receiver refuses it without an answer. So
only the first request that arrives is answered. When the response is lost, the copies that the
sender sends until the end of the period are in vain.

A sender that announces its key one packet before the switch ignores the response, since its
countdown starts again at one packet.

`Running` says where the two ends are in a period. `effective_iff` follows from it: the exchange
works exactly in the runs in which each request is the first one that arrives.
-/

set_option autoImplicit false

namespace Gosrt

open Lib

theorem Crypto.keyLength_generateSEK (c : Crypto) (key : PacketEncryption) (random : Entropy) :
    (c.generateSEK key random).keyLength = c.keyLength := by
  cases random with
  | none => rfl
  | some bytes => cases key <;> rfl

theorem Crypto.keyLength_copyKeys (c : Crypto) (key : PacketEncryption) (keys : Bytes) :
    (c.copyKeys key keys).keyLength = c.keyLength := by
  cases key <;> rfl

/-! ### Packets that are not key material -/

/-- The connections differ in nothing that has to do with keys. -/
def SrtConn.SameKeys (c c' : SrtConn) : Prop :=
  ∃ tsbpdDelay pktRecvInvalid,
    c' = { c with tsbpdDelay := tsbpdDelay, pktRecvInvalid := pktRecvInvalid }

theorem SrtConn.SameKeys.refl (c : SrtConn) : c.SameKeys c := ⟨_, _, rfl⟩

namespace Connection

section
variable {prim : Primitives} {sort : SortSlice} {c c' : Connection} {p : Packet}
  {outputs : List Output}

theorem handleHSRequest_sameKeys {c c' : SrtConn} (h : c.handleHSRequest p = .ok (c', outputs)) :
    c.SameKeys c' := by
  cases SrtConn.handleHSRequest_cases h with
  | invalid hinvalid => exact ⟨_, _, rfl⟩
  | refused cif hcif hrefused => exact .refl _
  | accepted cif hcif haccepted answer => exact ⟨_, _, rfl⟩

theorem handleHSResponse_sameKeys {c c' : SrtConn}
    (h : c.handleHSResponse p = .ok (c', outputs)) : c.SameKeys c' := by
  obtain ⟨cif, -, h⟩ := bind_eq_ok_iff.mp h
  cases cif with
  | none =>
    cases h
    exact ⟨_, _, rfl⟩
  | some cif =>
    dsimp only at h
    split at h
    · cases h
      exact .refl _
    split at h
    · cases h
      exact .refl _
    · cases h
      exact .refl _

theorem isUser_eq_true {subType : CtrlSubType} (h : IsUser subType p) :
    Refresh.isUser subType p = true := by
  simp [Refresh.isUser, h.1, h.2.1, h.2.2]

/-- Only requests and responses change the keys. -/
theorem handlePacket_sameKeys {i : HandleInputs} (hreq : Refresh.isUser .kmreq p = false)
    (hrsp : Refresh.isUser .kmrsp p = false)
    (h : c.handlePacket prim sort p i = .ok (c', outputs)) : c.conn.SameKeys c'.conn := by
  cases handlePacket_handledBy h with
  | hsRequest huser h => exact handleHSRequest_sameKeys h
  | hsResponse huser h => exact handleHSResponse_sameKeys h
  | kmRequest huser h =>
    rw [isUser_eq_true huser] at hreq
    cases hreq
  | kmResponse huser hconn houtputs =>
    rw [isUser_eq_true huser] at hrsp
    cases hrsp
  | other hhsreq hhsrsp n hconn houtputs => exact ⟨_, n, hconn⟩

end

end Connection

namespace Refresh

section
variable {prim : Primitives} {sort : SortSlice}

/-- What is aside leaves the keys of an end alone. -/
theorem sameKeys_of_aside {s s' : Session} {e : Session.Event} (haside : aside e = true)
    (hs : Session.step prim sort s e = some s') :
    s.connection.conn.SameKeys s'.connection.conn ∧ s'.stopKMRequests = s.stopKMRequests := by
  cases e with
  | receive p i =>
    simp only [aside, Bool.and_eq_true, Bool.not_eq_true'] at haside
    obtain ⟨c', outputs, hok, -⟩ := s.connection.handlePacket_handles prim sort p i
    rw [Session.step_receive_inv prim sort hok hs]
    exact ⟨Connection.handlePacket_sameKeys haside.1 haside.2 hok, rfl⟩
  | pop p timestamp random =>
    cases hs
    have hcontrol : (s.connection.conn.address p).header.isControlPacket = true := haside
    have hpop : (s.connection.conn.pop prim p timestamp random).1 = s.connection.conn := by
      unfold SrtConn.pop
      dsimp only
      rw [if_pos hcontrol]
    refine ⟨?_, rfl⟩
    show s.connection.conn.SameKeys (s.connection.conn.pop prim p timestamp random).1
    rw [hpop]
    exact .refl _
  | sendACK now =>
    cases hs
    exact ⟨.refl _, rfl⟩
  | tickACK now =>
    cases hs
    exact ⟨.refl _, rfl⟩
  | tickNAK now =>
    cases hs
    exact ⟨.refl _, rfl⟩
  | tickDeliver now =>
    cases hs
    exact ⟨.refl _, rfl⟩
  | tickRate now =>
    cases hs
    exact ⟨.refl _, rfl⟩

end

/-! ### Requests and responses -/

/-- The packet is a request for a key that every context with this key length takes over. -/
structure Announces (prim : Primitives) (passphrase : Bytes) (key : PacketEncryption)
    (keyLength : Nat) (p : Packet) : Prop where
  request : Connection.IsKMRequest p
  cif : ∃ km, SrtConn.unmarshalKMCIF p = .ok km ∧ km.keyBasedEncryption = key ∧ km.error = 0 ∧
    ∀ d : Crypto, d.keyLength = keyLength →
      ∃ d', d.unmarshalKM prim km passphrase = (d', .ok ()) ∧ d'.keyLength = keyLength

/-- The packet is a response without an error. -/
structure Responds (q : Packet) : Prop where
  response : isUser .kmrsp q = true
  cif : ∃ km, SrtConn.unmarshalKMCIF q = .ok km ∧ km.error = 0

section
variable {prim : Primitives} {sort : SortSlice} {key : PacketEncryption} {keyLength : Nat}
  {p q : Packet}

/-- A request of the sender is one that every such context takes over. -/
theorem announces_kmRequest {c : SrtConn} (crypto : Crypto) (hkey : key ≠ .unencryptedPacket)
    (hkdf : prim.Derives c.config.passphrase) (timestamp : UInt32) :
    Announces prim c.config.passphrase key crypto.keyLength
      (c.kmRequest prim crypto key timestamp) := by
  obtain ⟨kek, hkek⟩ := hkdf (crypto.salt.drop 8) crypto.keyLength crypto.validKeyLength_keyLength
  obtain ⟨wrap, hmarshal, -, -⟩ := crypto.marshalKM_spec prim hkey hkek
  refine ⟨⟨rfl, rfl, rfl⟩, _, SrtConn.unmarshalKMCIF_kmRequest hkey hkek timestamp, ?_, ?_, ?_⟩
  · rw [hmarshal]
    rfl
  · rw [hmarshal]
    rfl
  · intro d hlen
    refine ⟨_, Crypto.unmarshalKM_marshalKM prim crypto d hkey hkek hlen, ?_⟩
    rw [Crypto.keyLength_copyKeys]
    exact hlen

/-- The receiver sends the request back under another subtype. -/
theorem Announces.responds {passphrase : Bytes} (h : Announces prim passphrase key keyLength p)
    (c : SrtConn) : Responds (c.address (SrtConn.withSubType p .kmrsp)) where
  response := by
    obtain ⟨hcontrol, huser, -⟩ := h.request
    simp [isUser, SrtConn.address, SrtConn.withSubType, hcontrol, huser]
  cif := by
    obtain ⟨km, hkm, -, herror, -⟩ := h.cif
    exact ⟨km, hkm, herror⟩

/-- The receiver after it accepted a request. -/
def accepted (c : SrtConn) (d : Crypto) : SrtConn :=
  { c with
    pktRecvKM := c.pktRecvKM + 1
    crypto := some d
    keyBaseEncryption := c.keyBaseEncryption.opposite
    pktSentKM := c.pktSentKM + 1 }

section
variable (sort) {s : Session} {d : Crypto} (i : HandleInputs)
  (h : Announces prim s.connection.conn.config.passphrase key keyLength p)
  (hcrypto : s.connection.conn.crypto = some d) (hlen : d.keyLength = keyLength)
include h hcrypto

/-- A request for the key in use is refused. -/
theorem handlePacket_refused (hkey : key = s.connection.conn.keyBaseEncryption) :
    s.connection.handlePacket prim sort p i
      = .ok ({ s.connection with conn := SrtConn.countInvalid { s.connection.conn with
          pktRecvKM := s.connection.conn.pktRecvKM + 1 } }, []) := by
  obtain ⟨km, hkm, rfl, -, -⟩ := h.cif
  rw [s.connection.handlePacket_kmRequest prim sort i h.request]
  simp [SrtConn.handleKMRequest, SrtConn.prepareCrypto, Connection.lift, hkm, Go.attempt, hcrypto,
    hkey]
  rfl

include hlen

/-- A request for the other key is answered, and the receiver switches its key. -/
theorem handlePacket_accepted (hkey : key ≠ s.connection.conn.keyBaseEncryption) :
    ∃ d', d'.keyLength = keyLength ∧
      s.connection.handlePacket prim sort p i
        = .ok ({ s.connection with conn := accepted s.connection.conn d' },
          [.send ((accepted s.connection.conn d').address (SrtConn.withSubType p .kmrsp))]) := by
  obtain ⟨km, hkm, rfl, -, hunmarshal⟩ := h.cif
  obtain ⟨d', hd', hlen'⟩ := hunmarshal d hlen
  refine ⟨d', hlen', ?_⟩
  rw [s.connection.handlePacket_kmRequest prim sort i h.request]
  simp [SrtConn.handleKMRequest, SrtConn.prepareCrypto, Connection.lift, hkm, Go.attempt, hcrypto,
    hkey, hd']
  rfl

end

/-- The sender after a response: it is confirmed where the countdown says that the announcement has
been made. -/
def confirmed (c : SrtConn) : SrtConn :=
  { c with
    pktRecvKM := c.pktRecvKM + 1
    kmConfirmed := c.kmConfirmed || decide (c.kmPreAnnounceCountdown < c.config.kmPreAnnounce) }

/-- What a response without an error does. -/
theorem Responds.handleKMResponse (h : Responds q) {c : SrtConn}
    (hcrypto : c.crypto.isSome = true) :
    c.handleKMResponse q
      = (confirmed c, if c.version = 4 then [.stopKMRequests] else []) := by
  obtain ⟨km, hkm, herror⟩ := h.cif
  have hconfirmed : (if c.kmPreAnnounceCountdown ≥ c.config.kmPreAnnounce then
        { c with pktRecvKM := c.pktRecvKM + 1 }
      else { c with pktRecvKM := c.pktRecvKM + 1, kmConfirmed := true }) = confirmed c := by
    by_cases hlt : c.kmPreAnnounceCountdown < c.config.kmPreAnnounce
    · rw [if_neg (UInt64.not_le.mpr hlt)]
      simp [confirmed, hlt]
    · rw [if_pos (UInt64.not_lt.mp hlt)]
      simp [confirmed, hlt]
  have hsome : c.crypto.isNone = false := Option.isNone_eq_false_iff.mpr hcrypto
  unfold SrtConn.handleKMResponse
  simp only [hkm, hsome, herror, hconfirmed, Bool.false_eq_true, if_false, ne_eq, not_true_eq_false]
  split
  · rfl
  · rfl

/-- A response crashes a version 4 sender that cannot stop its requests. Otherwise it is handled. -/
theorem Responds.step (h : Responds q) {s : Session} (i : HandleInputs)
    (hcrypto : s.connection.conn.crypto.isSome = true) :
    Session.step prim sort s (.receive q i) =
      if s.connection.conn.version = 4 ∧ s.stopKMRequests = false then none
      else some { s with
        connection := { s.connection with conn := confirmed s.connection.conn } } := by
  have hresponse := h.response
  simp only [isUser, Bool.and_eq_true, beq_iff_eq] at hresponse
  obtain ⟨⟨hcontrol, huser⟩, hsub⟩ := hresponse
  have hok : s.connection.handlePacket prim sort q i
      = .ok ({ s.connection with conn := confirmed s.connection.conn },
        if s.connection.conn.version = 4 then [.effect .stopKMRequests] else []) := by
    rw [s.connection.handlePacket_kmResponse prim sort i hcontrol huser hsub]
    unfold Connection.handleKMResponse
    rw [h.handleKMResponse hcrypto]
    by_cases hversion : s.connection.conn.version = 4
    · simp [hversion]
    · simp [hversion]
  unfold Session.step
  dsimp only
  rw [hok]
  by_cases hversion : s.connection.conn.version = 4
  · have hpush : [Output.effect .stopKMRequests].filterMap Timing.push? = [] := rfl
    simp [hversion, Session.callsUnset, Session.push, hpush]
  · simp [hversion, Session.callsUnset, Session.push]

end

/-! ### The period -/

/-- Where the two ends are in a period. `stop` says whether the sender can stop its requests. -/
structure Running (prim : Primitives) (keyLength : Nat) (stop : Bool) (sender receiver : SrtConn)
    (requests responses : List Packet) (arrived : Nat) : Prop where
  senderCrypto : ∃ crypto, sender.crypto = some crypto ∧ crypto.keyLength = keyLength
  receiverCrypto : ∃ crypto, receiver.crypto = some crypto ∧ crypto.keyLength = keyLength
  senderKey : sender.keyBaseEncryption.IsSingle
  receiverKey : receiver.keyBaseEncryption.IsSingle
  passphrase : receiver.config.passphrase = sender.config.passphrase
  derives : prim.Derives sender.config.passphrase
  announced : ∀ p ∈ requests, Announces prim sender.config.passphrase
    sender.keyBaseEncryption.opposite keyLength p
  responded : ∀ q ∈ responses, Responds q
  /-- Every response is to a request. -/
  requested : responses ≠ [] → requests ≠ []
  /-- After a request the countdown is short, until there is a response. -/
  announcing : requests ≠ [] → sender.kmConfirmed = false →
    1 ≤ sender.kmPreAnnounceCountdown.toNat ∧
      sender.kmPreAnnounceCountdown.toNat ≤ sender.config.kmPreAnnounce.toNat / 10 + 1
  confirmed : sender.kmConfirmed = true →
    2 ≤ sender.config.kmPreAnnounce ∧ (sender.version = 4 → stop = true)
  /-- After a request the receiver uses the key that it names. -/
  taken : arrived ≠ 0 → receiver.keyBaseEncryption = sender.keyBaseEncryption.opposite

theorem toNat_restart (x : UInt64) : (x / 10 + 1).toNat = x.toNat / 10 + 1 := by
  have hlt := x.toNat_lt
  rw [UInt64.toNat_add, UInt64.toNat_div]
  show (x.toNat / 10 + 1) % 2 ^ 64 = _
  omega

section
variable {prim : Primitives} {sort : SortSlice} {keyLength arrived : Nat} {stop : Bool}
  {sender receiver sender' receiver' : SrtConn} {requests responses : List Packet}

theorem Running.sender_sameKeys
    (h : Running prim keyLength stop sender receiver requests responses arrived)
    (hsame : sender.SameKeys sender') :
    Running prim keyLength stop sender' receiver requests responses arrived := by
  obtain ⟨_, _, rfl⟩ := hsame
  exact { h with }

theorem Running.receiver_sameKeys
    (h : Running prim keyLength stop sender receiver requests responses arrived)
    (hsame : receiver.SameKeys receiver') :
    Running prim keyLength stop sender receiver' requests responses arrived := by
  obtain ⟨_, _, rfl⟩ := hsame
  exact { h with }

/-- The requests among what a data packet makes the sender send. -/
theorem filter_pop {c : SrtConn} {crypto : Crypto} {p : Packet} {timestamp : UInt32}
    {random : Entropy} (hdata : p.header.isControlPacket = false)
    (hcrypto : c.crypto = some crypto) :
    (c.pop prim p timestamp random).2.2.filter (isUser .kmreq)
      = if c.countDown.announces then
          [c.countDown.kmRequest prim crypto c.keyBaseEncryption.opposite timestamp]
        else [] := by
  have hpacket : isUser .kmreq (c.encrypt prim crypto (c.address p)) = false := by
    simp [isUser, SrtConn.encrypt, SrtConn.address, hdata]
  rw [SrtConn.pop_data prim timestamp random hdata hcrypto]
  simp only [List.filter_append, List.filter_cons, hpacket, SrtConn.announce]
  split
  · rfl
  · rfl

theorem Running.pop (h : Running prim keyLength stop sender receiver requests responses arrived)
    {p : Packet} {timestamp : UInt32} {random : Entropy} (hdata : p.header.isControlPacket = false)
    (hmore : sender.kmRefreshCountdown ≠ 1) :
    Running prim keyLength stop (sender.pop prim p timestamp random).1 receiver
      (requests ++ (sender.pop prim p timestamp random).2.2.filter (isUser .kmreq)) responses
      arrived := by
  obtain ⟨crypto, hcrypto, hlen⟩ := h.senderCrypto
  have hr : sender.kmRefreshCountdown - 1 ≠ 0 := fun hzero => hmore (sub_eq_zero.mp hzero)
  rw [SrtConn.pop_continued hdata hcrypto hr, filter_pop hdata hcrypto]
  have hcrypto' : ∃ crypto', (sender.continued crypto random).crypto = some crypto' ∧
      crypto'.keyLength = keyLength := by
    refine ⟨_, rfl, ?_⟩
    split
    · rw [Crypto.keyLength_generateSEK, hlen]
    · exact hlen
  by_cases hannounces : sender.countDown.announces = true
  · rw [if_pos hannounces]
    refine { h with
      senderCrypto := hcrypto'
      announced := ?_
      requested := ?_
      announcing := ?_ }
    · intro q hq
      rcases List.mem_append.mp hq with hq | hq
      · exact h.announced q hq
      · rw [List.mem_singleton.mp hq, ← hlen]
        exact announces_kmRequest (c := sender.countDown) crypto
          (((PacketEncryption.isSingle_iff _).mp h.senderKey.opposite).1) h.derives timestamp
    · intro _
      simp
    · intro _ _
      show 1 ≤ (if sender.countDown.announces then _ else _ : UInt64).toNat ∧
        (if sender.countDown.announces then _ else _ : UInt64).toNat ≤ _
      rw [if_pos hannounces, toNat_restart]
      exact ⟨Nat.le_add_left _ _, Nat.le_refl _⟩
  · rw [if_neg hannounces, List.append_nil]
    refine { h with senderCrypto := hcrypto', announcing := ?_ }
    intro hne hunconfirmed
    obtain ⟨hpos, hle⟩ := h.announcing hne hunconfirmed
    -- The countdown has not come to its end, or the request would have been sent again.
    have hcd : sender.kmPreAnnounceCountdown - 1 ≠ 0 := by
      intro hzero
      refine hannounces ?_
      have hconf : sender.countDown.kmConfirmed = false := hunconfirmed
      have hpre : sender.countDown.kmPreAnnounceCountdown = 0 := hzero
      simp [SrtConn.announces, hconf, hpre]
    have hsub : (sender.kmPreAnnounceCountdown - 1).toNat
        = sender.kmPreAnnounceCountdown.toNat - 1 :=
      UInt64.toNat_sub_of_le _ _ (UInt64.le_iff_toNat_le.mpr hpos)
    have hpos' := toNat_pos_of_ne_zero hcd
    show 1 ≤ (if sender.countDown.announces then _ else _ : UInt64).toNat ∧
      (if sender.countDown.announces then _ else _ : UInt64).toNat ≤ _
    rw [if_neg hannounces]
    constructor
    · exact hpos'
    · rw [hsub]
      exact (Nat.sub_le _ _).trans hle

/-- Of two single keys, one is the other or its opposite. -/
theorem eq_iff_ne_opposite {key key' : PacketEncryption} (h : key.IsSingle) (h' : key'.IsSingle) :
    key = key' ↔ key ≠ key'.opposite := by
  rcases h with rfl | rfl <;> rcases h' with rfl | rfl <;> decide

/-- What an end sends, from the outputs of the handler. -/
theorem answers_eq {s : Session} {p : Packet} {i : HandleInputs} {c' : Connection}
    {outputs : List Output} (hok : s.connection.handlePacket prim sort p i = .ok (c', outputs)) :
    answers prim sort s p i = outputs.filterMap send? := by
  unfold answers
  rw [hok]

section
variable {s s' : Session} {p : Packet} {i : HandleInputs}

/-- A request that arrives is answered exactly if it is the first one, and the receiver uses the key
of the sender. -/
theorem Running.answers_iff
    (h : Running prim keyLength stop sender s.connection.conn requests responses arrived)
    (hp : p ∈ requests) (i : HandleInputs) :
    (∃ q ∈ answers prim sort s p i, isUser .kmrsp q = true) ↔
      arrived = 0 ∧ s.connection.conn.keyBaseEncryption = sender.keyBaseEncryption := by
  obtain ⟨crypto, hcrypto, hlen⟩ := h.receiverCrypto
  have hannounces := h.announced p hp
  rw [← h.passphrase] at hannounces
  rw [eq_iff_ne_opposite h.receiverKey h.senderKey]
  by_cases hkey : sender.keyBaseEncryption.opposite = s.connection.conn.keyBaseEncryption
  · rw [answers_eq (handlePacket_refused sort i hannounces hcrypto hkey)]
    simp [hkey]
  · obtain ⟨d', -, hok⟩ := handlePacket_accepted sort i hannounces hcrypto hlen hkey
    rw [answers_eq hok]
    -- An earlier request would have made the receiver switch.
    have hfirst : arrived = 0 := not_not.mp fun hne => hkey (h.taken hne).symm
    have hresponds := (hannounces.responds (accepted s.connection.conn d')).response
    constructor
    · intro _
      exact ⟨hfirst, Ne.symm hkey⟩
    · intro _
      exact ⟨_, List.mem_singleton_self _, hresponds⟩

/-- A request that arrives is taken over or refused, and the invariant stays. -/
theorem Running.request
    (h : Running prim keyLength stop sender s.connection.conn requests responses arrived)
    (hp : p ∈ requests) (hs : Session.step prim sort s (.receive p i) = some s') :
    Running prim keyLength stop sender s'.connection.conn requests
      (responses ++ (answers prim sort s p i).filter (isUser .kmrsp)) (arrived + 1) := by
  obtain ⟨crypto, hcrypto, hlen⟩ := h.receiverCrypto
  have hannounces := h.announced p hp
  rw [← h.passphrase] at hannounces
  by_cases hkey : sender.keyBaseEncryption.opposite = s.connection.conn.keyBaseEncryption
  · have hok := handlePacket_refused sort i hannounces hcrypto hkey
    rw [answers_eq hok, Session.step_receive_inv prim sort hok hs]
    have hnone : responses ++ ([] : List Packet) = responses := List.append_nil _
    show Running prim keyLength stop sender _ requests (responses ++ []) _
    rw [hnone]
    exact { h with taken := fun _ => hkey.symm }
  · obtain ⟨d', hlen', hok⟩ := handlePacket_accepted sort i hannounces hcrypto hlen hkey
    have hresponds := hannounces.responds (accepted s.connection.conn d')
    have hsame := (eq_iff_ne_opposite h.receiverKey h.senderKey).mpr (Ne.symm hkey)
    rw [answers_eq hok, Session.step_receive_inv prim sort hok hs]
    refine { h with
      receiverCrypto := ⟨d', rfl, hlen'⟩
      receiverKey := h.receiverKey.opposite
      responded := ?_
      requested := fun _ => List.ne_nil_of_mem hp
      taken := fun _ => congrArg PacketEncryption.opposite hsame }
    intro q hq
    rcases List.mem_append.mp hq with hq | hq
    · exact h.responded q hq
    · cases List.mem_singleton.mp (List.mem_filter.mp hq).1
      exact hresponds

/-- A response that arrives confirms exactly if the countdown starts again inside of the time for
announcements, and the sender can handle the response. -/
theorem Running.confirms_iff
    (h : Running prim keyLength s.stopKMRequests s.connection.conn receiver requests responses
      arrived) (sort : SortSlice) {q : Packet} (hq : q ∈ responses) (i : HandleInputs) :
    (∃ s' ∈ Session.step prim sort s (.receive q i), s'.connection.conn.kmConfirmed = true) ↔
      2 ≤ s.connection.conn.config.kmPreAnnounce ∧
        (s.connection.conn.version = 4 → s.stopKMRequests = true) := by
  obtain ⟨crypto, hcrypto, -⟩ := h.senderCrypto
  rw [(h.responded q hq).step i (by rw [hcrypto]; rfl)]
  have hannouncing := h.announcing (h.requested (List.ne_nil_of_mem hq))
  by_cases hcrash : s.connection.conn.version = 4 ∧ s.stopKMRequests = false
  · rw [if_pos hcrash]
    simp [hcrash]
  · rw [if_neg hcrash]
    have hstop : s.connection.conn.version = 4 → s.stopKMRequests = true := by
      simpa using hcrash
    constructor
    · rintro ⟨s', hs', hconfirmed⟩
      cases hs'
      refine ⟨?_, hstop⟩
      cases hbefore : s.connection.conn.kmConfirmed with
      | true => exact (h.confirmed hbefore).1
      | false =>
        -- The countdown is at least one, and less than the time for announcements.
        simp only [Refresh.confirmed, hbefore, Bool.false_or, decide_eq_true_eq] at hconfirmed
        have hpos := (hannouncing hbefore).1
        have hlt := UInt64.lt_iff_toNat_lt.mp hconfirmed
        exact UInt64.le_iff_toNat_le.mpr (Nat.lt_of_le_of_lt hpos hlt)
    · rintro ⟨htwo, -⟩
      refine ⟨_, rfl, ?_⟩
      cases hbefore : s.connection.conn.kmConfirmed with
      | true => simp [Refresh.confirmed, hbefore]
      | false =>
        have hle := (hannouncing hbefore).2
        have htwo' : 2 ≤ s.connection.conn.config.kmPreAnnounce.toNat :=
          UInt64.le_iff_toNat_le.mp htwo
        have hlt : s.connection.conn.kmPreAnnounceCountdown
            < s.connection.conn.config.kmPreAnnounce := UInt64.lt_iff_toNat_lt.mpr (by omega)
        simp [Refresh.confirmed, hlt]

/-- A response that arrives keeps the invariant. -/
theorem Running.response
    (h : Running prim keyLength s.stopKMRequests s.connection.conn receiver requests responses
      arrived) {q : Packet} (hq : q ∈ responses)
    (hs : Session.step prim sort s (.receive q i) = some s') :
    Running prim keyLength s'.stopKMRequests s'.connection.conn receiver requests responses
      arrived := by
  have hiff := h.confirms_iff sort hq i
  obtain ⟨crypto, hcrypto, -⟩ := h.senderCrypto
  rw [(h.responded q hq).step i (by rw [hcrypto]; rfl)] at hs hiff
  split at hs
  · cases hs
  rename_i hcrash
  rw [if_neg hcrash] at hiff
  cases hs
  refine { h with
    announcing := fun hne hunconfirmed => h.announcing hne ?_
    confirmed := fun hconfirmed => hiff.mp ⟨_, rfl, hconfirmed⟩ }
  exact (Bool.or_eq_false_iff.mp hunconfirmed).1

end

end

/-- The invariant of a period. -/
def Inv (prim : Primitives) (keyLength : Nat) (s : Refresh) : Prop :=
  Running prim keyLength s.sender.stopKMRequests s.sender.connection.conn
    s.receiver.connection.conn s.requests s.responses s.arrived

section
variable {prim : Primitives} {sort : SortSlice} {keyLength : Nat} {s s' : Refresh}

theorem Begins.inv (h : s.Begins prim) : ∃ keyLength, Inv prim keyLength s := by
  obtain ⟨crypto, crypto', hcrypto, hcrypto', hlen⟩ := h.keys
  refine ⟨crypto.keyLength, ?_⟩
  unfold Inv
  rw [h.requests, h.responses, h.arrived]
  exact {
    senderCrypto := ⟨crypto, hcrypto, rfl⟩
    receiverCrypto := ⟨crypto', hcrypto', hlen⟩
    senderKey := h.senderKey
    receiverKey := h.receiverKey
    passphrase := h.passphrase
    derives := h.derives
    announced := List.forall_mem_nil _
    responded := List.forall_mem_nil _
    requested := fun hne => absurd rfl hne
    announcing := fun hne => absurd rfl hne
    confirmed := fun htrue => absurd (h.unconfirmed.symm.trans htrue) Bool.false_ne_true
    taken := fun hne => absurd rfl hne }

/-- The invariant survives every step. -/
theorem Inv.of_step (h : Inv prim keyLength s) {e : Event} (hs : step prim sort s e = some s') :
    Inv prim keyLength s' := by
  cases e with
  | pop p timestamp random =>
    dsimp only [step] at hs
    split at hs
    · cases hs
    rename_i hguard
    simp only [Bool.or_eq_true, beq_iff_eq, not_or, Bool.not_eq_true] at hguard
    cases hs
    exact h.pop hguard.1 hguard.2
  | request n i =>
    obtain ⟨p, hp, hs⟩ := Option.bind_eq_some_iff.mp hs
    obtain ⟨receiver, hreceiver, hs⟩ := Option.bind_eq_some_iff.mp hs
    cases hs
    exact Running.request h (List.mem_of_getElem? hp) hreceiver
  | response n i =>
    obtain ⟨q, hq, hs⟩ := Option.bind_eq_some_iff.mp hs
    obtain ⟨sender, hsender, hs⟩ := Option.bind_eq_some_iff.mp hs
    cases hs
    exact Running.response h (List.mem_of_getElem? hq) hsender
  | sender e =>
    obtain ⟨_, haside, hs⟩ := Option.bind_eq_some_iff.mp hs
    obtain ⟨sender, hsender, hs⟩ := Option.bind_eq_some_iff.mp hs
    cases hs
    obtain ⟨hsame, hstop⟩ := sameKeys_of_aside (by simpa [guard] using haside) hsender
    unfold Inv
    dsimp only
    rw [hstop]
    exact Running.sender_sameKeys h hsame
  | receiver e =>
    obtain ⟨_, haside, hs⟩ := Option.bind_eq_some_iff.mp hs
    obtain ⟨receiver, hreceiver, hs⟩ := Option.bind_eq_some_iff.mp hs
    cases hs
    exact Running.receiver_sameKeys h
      (sameKeys_of_aside (by simpa [guard] using haside) hreceiver).1

/-- A message has its effect exactly if it is a first copy. -/
theorem Inv.effective_iff_firstCopy (h : Inv prim keyLength s) (e : Event) :
    Effective prim sort s e ↔ s.FirstCopy e := by
  cases e with
  | request n i =>
    unfold Effective FirstCopy
    by_cases hn : n < s.requests.length
    · simp only [List.getElem?_eq_getElem hn, Option.mem_def, Option.some.injEq, forall_eq', hn,
        forall_const]
      exact Running.answers_iff h (List.getElem_mem hn) i
    · simp [hn]
  | response n i =>
    unfold Effective FirstCopy
    by_cases hn : n < s.responses.length
    · simp only [List.getElem?_eq_getElem hn, Option.mem_def, Option.some.injEq, forall_eq', hn,
        forall_const]
      exact Running.confirms_iff h sort (List.getElem_mem hn) i
    · simp [hn]
  | pop p timestamp random => exact Iff.rfl
  | sender e => exact Iff.rfl
  | receiver e => exact Iff.rfl

end

/-- In a run of a period each request that arrives is answered, and each response that arrives
confirms, exactly if no second request arrives, both ends use the same key when the first one does,
and the sender takes the responses. -/
theorem effective_iff (prim : Primitives) (sort : SortSlice) {s : Refresh} (h : s.Begins prim)
    (events : List Event) :
    RunMeets (step prim sort) (Effective prim sort) s events ↔
      RunMeets (step prim sort) FirstCopy s events := by
  obtain ⟨keyLength, hinv⟩ := h.inv
  constructor
  · intro hmeets
    exact runMeets_of (Inv prim keyLength) (fun _ _ _ _ h hs => h.of_step hs)
      (fun _ e heffective h => (h.effective_iff_firstCopy e).mp heffective) hmeets hinv
  · intro hmeets
    exact runMeets_of (Inv prim keyLength) (fun _ _ _ _ h hs => h.of_step hs)
      (fun _ e hfirst h => (h.effective_iff_firstCopy e).mpr hfirst) hmeets hinv

/-- The beginning of a period of four packets, with this time for announcements. -/
def sampleStart (kmPreAnnounce : UInt64) : Refresh where
  sender := Session.init (Sample.connConfig 4 kmPreAnnounce)
  receiver := Session.init { Sample.connConfig 4 kmPreAnnounce with isCaller := false }
  requests := []
  responses := []
  arrived := 0

theorem begins_sampleStart (kmPreAnnounce : UInt64) :
    (sampleStart kmPreAnnounce).Begins Sample.primitives where
  keys := ⟨Sample.crypto, Sample.crypto, rfl, rfl, rfl⟩
  senderKey := Or.inl rfl
  receiverKey := Or.inl rfl
  passphrase := rfl
  derives := fun _ _ _ => ⟨_, rfl⟩
  unconfirmed := rfl
  requests := rfl
  responses := rfl
  arrived := rfl

/-- The data packets with these numbers leave. -/
def samplePops (numbers : List UInt32) : List Event :=
  numbers.map fun n => .pop (Sample.dataPacket n) 0 none

/-- The first request and its response confirm the key. -/
theorem effective_iff_sampleStart :
    (sampleStart 2).Begins Sample.primitives ∧
      ((run (step Sample.primitives SortSlice.insertion) (sampleStart 2)
        (samplePops [1, 2] ++ [.request 0 Sample.inputs, .response 0 Sample.inputs])).map
          fun s => s.sender.connection.conn.kmConfirmed) = some true ∧
      RunMeets (step Sample.primitives SortSlice.insertion)
        (Effective Sample.primitives SortSlice.insertion) (sampleStart 2)
        (samplePops [1, 2] ++ [.request 0 Sample.inputs, .response 0 Sample.inputs]) :=
  ⟨begins_sampleStart 2, by decide +kernel,
    (effective_iff Sample.primitives SortSlice.insertion (begins_sampleStart 2) _).mpr
      (by decide +kernel)⟩

/-- The response to the first request is lost. The second request arrives and is not answered. A
sender that announces its key one packet before the switch ignores the response. -/
theorem not_effective_sampleStart :
    (sampleStart 2).Begins Sample.primitives ∧
      ¬RunMeets (step Sample.primitives SortSlice.insertion)
        (Effective Sample.primitives SortSlice.insertion) (sampleStart 2)
        (samplePops [1, 2] ++ [.request 0 Sample.inputs] ++ samplePops [3] ++
          [.request 1 Sample.inputs]) ∧
      (sampleStart 1).Begins Sample.primitives ∧
      ¬RunMeets (step Sample.primitives SortSlice.insertion)
        (Effective Sample.primitives SortSlice.insertion) (sampleStart 1)
        (samplePops [1, 2, 3] ++ [.request 0 Sample.inputs, .response 0 Sample.inputs]) :=
  ⟨begins_sampleStart 2, by decide +kernel, begins_sampleStart 1, by decide +kernel⟩

end Refresh

end Gosrt
