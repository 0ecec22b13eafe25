import Gosrt.Lib.Run
import Gosrt.Spec.Connection
import Gosrt.Spec.Live.Send

/-!
# `Gosrt.Spec.Stream`: the runs of an encrypted connection

Three state machines around `srtConn.pop`. They add the history that the statements about runs
talk about. No step reads the history.

* `Resend` follows the packets. A data packet is sent for the first time, is stored as `pop`
  left it, and may be sent again any number of times: `sender.NAK` sets the retransmitted flag
  of the stored packet and hands it to `pop`.
* `Rekey` follows the keys. Data packets leave, and key material responses come in. The
  history is kept by refresh period: a period ends when `pop` switches to the other key.
* `Keystream` follows what the cipher sees: which SEK encrypted which sequence numbers, and
  which SEKs were drawn.
-/

set_option autoImplicit false

namespace Gosrt

open Lib

/-! ### Packets that are sent again -/

/-- A data packet, and what was recorded when it was sent for the first time: its plaintext,
the key flag, and the salt and SEK in use. -/
structure Transmission where
  packet : Packet
  plaintext : Bytes
  key : PacketEncryption
  salt : Bytes
  sek : Option Bytes
  deriving DecidableEq, Repr

/-- The flag in the header names the key under which the payload was encrypted, and the
payload is the plaintext under that key. -/
def Transmission.Decryptable (prim : Primitives) (t : Transmission) : Prop :=
  t.packet.header.keyBaseEncryptionFlag = t.key ∧
    ∃ sek, t.sek = some sek ∧
      t.packet.payload = Crypto.crypt prim t.salt sek t.packet.seq.val t.plaintext

instance (prim : Primitives) (t : Transmission) : Decidable (t.Decryptable prim) :=
  inferInstanceAs (Decidable (t.packet.header.keyBaseEncryptionFlag = t.key ∧
    ∃ sek ∈ t.sek,
      t.packet.payload = Crypto.crypt prim t.salt sek t.packet.seq.val t.plaintext))

/-- The connection, the packets it can be asked to send again, and all that it sent. -/
structure Resend where
  conn : SrtConn
  stored : List Transmission
  emitted : List Transmission
  deriving DecidableEq, Repr

namespace Resend

inductive Event where
  /-- A data packet is sent for the first time. -/
  | first (p : Packet) (timestamp : UInt32) (random : Entropy)
  /-- The stored packet number `i` is sent again. -/
  | again (i : Nat) (timestamp : UInt32) (random : Entropy)
  deriving DecidableEq, Repr

def init (conn : SrtConn) : Resend where
  conn := conn
  stored := []
  emitted := []

/-- The record of a first transmission, before `pop`. -/
def record (conn : SrtConn) (crypto : Crypto) (p : Packet) : Transmission where
  packet := p
  plaintext := p.payload
  key := conn.keyBaseEncryption
  salt := crypto.salt
  sek := crypto.sek conn.keyBaseEncryption

/-- One event. A first transmission is a data packet without the retransmitted flag. -/
def step (prim : Primitives) (s : Resend) : Event → Option Resend
  | .first p timestamp random =>
    if p.header.isControlPacket || p.header.retransmittedPacketFlag then none
    else
      s.conn.crypto.map fun crypto =>
        let out := s.conn.pop prim p timestamp random
        let t := { record s.conn crypto p with packet := out.2.1 }
        { conn := out.1, stored := s.stored ++ [t], emitted := s.emitted ++ [t] }
  | .again i timestamp random =>
    s.stored[i]?.map fun t =>
      let out := s.conn.pop prim (Sender.retransmitted t.packet) timestamp random
      let t := { t with packet := out.2.1 }
      { conn := out.1, stored := s.stored.set i t, emitted := s.emitted ++ [t] }

/-- The packet to be sent again has the flag of the key that is in use now. -/
def FlagCurrent (s : Resend) : Event → Prop
  | .first _ _ _ => True
  | .again i _ _ =>
    ∀ t, s.stored[i]? = some t →
      t.packet.header.keyBaseEncryptionFlag = s.conn.keyBaseEncryption

end Resend

/-! ### Keys that are announced and switched -/

/-- The SEK that a key material request gives to a peer with this passphrase. -/
def carriedSEK (prim : Primitives) (passphrase : Bytes) (p : Packet) : Option Bytes :=
  match SrtConn.unmarshalKMCIF p with
  | .error _ => none
  | .ok km =>
    (Crypto.calculateKEK prim passphrase km.salt km.kLen.toNat).bind fun kek =>
      (Keywrap.unwrap prim kek km.wrap).toOption

/-- A key material request: the key it announces, and the packet. -/
structure Announcement where
  key : PacketEncryption
  packet : Packet
  deriving DecidableEq, Repr

/-- The connection and its history. -/
structure Rekey where
  conn : SrtConn
  /-- The announcements of the running refresh period. -/
  announced : List Announcement
  /-- The announcements of the period before. -/
  previous : List Announcement
  /-- The SEK that encrypted the first packet of the running period. -/
  firstSEK : Option Bytes
  /-- A key that was announced in the running period has been drawn again. -/
  regenerated : Bool
  /-- A switch was made to a key that was not announced in the period before. -/
  unannounced : Bool
  deriving DecidableEq, Repr

namespace Rekey

inductive Event where
  /-- A data packet leaves. -/
  | pop (p : Packet) (timestamp : UInt32) (random : Entropy)
  /-- A key material response comes in. -/
  | kmResponse (p : Packet)
  deriving DecidableEq, Repr

def init (conn : SrtConn) : Rekey where
  conn := conn
  announced := []
  previous := []
  firstSEK := none
  regenerated := false
  unannounced := false

/-- The history of one `pop`. What it sends before the data packet are the announcements, and
the flag of the data packet names the SEK that encrypted it. The stages of `pop` say what
happened to the keys: `announcing` is the connection before the switch, `switched` the one
after it. -/
def pop (prim : Primitives) (s : Rekey) (crypto : Crypto) (p : Packet) (timestamp : UInt32)
    (random : Entropy) : Rekey :=
  let announcing := (s.conn.countDown.announce prim crypto timestamp).1
  let switched := announcing.switchKeys
  let out := s.conn.pop prim p timestamp random
  let conn := out.1
  let announced := s.announced ++
    out.2.2.dropLast.map (Announcement.mk s.conn.keyBaseEncryption.opposite)
  let firstSEK :=
    if s.firstSEK.isNone && !p.header.retransmittedPacketFlag then
      crypto.sek out.2.1.header.keyBaseEncryptionFlag
    else s.firstSEK
  if announcing.switches then
    { conn := conn
      announced := []
      previous := announced
      firstSEK := none
      regenerated := s.regenerated
      unannounced := s.unannounced || !announced.any (fun a => a.key == conn.keyBaseEncryption) }
  else
    { s with
      conn := conn
      announced := announced
      firstSEK := firstSEK
      regenerated := s.regenerated ||
        (switched.regenerates &&
          announced.any (fun a => a.key == switched.keyBaseEncryption.opposite)) }

/-- One event. Only data packets of an encrypted connection count. -/
def step (prim : Primitives) (s : Rekey) : Event → Option Rekey
  | .pop p timestamp random =>
    if p.header.isControlPacket then none
    else s.conn.crypto.map fun crypto => s.pop prim crypto p timestamp random
  | .kmResponse p => some { s with conn := (s.conn.handleKMResponse p).1 }

/-- No announced key was drawn again before the switch to it, and each announcement carried
the SEK that encrypts the first packet after the switch. -/
def KeepsAnnounced (prim : Primitives) (s : Rekey) : Prop :=
  s.regenerated = false ∧
    ∀ a ∈ s.previous, ∀ sek ∈ s.firstSEK,
      carriedSEK prim s.conn.config.passphrase a.packet = some sek

instance (prim : Primitives) (s : Rekey) : Decidable (s.KeepsAnnounced prim) :=
  inferInstanceAs (Decidable (_ ∧ _))

/-- Each switch was to an announced key. -/
def SwitchesAnnounced (s : Rekey) : Prop := s.unannounced = false

instance (s : Rekey) : Decidable s.SwitchesAnnounced :=
  inferInstanceAs (Decidable (s.unannounced = false))

/-- A response that decodes does not come too early: `handleKMResponse` ignores it because it
is outside of its pre-announce window, or the announcement has been made, since at most
`KMPreAnnounce` packets of the period are left. -/
def ResponseInTime (s : Rekey) : Event → Prop
  | .pop _ _ _ => True
  | .kmResponse p =>
    (∃ km, SrtConn.unmarshalKMCIF p = .ok km) →
      s.conn.kmPreAnnounceCountdown ≥ s.conn.config.kmPreAnnounce ∨
        (s.conn.kmRefreshCountdown ≠ 0 ∧
          s.conn.kmRefreshCountdown ≤ s.conn.config.kmPreAnnounce)

instance (s : Rekey) : (e : Event) → Decidable (ResponseInTime s e)
  | .pop _ _ _ => isTrue trivial
  | .kmResponse p =>
    match h : SrtConn.unmarshalKMCIF p with
    | .ok km => decidable_of_iff
        (s.conn.kmPreAnnounceCountdown ≥ s.conn.config.kmPreAnnounce ∨
          (s.conn.kmRefreshCountdown ≠ 0 ∧
            s.conn.kmRefreshCountdown ≤ s.conn.config.kmPreAnnounce))
        ⟨fun hin _ => hin, fun hin => hin ⟨km, h⟩⟩
    | .error _ => isTrue fun hok => nomatch h.symm.trans hok.choose_spec

end Rekey

/-! ### Counter blocks that are used -/

/-- A first transmission as the cipher sees it: the salt, the SEK and the sequence number, the
payload before the encryption, and the payload that left. -/
structure Encryption where
  salt : Bytes
  sek : Option Bytes
  packetSequenceNumber : UInt32
  plaintext : Bytes
  payload : Bytes
  deriving DecidableEq, Repr

/-- The counter blocks that AES encrypts to the key stream of the payload. -/
def Encryption.counterBlocks (e : Encryption) : List Bytes :=
  (List.range ((e.payload.length + 15) / 16)).map fun i =>
    bytesOfNat 16 (natOfBytes (Crypto.counterBlock e.salt e.packetSequenceNumber) + i)

/-- The payload left under the key stream that the counter blocks make with the SEK. -/
def Encryption.Applied (prim : Primitives) (e : Encryption) : Prop :=
  ∃ sek, e.sek = some sek ∧
    e.payload = xorBytes e.plaintext
      ((e.counterBlocks.flatMap (prim.aesEncrypt sek)).take e.payload.length)

/-- The connection and its history. -/
structure Keystream where
  conn : SrtConn
  /-- The sequence number of the next first transmission. -/
  next : Number
  encryptions : List Encryption
  /-- The two SEKs at the start, and what each call of `GenerateSEK` left behind. -/
  seks : List (Option Bytes)
  /-- The key that is not in use has been drawn in the running period. -/
  drawn : Bool
  /-- A switch was made to a key that was not drawn in the period before. -/
  stale : Bool
  deriving DecidableEq, Repr

namespace Keystream

inductive Event where
  /-- A data packet leaves for the first time. -/
  | first (p : Packet) (timestamp : UInt32) (random : Entropy)
  /-- A data packet is sent again. -/
  | again (p : Packet) (timestamp : UInt32) (random : Entropy)
  /-- A key material response comes in. -/
  | kmResponse (p : Packet)
  deriving DecidableEq, Repr

def init (conn : SrtConn) : Keystream where
  conn := conn
  next := conn.initialPacketSequenceNumber
  encryptions := []
  seks := (conn.crypto.map fun crypto => [some crypto.evenSEK, some crypto.oddSEK]).getD []
  drawn := false
  stale := false

/-- What the cipher sees of a first transmission: `q` is the packet that left, and `p` is the one
that `pop` was called with. The flag of `q` names the SEK. -/
def encryption (crypto : Crypto) (p q : Packet) : Encryption where
  salt := crypto.salt
  sek := crypto.sek q.header.keyBaseEncryptionFlag
  packetSequenceNumber := q.seq.val
  plaintext := p.payload
  payload := q.payload

/-- The history of the keys in one `pop`. The stages of `pop` say what happened. -/
def pop (prim : Primitives) (s : Keystream) (crypto : Crypto) (p : Packet) (timestamp : UInt32)
    (random : Entropy) : Keystream :=
  let announcing := (s.conn.countDown.announce prim crypto timestamp).1
  let switched := announcing.switchKeys
  let other := switched.keyBaseEncryption.opposite
  { s with
    conn := (s.conn.pop prim p timestamp random).1
    seks :=
      if switched.regenerates then s.seks ++ [(crypto.generateSEK other random).sek other]
      else s.seks
    drawn := (!announcing.switches && s.drawn) || switched.regenerates
    stale := s.stale || (announcing.switches && !s.drawn) }

/-- One event. First transmissions carry consecutive sequence numbers, and a payload is at most
as long as a configuration allows. -/
def step (prim : Primitives) (s : Keystream) : Event → Option Keystream
  | .first p timestamp random =>
    if p.header.isControlPacket || p.header.retransmittedPacketFlag then none
    else if p.seq ≠ s.next ∨ p.payload.length > maxPayloadSize.toNat then none
    else
      s.conn.crypto.map fun crypto =>
        { s.pop prim crypto p timestamp random with
          next := s.next.inc
          encryptions := s.encryptions ++
            [encryption crypto p (s.conn.pop prim p timestamp random).2.1] }
  | .again p timestamp random =>
    if p.header.isControlPacket || !p.header.retransmittedPacketFlag then none
    else s.conn.crypto.map fun crypto => s.pop prim crypto p timestamp random
  | .kmResponse p => some { s with conn := (s.conn.handleKMResponse p).1 }

/-- Two first transmissions under one SEK have no counter block in common. -/
def Apart (e e' : Encryption) : Prop :=
  e.sek = e'.sek → e.counterBlocks.Disjoint e'.counterBlocks

/-- No SEK encrypts more than `rate` first transmissions, and no two of them share a counter
block. -/
structure NoReuse (rate : Nat) (encryptions : List Encryption) : Prop where
  count : ∀ sek, encryptions.countP (·.sek == sek) ≤ rate
  apart : encryptions.Pairwise Apart

end Keystream

end Gosrt
