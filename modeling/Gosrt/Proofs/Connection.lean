import Gosrt.Proofs.Config
import Gosrt.Proofs.Crypto
import Gosrt.Spec.Connection

/-!
# `Gosrt.Proofs.Connection`: what `pop` does to a connection

The stages of `pop` each change a few fields. The lemmas here say which, so that the proofs
about runs never unfold `pop` itself. `Encrypted` is the invariant of a connection that was
set up with encryption: it has a crypto context, and the key in use is the even or the odd
one.

For the countdowns, `continued` and `switched` say what a packet does to the connection in
the middle and at the end of a period. `Timed` ties the two countdowns together, and from it
follows when the draw and the announcement are made.
-/

set_option autoImplicit false

namespace Gosrt

open Lib

namespace PacketEncryption

/-- The key is the even or the odd one. -/
def IsSingle (key : PacketEncryption) : Prop :=
  key = .evenKeyEncrypted ∨ key = .oddKeyEncrypted

theorem IsSingle.opposite {key : PacketEncryption} (h : key.IsSingle) : key.opposite.IsSingle := by
  rcases h with rfl | rfl
  · exact Or.inr rfl
  · exact Or.inl rfl

theorem isSingle_opposite_iff (key : PacketEncryption) :
    key.opposite.IsSingle ↔ key.IsSingle := by
  cases key <;> simp [IsSingle, PacketEncryption.opposite]

theorem isSingle_iff (key : PacketEncryption) :
    key.IsSingle ↔ key ≠ .unencryptedPacket ∧ key ≠ .evenAndOddKey := by
  cases key <;> simp [IsSingle]

theorem IsSingle.opposite_ne {key : PacketEncryption} (h : key.IsSingle) : key.opposite ≠ key := by
  rcases h with rfl | rfl <;> decide

end PacketEncryption

/-- A context has a SEK for each of the two keys. -/
theorem Crypto.exists_sek (c : Crypto) {key : PacketEncryption} (h : key.IsSingle) :
    ∃ sek, c.sek key = some sek := by
  rcases h with rfl | rfl
  · exact ⟨c.evenSEK, rfl⟩
  · exact ⟨c.oddSEK, rfl⟩

theorem Crypto.sek_mem (c : Crypto) {key : PacketEncryption} (h : key.IsSingle) :
    c.sek key ∈ [some c.evenSEK, some c.oddSEK] := by
  rcases h with rfl | rfl
  · exact List.mem_cons_self
  · exact List.mem_cons_of_mem _ List.mem_cons_self

/-- Two different SEKs are different in either order. -/
theorem Crypto.sek_ne_opposite (c : Crypto) (hne : some c.evenSEK ≠ some c.oddSEK)
    {key : PacketEncryption} (h : key.IsSingle) : c.sek key ≠ c.sek key.opposite := by
  rcases h with rfl | rfl
  · exact hne
  · exact hne.symm

/-- Drawing one key leaves the other one alone. -/
theorem Crypto.sek_generateSEK_of_ne (c : Crypto) {key other : PacketEncryption}
    (random : Entropy) (hne : other ≠ key) :
    (c.generateSEK key random).sek other = c.sek other := by
  cases random with
  | none => rfl
  | some bytes => cases key <;> cases other <;> first | rfl | exact absurd rfl hne

/-- Drawing a key leaves the salt alone. -/
theorem Crypto.salt_generateSEK (c : Crypto) (key : PacketEncryption) (random : Entropy) :
    (c.generateSEK key random).salt = c.salt := by
  cases random with
  | none => rfl
  | some bytes => cases key <;> rfl

namespace SrtConn

/-- The connection is encrypted. -/
structure Encrypted (c : SrtConn) : Prop where
  crypto : ∃ crypto, c.crypto = some crypto
  key : c.keyBaseEncryption.IsSingle

section
variable {c : SrtConn} {crypto : Crypto} {p : Packet}

/-- `pop` of a data packet on a connection with a crypto context. -/
theorem pop_data (prim : Primitives) (timestamp : UInt32) (random : Entropy)
    (hdata : p.header.isControlPacket = false) (hcrypto : c.crypto = some crypto) :
    c.pop prim p timestamp random =
      ((c.countDown.announce prim crypto timestamp).1.switchKeys.regenerate crypto random,
        c.encrypt prim crypto (c.address p),
        (c.countDown.announce prim crypto timestamp).2 ++
          [c.encrypt prim crypto (c.address p)]) := by
  unfold pop
  have hdata' : (c.address p).header.isControlPacket = false := hdata
  dsimp only
  rw [hdata', if_neg Bool.false_ne_true, hcrypto]

/-- The data packet leaves with the key in use as its flag. -/
theorem flag_pop (prim : Primitives) (timestamp : UInt32) (random : Entropy)
    (hdata : p.header.isControlPacket = false) (hcrypto : c.crypto = some crypto) :
    (c.pop prim p timestamp random).2.1.header.keyBaseEncryptionFlag = c.keyBaseEncryption := by
  rw [pop_data prim timestamp random hdata hcrypto]
  rfl

/-- What the announcement leaves alone. -/
theorem announce_fields (prim : Primitives) (c : SrtConn) (crypto : Crypto) (timestamp : UInt32) :
    (c.announce prim crypto timestamp).1.config = c.config ∧
    (c.announce prim crypto timestamp).1.crypto = c.crypto ∧
    (c.announce prim crypto timestamp).1.keyBaseEncryption = c.keyBaseEncryption ∧
    (c.announce prim crypto timestamp).1.kmRefreshCountdown = c.kmRefreshCountdown ∧
    (c.announce prim crypto timestamp).1.kmConfirmed = c.kmConfirmed := by
  unfold announce
  split
  · exact ⟨rfl, rfl, rfl, rfl, rfl⟩
  · exact ⟨rfl, rfl, rfl, rfl, rfl⟩

/-- The switch changes the key to the other one, or nothing. -/
theorem switchKeys_key (c : SrtConn) :
    c.switchKeys.keyBaseEncryption = c.keyBaseEncryption.opposite ∨
      c.switchKeys = c := by
  unfold switchKeys
  split
  · exact Or.inl rfl
  · exact Or.inr rfl

theorem switchKeys_crypto (c : SrtConn) : c.switchKeys.crypto = c.crypto := by
  unfold switchKeys
  split
  · rfl
  · rfl

/-- What drawing a new key leaves alone. -/
theorem regenerate_fields (c : SrtConn) (crypto : Crypto) (random : Entropy) :
    (c.regenerate crypto random).config = c.config ∧
    (c.regenerate crypto random).keyBaseEncryption = c.keyBaseEncryption ∧
    (c.regenerate crypto random).kmPreAnnounceCountdown = c.kmPreAnnounceCountdown ∧
    (c.regenerate crypto random).kmRefreshCountdown = c.kmRefreshCountdown ∧
    (c.regenerate crypto random).kmConfirmed = c.kmConfirmed := by
  unfold regenerate
  split
  · exact ⟨rfl, rfl, rfl, rfl, rfl⟩
  · exact ⟨rfl, rfl, rfl, rfl, rfl⟩

/-- An encrypted connection stays encrypted. -/
theorem Encrypted.pop (prim : Primitives) (timestamp : UInt32) (random : Entropy)
    (h : c.Encrypted) (hdata : p.header.isControlPacket = false) :
    (c.pop prim p timestamp random).1.Encrypted := by
  obtain ⟨crypto, hcrypto⟩ := h.crypto
  rw [pop_data prim timestamp random hdata hcrypto]
  obtain ⟨-, hcr, hkey, -⟩ := announce_fields prim c.countDown crypto timestamp
  constructor
  · unfold regenerate
    split
    · exact ⟨_, rfl⟩
    · refine ⟨crypto, ?_⟩
      rw [switchKeys_crypto, hcr]
      exact hcrypto
  · rw [(regenerate_fields _ _ _).2.1]
    rcases switchKeys_key (c.countDown.announce prim crypto timestamp).1 with hs | hs
    · rw [hs, hkey]
      exact h.key.opposite
    · rw [hs, hkey]
      exact h.key

end

/-! ### A packet in a period -/

/-- The SEK of a key of the connection. -/
def sek (c : SrtConn) (key : PacketEncryption) : Option Bytes := c.crypto.bind (·.sek key)

/-- The connection after a packet that does not end the period. -/
def continued (c : SrtConn) (crypto : Crypto) (random : Entropy) : SrtConn :=
  { c with
    kmPreAnnounceCountdown :=
      if c.countDown.announces then c.config.kmPreAnnounce / 10 + 1
      else c.kmPreAnnounceCountdown - 1
    kmRefreshCountdown := c.kmRefreshCountdown - 1
    crypto := some
      (if c.countDown.regenerates then crypto.generateSEK c.keyBaseEncryption.opposite random
      else crypto)
    pktSentKM := if c.countDown.announces then c.pktSentKM + 1 else c.pktSentKM }

/-- The connection after a packet that ends the period. -/
def switched (c : SrtConn) : SrtConn :=
  { c with
    keyBaseEncryption := c.keyBaseEncryption.opposite
    kmPreAnnounceCountdown := c.config.kmRefreshRate - c.config.kmPreAnnounce
    kmRefreshCountdown := c.config.kmRefreshRate
    kmConfirmed := false
    pktSentKM := if c.countDown.announces then c.pktSentKM + 1 else c.pktSentKM }

section
variable {prim : Primitives} {c : SrtConn} {crypto : Crypto} {p : Packet} {timestamp : UInt32}
  {random : Entropy}

/-- The switch depends on the refresh countdown only. -/
theorem switches_announce :
    (c.countDown.announce prim crypto timestamp).1.switches
      = (c.kmRefreshCountdown - 1 == 0) := by
  unfold switches
  rw [(announce_fields prim c.countDown crypto timestamp).2.2.2.1]
  rfl

/-- The announcement as one update of the connection. -/
theorem announce_conn :
    (c.announce prim crypto timestamp).1 =
      { c with
        kmPreAnnounceCountdown :=
          if c.announces then c.config.kmPreAnnounce / 10 + 1 else c.kmPreAnnounceCountdown
        pktSentKM := if c.announces then c.pktSentKM + 1 else c.pktSentKM } := by
  unfold announce
  cases c.announces with
  | true => rfl
  | false => rfl

/-- The draw as one update of the connection. -/
theorem regenerate_conn (hcrypto : c.crypto = some crypto) :
    c.regenerate crypto random =
      { c with
        crypto := some
          (if c.regenerates then crypto.generateSEK c.keyBaseEncryption.opposite random
          else crypto) } := by
  unfold regenerate
  cases c.regenerates with
  | true => rfl
  | false =>
    show c = { c with crypto := some crypto }
    rw [← hcrypto]

/-- `pop` in the middle of a period. -/
theorem pop_continued (hdata : p.header.isControlPacket = false) (hcrypto : c.crypto = some crypto)
    (hr : c.kmRefreshCountdown - 1 ≠ 0) :
    (c.pop prim p timestamp random).1 = c.continued crypto random := by
  have hsw : ¬(c.countDown.announce prim crypto timestamp).1.switches = true := by
    rw [switches_announce, beq_iff_eq]
    exact hr
  rw [pop_data prim timestamp random hdata hcrypto]
  show (switchKeys _).regenerate crypto random = _
  unfold switchKeys
  rw [if_neg hsw, announce_conn]
  exact regenerate_conn hcrypto

/-- `pop` at the end of a period. -/
theorem pop_switched (hdata : p.header.isControlPacket = false) (hcrypto : c.crypto = some crypto)
    (hr : c.kmRefreshCountdown - 1 = 0) :
    (c.pop prim p timestamp random).1 = c.switched.regenerate crypto random := by
  have hsw : (c.countDown.announce prim crypto timestamp).1.switches = true := by
    rw [switches_announce, beq_iff_eq]
    exact hr
  rw [pop_data prim timestamp random hdata hcrypto]
  show (switchKeys _).regenerate crypto random = _
  unfold switchKeys
  rw [if_pos hsw, announce_conn]
  rfl

/-- What a key material response leaves alone. -/
theorem handleKMResponse_fields (c : SrtConn) (p : Packet) :
    (c.handleKMResponse p).1.config = c.config ∧
    (c.handleKMResponse p).1.crypto = c.crypto ∧
    (c.handleKMResponse p).1.keyBaseEncryption = c.keyBaseEncryption ∧
    (c.handleKMResponse p).1.kmPreAnnounceCountdown = c.kmPreAnnounceCountdown ∧
    (c.handleKMResponse p).1.kmRefreshCountdown = c.kmRefreshCountdown := by
  unfold handleKMResponse
  dsimp only
  repeat' split
  all_goals exact ⟨rfl, rfl, rfl, rfl, rfl⟩

/-- A response confirms only if it decodes, and only in the pre-announce time. -/
theorem kmConfirmed_handleKMResponse (c : SrtConn) (p : Packet) :
    (c.handleKMResponse p).1.kmConfirmed = c.kmConfirmed ∨
      ((∃ km, unmarshalKMCIF p = .ok km) ∧ ¬c.kmPreAnnounceCountdown ≥ c.config.kmPreAnnounce) := by
  unfold handleKMResponse
  dsimp only
  cases hcif : unmarshalKMCIF p with
  | error e => exact Or.inl rfl
  | ok km =>
    by_cases hpre : c.kmPreAnnounceCountdown ≥ c.config.kmPreAnnounce
    · refine Or.inl ?_
      dsimp only
      rw [if_pos hpre]
      repeat' split
      all_goals rfl
    · exact Or.inr ⟨⟨km, rfl⟩, hpre⟩

/-! ### The countdowns -/

/-- The packets of the running period that are still to come. -/
def left (c : SrtConn) : Nat := steps c.kmRefreshCountdown

/-- The countdowns of a connection that was set up with a valid configuration. Until the
announcement is due, they differ by the pre-announce time. -/
structure Timed (c : SrtConn) : Prop where
  paced : c.config.kmPreAnnounce.toNat < steps c.config.kmRefreshRate
  le : c.left ≤ steps c.config.kmRefreshRate
  pre : c.config.kmPreAnnounce.toNat < c.left →
    steps c.kmPreAnnounceCountdown = c.left - c.config.kmPreAnnounce.toNat

/-- When the draw is made. -/
theorem Timed.regenerates_iff (h : c.Timed) (hmore : c.left ≠ 1) :
    c.countDown.regenerates = true ↔
      c.left - 1 = steps c.config.kmRefreshRate - c.config.kmPreAnnounce.toNat := by
  have hsub : steps (c.kmRefreshCountdown - 1) = c.left - 1 := steps_sub_one hmore
  unfold regenerates
  rw [beq_iff_eq, ← steps_inj]
  show steps (c.kmRefreshCountdown - 1)
    = steps (c.config.kmRefreshRate - c.config.kmPreAnnounce) ↔ _
  rw [steps_sub h.paced, hsub]

/-- When the first announcement of a period is made. -/
theorem Timed.announces_iff (h : c.Timed) (hearly : c.config.kmPreAnnounce.toNat < c.left) :
    c.countDown.announces = true ↔
      c.left = c.config.kmPreAnnounce.toNat + 1 ∧ c.kmConfirmed = false := by
  have hpre := h.pre hearly
  unfold announces
  rw [Bool.and_eq_true, beq_iff_eq, Bool.not_eq_true']
  show c.kmPreAnnounceCountdown - 1 = 0 ∧ c.kmConfirmed = false ↔ _
  rw [sub_one_eq_zero_iff, hpre]
  constructor
  · rintro ⟨hq, hconf⟩
    exact ⟨by omega, hconf⟩
  · rintro ⟨hr, hconf⟩
    exact ⟨by omega, hconf⟩

theorem left_continued (hmore : c.left ≠ 1) : (c.continued crypto random).left = c.left - 1 :=
  steps_sub_one hmore

/-- The countdowns stay in step where the key stays. -/
theorem Timed.continued (h : c.Timed) (hmore : c.left ≠ 1) :
    (c.continued crypto random).Timed where
  paced := h.paced
  le := by
    have hle := h.le
    rw [left_continued hmore]
    show c.left - 1 ≤ steps c.config.kmRefreshRate
    omega
  pre := by
    rw [left_continued hmore]
    show c.config.kmPreAnnounce.toNat < c.left - 1 →
      steps (if c.countDown.announces then c.config.kmPreAnnounce / 10 + 1
        else c.kmPreAnnounceCountdown - 1) = c.left - 1 - c.config.kmPreAnnounce.toNat
    intro hearly
    have hpre := h.pre (by omega)
    have hquiet : ¬c.countDown.announces = true := by
      rw [h.announces_iff (by omega)]
      omega
    rw [if_neg hquiet, steps_sub_one (by omega)]
    omega

/-- At the start of a period. -/
theorem timed_start (hpaced : c.config.kmPreAnnounce.toNat < steps c.config.kmRefreshRate)
    (hrefresh : c.kmRefreshCountdown = c.config.kmRefreshRate)
    (hpre : c.kmPreAnnounceCountdown = c.config.kmRefreshRate - c.config.kmPreAnnounce) :
    c.Timed where
  paced := hpaced
  le := by
    unfold left
    rw [hrefresh]
  pre := by
    intro _
    unfold left
    rw [hpre, hrefresh]
    exact steps_sub hpaced

/-- A switch starts a period. -/
theorem Timed.switched (h : c.Timed) (crypto : Crypto) (random : Entropy) :
    (c.switched.regenerate crypto random).Timed := by
  obtain ⟨hconfig, -, hpre, hrefresh, -⟩ := regenerate_fields c.switched crypto random
  apply timed_start
  · rw [hconfig]
    exact h.paced
  · rw [hrefresh, hconfig]
    rfl
  · rw [hpre, hconfig]
    rfl

/-- A new period does not start with a draw. -/
theorem Timed.not_regenerates_switched (h : c.Timed) (hpos : 1 ≤ c.config.kmPreAnnounce.toNat) :
    ¬c.switched.regenerates = true := by
  have hpaced := h.paced
  intro hreg
  have hsame := congrArg steps (beq_iff_eq.mp hreg)
  change steps c.config.kmRefreshRate = steps (c.config.kmRefreshRate - c.config.kmPreAnnounce)
    at hsame
  rw [steps_sub hpaced] at hsame
  omega

theorem Timed.regenerate_switched (h : c.Timed) (hpos : 1 ≤ c.config.kmPreAnnounce.toNat)
    (crypto : Crypto) (random : Entropy) : c.switched.regenerate crypto random = c.switched :=
  if_neg (h.not_regenerates_switched hpos)

/-- A response leaves the countdowns. -/
theorem Timed.handleKMResponse (h : c.Timed) (p : Packet) : (c.handleKMResponse p).1.Timed := by
  obtain ⟨hconfig, -, -, hpre, hrefresh⟩ := handleKMResponse_fields c p
  have hleft : (c.handleKMResponse p).1.left = c.left := congrArg steps hrefresh
  constructor
  · rw [hconfig]
    exact h.paced
  · rw [hleft, hconfig]
    exact h.le
  · rw [hleft, hpre, hconfig]
    exact h.pre

/-- A new connection is at the start of a period. -/
theorem timed_newSRTConn {config : SrtConnConfig}
    (h : config.config.kmPreAnnounce.toNat < steps config.config.kmRefreshRate) :
    (newSRTConn config).Timed :=
  timed_start h rfl rfl

end

end SrtConn

namespace Sample

/-- A configuration with the sample passphrase. -/
def config (kmRefreshRate kmPreAnnounce : UInt64) : Config :=
  { kmRefreshRate := kmRefreshRate, kmPreAnnounce := kmPreAnnounce, passphrase := passphrase }

/-- A caller's connection that starts with the even key. -/
def connConfig (kmRefreshRate kmPreAnnounce : UInt64) : SrtConnConfig where
  version := 5
  isCaller := true
  localAddr := some "127.0.0.1:50000"
  remoteAddr := some "127.0.0.1:6000"
  config := config kmRefreshRate kmPreAnnounce
  socketId := 7
  peerSocketId := 8
  tsbpdTimeBase := 0
  tsbpdDelay := 120000
  peerTsbpdDelay := 120000
  initialPacketSequenceNumber := Number.new 1 maxSequenceNumber
  crypto := some crypto
  keyBaseEncryption := .evenKeyEncrypted

/-- A data packet with a payload of two bytes. -/
def dataPacket (packetSequenceNumber : UInt32) : Packet :=
  let p := newPacket none
  { header := { p.header with
      packetSequenceNumber := Number.new packetSequenceNumber maxSequenceNumber }
    payload := [0xCA, 0xFE] }

end Sample

end Gosrt
