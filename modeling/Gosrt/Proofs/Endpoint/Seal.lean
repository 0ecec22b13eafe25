import Gosrt.Proofs.Endpoint.Ends
import Gosrt.Proofs.Live.Link
import Gosrt.Proofs.Payload

/-!
# `Gosrt.Proofs.Endpoint.Seal`: from a pushed packet to the data packet on the wire

A `Cipher` is the key that both ends use, with its salt. `sealPayload` is what `pop` does to a
payload on its first way out. A data packet that leaves, `OnWire`, has the number of a pushed packet
and its sealed payload, and says which key it is sealed with.

`pop` gets a packet in one of two states (`Ready`): as it was pushed, or flagged and sealed already.
Either way what leaves is on the wire in this sense, and so is what the loss list keeps. This holds
as long as the connection is not yet at the announcement of its next key: up to then `pop` changes
nothing about the key in use (`Uses`).
-/

set_option autoImplicit false

namespace Gosrt

open Lib

/-- The key in use and the salt. -/
structure Cipher where
  key : PacketEncryption
  salt : Bytes
  sek : Bytes

/-- The payload of a data packet on the wire. -/
def sealPayload (prim : Primitives) (cipher : Option Cipher) (packetSequenceNumber : UInt32)
    (payload : Bytes) : Bytes :=
  match cipher with
  | none => payload
  | some k => Crypto.crypt prim k.salt k.sek packetSequenceNumber payload

/-- Encryption keeps the length. -/
theorem length_sealPayload (prim : Primitives) (cipher : Option Cipher) (n : UInt32)
    (payload : Bytes) : (sealPayload prim cipher n payload).length = payload.length := by
  unfold sealPayload
  split
  · rfl
  · exact Crypto.length_crypt prim _ _ _ _

/-! ### The key in use -/

namespace SrtConn

/-- The connection encrypts with the cipher, and it sent this many data packets since the start. -/
structure Keyed (cipher : Cipher) (popped : Nat) (c : SrtConn) : Prop where
  single : cipher.key.IsSingle
  crypto : ∃ crypto, c.crypto = some crypto ∧ crypto.salt = cipher.salt ∧
    crypto.sek cipher.key = some cipher.sek
  key : c.keyBaseEncryption = cipher.key
  timed : c.Timed
  left : c.left + popped = steps c.config.kmRefreshRate

def Uses : Option Cipher → Nat → SrtConn → Prop
  | none, _, c => c.crypto = none
  | some cipher, popped, c => c.Keyed cipher popped

/-- With this many data packets sent, the next key is not announced yet. -/
def Early (cipher : Option Cipher) (config : Config) (popped : Nat) : Prop :=
  ∀ k ∈ cipher, popped + config.kmPreAnnounce.toNat < steps config.kmRefreshRate

theorem Early.mono {cipher : Option Cipher} {config : Config} {m n : Nat}
    (h : Early cipher config n) (hle : m ≤ n) : Early cipher config m :=
  fun k hk => Nat.lt_of_le_of_lt (Nat.add_le_add_right hle _) (h k hk)

/-- Counters do not matter for the key. -/
theorem Uses.of_eq {cipher : Option Cipher} {popped : Nat} {c c' : SrtConn}
    (h : c.Uses cipher popped) (hconfig : c'.config = c.config) (hcrypto : c'.crypto = c.crypto)
    (hkey : c'.keyBaseEncryption = c.keyBaseEncryption)
    (hpre : c'.kmPreAnnounceCountdown = c.kmPreAnnounceCountdown)
    (hrefresh : c'.kmRefreshCountdown = c.kmRefreshCountdown) : c'.Uses cipher popped := by
  cases c'
  cases hconfig
  cases hcrypto
  cases hkey
  cases hpre
  cases hrefresh
  cases cipher with
  | none => exact h
  | some k => exact ⟨h.single, h.crypto, h.key, ⟨h.timed.paced, h.timed.le, h.timed.pre⟩, h.left⟩

section
variable (prim : Primitives) {c : SrtConn} {cipher : Option Cipher} {popped : Nat} {p : Packet}

/-- The packet as `pop` hands it to `onSend`. -/
def sealPacket (cipher : Option Cipher) (c : SrtConn) (p : Packet) : Packet :=
  match cipher with
  | none => c.address p
  | some k =>
    { header := { (c.address p).header with keyBaseEncryptionFlag := k.key }
      payload :=
        if p.header.retransmittedPacketFlag then p.payload
        else sealPayload prim cipher p.seq.val p.payload }

/-- A packet long before the announcement leaves alone, and the key stays. -/
theorem Keyed.pop {k : Cipher} (h : c.Keyed k popped) (hdata : p.header.isControlPacket = false)
    (hearly : Early (some k) c.config (popped + 1)) (timestamp : UInt32) (random : Entropy) :
    (c.pop prim p timestamp random).1.Keyed k (popped + 1) ∧
      (c.pop prim p timestamp random).2
        = (c.sealPacket prim (some k) p, [c.sealPacket prim (some k) p]) := by
  obtain ⟨crypto, hcrypto, hsalt, hsek⟩ := h.crypto
  have hbound := hearly k rfl
  have hleft := h.left
  have hmore : c.left ≠ 1 := by omega
  have hquiet : ¬c.countDown.announces = true := by
    rw [h.timed.announces_iff (by omega)]
    omega
  have hsealed : c.encrypt prim crypto (c.address p) = c.sealPacket prim (some k) p := by
    unfold encrypt sealPacket sealPayload Crypto.encryptOrDecryptPayload
    rw [h.key, hsek, hsalt]
    rfl
  constructor
  · rw [pop_continued hdata hcrypto (fun hz => hmore (by
      rw [sub_one_eq_zero_iff] at hz
      exact hz))]
    refine ⟨h.single, ?_, h.key, h.timed.continued hmore, ?_⟩
    · refine ⟨_, rfl, ?_⟩
      -- A new key is drawn for the other half only.
      split
      · have hne : c.keyBaseEncryption.opposite ≠ k.key := by
          rw [h.key]
          exact h.single.opposite_ne
        rw [Crypto.salt_generateSEK, Crypto.sek_generateSEK_of_ne crypto random hne.symm]
        exact ⟨hsalt, hsek⟩
      · exact ⟨hsalt, hsek⟩
    · rw [left_continued hmore]
      show c.left - 1 + (popped + 1) = steps c.config.kmRefreshRate
      omega
  · rw [pop_data prim timestamp random hdata hcrypto, hsealed]
    unfold announce
    rw [if_neg hquiet]
    rfl

/-- Before the next key is announced, `pop` encrypts with the one cipher. -/
theorem Uses.pop (h : c.Uses cipher popped) (hdata : p.header.isControlPacket = false)
    (hearly : Early cipher c.config (popped + 1)) (timestamp : UInt32) (random : Entropy) :
    (c.pop prim p timestamp random).1.Uses cipher (popped + 1) ∧
      (c.pop prim p timestamp random).2
        = (c.sealPacket prim cipher p, [c.sealPacket prim cipher p]) := by
  cases cipher with
  | none =>
    have hnone : c.pop prim p timestamp random = (c, c.address p, [c.address p]) := by
      unfold SrtConn.pop
      dsimp only
      rw [show (c.address p).header.isControlPacket = false from hdata,
        if_neg Bool.false_ne_true, show c.crypto = none from h]
    rw [hnone]
    exact ⟨h, rfl⟩
  | some k => exact Keyed.pop prim h hdata hearly timestamp random

end

end SrtConn

/-! ### Data packets -/

open Link (IsPushed)

/-- Everything that the data packets of one end depend on: the number before the initial one, the
cipher, the longest payload, and the packets that were pushed. -/
structure Stream where
  prim : Primitives
  base : Number
  cipher : Option Cipher
  size : Nat
  pushed : List Packet

namespace Stream

/-- The packet has the number of a pushed packet and its sealed payload. -/
structure Carries (s : Stream) (p : Packet) : Prop where
  control : p.header.isControlPacket = false
  message : p.header.messageNumber = 1
  size : p.payload.length ≤ s.size
  sealed : ∃ payload, IsPushed s.base s.pushed (p.seq, payload) ∧
    p.payload = sealPayload s.prim s.cipher p.seq.val payload

/-- A data packet that leaves. It also names the key. -/
structure OnWire (s : Stream) (p : Packet) : Prop extends s.Carries p where
  key : ∀ k ∈ s.cipher, p.header.keyBaseEncryptionFlag = k.key

/-- A packet before its first way out. -/
structure Queued (s : Stream) (p : Packet) : Prop where
  control : p.header.isControlPacket = false
  message : p.header.messageNumber = 1
  size : p.payload.length ≤ s.size
  plain : p.header.retransmittedPacketFlag = false
  pushed : IsPushed s.base s.pushed p.label

/-- A packet as `pop` gets it. -/
def Ready (s : Stream) (p : Packet) : Prop :=
  s.Queued p ∨ s.Carries p ∧ p.header.retransmittedPacketFlag = true

section
variable {s : Stream} {c : SrtConn} {p : Packet} {popped : Nat}

/-- It is in the window of the pushed packets, after the number before the first one. -/
theorem Carries.inWindow (h : s.Carries p) (hw : Window s.base s.pushed.length) :
    s.base.InWindow s.pushed.length p.seq ∧ 0 < s.base.offset p.seq := by
  obtain ⟨payload, hpushed, -⟩ := h.sealed
  exact IsPushed.inWindow (p := { p with payload := payload }) hw hpushed

theorem Carries.retransmitted (h : s.Carries p) : s.Ready (Sender.retransmitted p) :=
  Or.inr ⟨⟨h.control, h.message, h.size, h.sealed⟩, rfl⟩

theorem Ready.control (h : s.Ready p) : p.header.isControlPacket = false :=
  h.elim Queued.control fun h => h.1.control

/-- What `pop` makes of a packet goes on the wire. -/
theorem Ready.onWire (h : s.Ready p) (c : SrtConn) :
    s.OnWire (c.sealPacket s.prim s.cipher p) := by
  rcases h with h | ⟨h, hflag⟩
  · cases hcipher : s.cipher with
    | none =>
      refine ⟨⟨h.control, h.message, h.size, p.payload, h.pushed, ?_⟩, fun k hk => ?_⟩
      · rw [hcipher]
        rfl
      · rw [hcipher] at hk
        cases hk
    | some k =>
      have hpayload : (c.sealPacket s.prim (some k) p).payload
          = sealPayload s.prim (some k) p.seq.val p.payload := by
        show (if p.header.retransmittedPacketFlag then _ else _) = _
        rw [h.plain, if_neg Bool.false_ne_true]
      refine ⟨⟨h.control, h.message, ?_, p.payload, h.pushed, ?_⟩, fun k' hk => ?_⟩
      · rw [hpayload, length_sealPayload]
        exact h.size
      · rw [hpayload, hcipher]
        rfl
      · rw [hcipher] at hk
        cases hk
        rfl
  · -- A flagged packet keeps its payload.
    cases hcipher : s.cipher with
    | none =>
      refine ⟨⟨h.control, h.message, h.size, h.sealed⟩, fun k hk => ?_⟩
      rw [hcipher] at hk
      cases hk
    | some k =>
      have hpayload : (c.sealPacket s.prim (some k) p).payload = p.payload := if_pos hflag
      refine ⟨⟨h.control, h.message, ?_, ?_⟩, fun k' hk => ?_⟩
      · rw [hpayload]
        exact h.size
      · rw [hpayload]
        exact h.sealed
      · rw [hcipher] at hk
        cases hk
        rfl

/-- The flag of the header stays. -/
theorem sealPacket_flag (prim : Primitives) (cipher : Option Cipher) (c : SrtConn) (p : Packet) :
    (c.sealPacket prim cipher p).header.retransmittedPacketFlag
      = p.header.retransmittedPacketFlag := by
  cases cipher with
  | none => rfl
  | some k => rfl

/-- What a round of `pop` leaves: the connection after the data packets with these numbers, and what
left. -/
structure Pops (s : Stream) (c : SrtConn) (popped : Nat) (ns : List Number) (c' : SrtConn)
    (sent : List Packet) : Prop where
  uses : c'.Uses s.cipher (popped + ns.length)
  same : c.SameEnds c'
  onWire : ∀ q ∈ sent, s.OnWire q
  numbers : sent.map Packet.seq = ns
  addressed : ∀ q ∈ sent, q.header.destinationSocketId = c.peerSocketId

theorem Pops.nil (h : c.Uses s.cipher popped) : s.Pops c popped [] c [] :=
  ⟨h, .refl c, List.forall_mem_nil _, rfl, List.forall_mem_nil _⟩

/-- Packets that leave one after the other. -/
theorem Pops.append {c₁ c₂ : SrtConn} {ms ns : List Number} {sent sent' : List Packet}
    (h : s.Pops c popped ms c₁ sent) (h' : s.Pops c₁ (popped + ms.length) ns c₂ sent') :
    s.Pops c popped (ms ++ ns) c₂ (sent ++ sent') where
  uses := by
    rw [List.length_append, ← Nat.add_assoc]
    exact h'.uses
  same := h.same.trans h'.same
  onWire := List.forall_mem_append.mpr ⟨h.onWire, h'.onWire⟩
  numbers := by rw [List.map_append, h.numbers, h'.numbers]
  addressed := List.forall_mem_append.mpr
    ⟨h.addressed, fun q hq => (h'.addressed q hq).trans h.same.peerSocketId⟩

/-- The number stays, and the packet goes to the peer. -/
theorem sealPacket_fields (prim : Primitives) (cipher : Option Cipher) (c : SrtConn)
    (p : Packet) : (c.sealPacket prim cipher p).seq = p.seq ∧
      (c.sealPacket prim cipher p).header.destinationSocketId = c.peerSocketId := by
  cases cipher with
  | none => exact ⟨rfl, rfl⟩
  | some k => exact ⟨rfl, rfl⟩

/-- One packet, once. -/
theorem Ready.pop (h : s.Ready p) (huses : c.Uses s.cipher popped)
    (hearly : SrtConn.Early s.cipher c.config (popped + 1)) (input : PopInput) :
    ∃ c', c.pop s.prim p input.timestamp input.random
        = (c', c.sealPacket s.prim s.cipher p, [c.sealPacket s.prim s.cipher p]) ∧
      s.Pops c popped [p.seq] c' [c.sealPacket s.prim s.cipher p] := by
  obtain ⟨hpop, heq⟩ :=
    huses.pop s.prim h.control hearly input.timestamp input.random
  obtain ⟨hseq, hdest⟩ := sealPacket_fields s.prim s.cipher c p
  exact ⟨_, Prod.ext rfl heq, hpop, c.pop_sameEnds s.prim p input.timestamp input.random,
    List.forall_mem_singleton.mpr (h.onWire c), congrArg ([·]) hseq,
    List.forall_mem_singleton.mpr hdest⟩

/-- One packet, as often as it is handed over. A packet that leaves twice is flagged. -/
theorem popTimes_spec (n : Nat) :
    ∀ {c : SrtConn} {p : Packet} {popped : Nat} (inputs : List PopInput),
      c.Uses s.cipher popped → SrtConn.Early s.cipher c.config (popped + n) → s.Ready p →
      (n ≤ 1 ∨ p.header.retransmittedPacketFlag = true) →
      s.Pops c popped (List.replicate n p.seq) (c.popTimes s.prim p n inputs).1
          (c.popTimes s.prim p n inputs).2.2.1 ∧
        (n = 0 ∧ (c.popTimes s.prim p n inputs).2.1 = p ∨
          s.OnWire (c.popTimes s.prim p n inputs).2.1) := by
  induction n with
  | zero => exact fun inputs huses _ _ _ => ⟨.nil huses, Or.inl ⟨rfl, rfl⟩⟩
  | succ n ih =>
    intro c p popped inputs huses hearly hready hflag
    obtain ⟨conn, heq, hfirst⟩ :=
      hready.pop huses (hearly.mono (by omega)) (inputs.headD default)
    have hwire := hready.onWire c
    have hseq := (sealPacket_fields s.prim s.cipher c p).1
    have hsame := sealPacket_flag s.prim s.cipher c p
    -- The rest is about the packet that `pop` stored.
    generalize c.sealPacket s.prim s.cipher p = q at *
    -- A packet that is handed over again is flagged, so it is ready again.
    have hagain : n = 0 ∨ s.Ready q ∧ q.header.retransmittedPacketFlag = true := by
      rcases hflag with hone | hflag
      · exact Or.inl (by omega)
      · exact Or.inr ⟨Or.inr ⟨hwire.toCarries, hsame.trans hflag⟩, hsame.trans hflag⟩
    have hstep : c.popTimes s.prim p (n + 1) inputs =
        ((conn.popTimes s.prim q n inputs.tail).1, (conn.popTimes s.prim q n inputs.tail).2.1,
          [q] ++ (conn.popTimes s.prim q n inputs.tail).2.2.1,
          (conn.popTimes s.prim q n inputs.tail).2.2.2) := by
      conv_lhs => unfold SrtConn.popTimes
      dsimp only
      rw [heq]
    have hnumbers : List.replicate (n + 1) p.seq = [p.seq] ++ List.replicate n q.seq := by
      rw [hseq]
      rfl
    rw [hstep, hnumbers]
    rcases hagain with rfl | ⟨hready', hflag'⟩
    · exact ⟨hfirst.append (.nil hfirst.uses), Or.inr hwire⟩
    · have hearly' : SrtConn.Early s.cipher conn.config (popped + 1 + n) := by
        rw [hfirst.same.config]
        exact hearly.mono (by omega)
      obtain ⟨hrest, hstored⟩ := ih inputs.tail hfirst.uses hearly' hready' (Or.inr hflag')
      refine ⟨hfirst.append hrest, Or.inr ?_⟩
      rcases hstored with ⟨-, heq'⟩ | hstored
      · rw [heq']
        exact hwire
      · exact hstored

/-- The packets that `snd.Tick` hands over. -/
theorem popDue_spec (ps : List Packet) :
    ∀ {c : SrtConn} {popped : Nat} (inputs : List PopInput), c.Uses s.cipher popped →
      SrtConn.Early s.cipher c.config (popped + ps.length) → (∀ p ∈ ps, s.Queued p) →
      s.Pops c popped (ps.map Packet.seq) (c.popDue s.prim ps inputs).1
          (c.popDue s.prim ps inputs).2.2 ∧
        ∀ q ∈ (c.popDue s.prim ps inputs).2.1, s.Carries q := by
  induction ps with
  | nil =>
    intro c popped inputs huses _ _
    exact ⟨.nil huses, fun q hq => by cases hq⟩
  | cons p ps ih =>
    intro c popped inputs huses hearly hqueued
    obtain ⟨hp, hps⟩ := List.forall_mem_cons.mp hqueued
    rw [List.length_cons] at hearly
    obtain ⟨hfirst, hstored⟩ := popTimes_spec 1 inputs huses (hearly.mono (by omega))
      (Or.inl hp : s.Ready p) (Or.inl (Nat.le_refl 1))
    have hwire := hstored.resolve_left fun h => Nat.one_ne_zero h.1
    have hstep : c.popDue s.prim (p :: ps) inputs =
        (((c.popTimes s.prim p 1 inputs).1.popDue s.prim ps (c.popTimes s.prim p 1 inputs).2.2.2).1,
          (c.popTimes s.prim p 1 inputs).2.1 ::
            ((c.popTimes s.prim p 1 inputs).1.popDue s.prim ps
              (c.popTimes s.prim p 1 inputs).2.2.2).2.1,
          (c.popTimes s.prim p 1 inputs).2.2.1 ++
            ((c.popTimes s.prim p 1 inputs).1.popDue s.prim ps
              (c.popTimes s.prim p 1 inputs).2.2.2).2.2) := rfl
    rw [hstep]
    have hearly' : SrtConn.Early s.cipher (c.popTimes s.prim p 1 inputs).1.config
        (popped + 1 + ps.length) := by
      rw [hfirst.same.config]
      exact hearly.mono (by omega)
    obtain ⟨hrest, hcarries⟩ := ih _ hfirst.uses hearly' hps
    exact ⟨hfirst.append hrest, List.forall_mem_cons.mpr ⟨hwire.toCarries, hcarries⟩⟩

/-- The loop of `snd.NAK`. What the sender counts is what goes through `pop`. -/
theorem resend_spec {ns : List Number} (ps : List Packet) :
    ∀ {c c' : SrtConn} {popped : Nat} {inputs rest : List PopInput}
      {flagged resent stored sent : List Packet}, c.Uses s.cipher popped →
      Sender.nakLoop ns ps = some (flagged, resent) →
      SrtConn.Early s.cipher c.config (popped + resent.length) → (∀ p ∈ ps, s.Carries p) →
      c.resend s.prim ns ps inputs = some (c', stored, sent, rest) →
      s.Pops c popped (resent.map Packet.seq) c' sent ∧ ∀ q ∈ stored, s.Carries q := by
  induction ps with
  | nil =>
    intro c c' popped inputs rest flagged resent stored sent huses hloop _ _ h
    cases hloop
    cases h
    exact ⟨.nil huses, fun q hq => by cases hq⟩
  | cons p ps ih =>
    intro c c' popped inputs rest flagged resent stored sent huses hloop hearly hcarries h
    obtain ⟨hp, hps⟩ := List.forall_mem_cons.mp hcarries
    simp only [Sender.nakLoop, Option.bind_eq_bind, Option.bind_eq_some_iff, Option.pure_def,
      Option.some.injEq, Prod.mk.injEq] at hloop
    obtain ⟨⟨flagged₁, resent₁⟩, hloop, hits, hhits, -, rfl⟩ := hloop
    simp only [SrtConn.resend, Option.bind_eq_bind, Option.bind_eq_some_iff, Option.pure_def,
      Option.some.injEq, Prod.mk.injEq, hhits] at h
    obtain ⟨⟨c₁, stored₁, sent₁, inputs₁⟩, h, hits', heq, rfl, rfl, rfl, -⟩ := h
    cases heq
    dsimp only at hearly ⊢
    rw [List.length_append, List.length_replicate] at hearly
    rw [List.map_append, List.map_replicate]
    obtain ⟨hfirst, hstored⟩ := ih huses hloop (hearly.mono (by omega)) hps h
    -- The packets behind `p` are handed over first.
    have hearly' : SrtConn.Early s.cipher c₁.config
        (popped + (resent₁.map Packet.seq).length + hits) := by
      rw [hfirst.same.config, List.length_map]
      exact hearly.mono (by omega)
    by_cases hzero : hits = 0
    · subst hzero
      exact ⟨hfirst.append (.nil hfirst.uses), List.forall_mem_cons.mpr ⟨hp, hstored⟩⟩
    · simp only [if_neg hzero]
      obtain ⟨hrest, hlast⟩ := popTimes_spec hits inputs₁ hfirst.uses hearly' hp.retransmitted
        (Or.inr rfl)
      exact ⟨hfirst.append hrest, List.forall_mem_cons.mpr
        ⟨(hlast.resolve_left fun h => hzero h.1).toCarries, hstored⟩⟩

end

end Stream

end Gosrt
