import Gosrt.Lib.Run
import Gosrt.Proofs.Circular
import Gosrt.Proofs.Payload
import Gosrt.Spec.Stream

/-!
# `Gosrt.Proofs.Keystream`: no counter block is used twice under one SEK

The argument has three parts.

* A period has at most `KMRefreshRate` packets. Its first transmissions carry consecutive
  sequence numbers, and `2 ^ 31` of these are different. So their counter blocks are
  (`apart_of_consecutive`).
* A period has one SEK. Before it ends, the other key is drawn, and by assumption the drawn SEK
  is one that was not there before. So the next period has a SEK that encrypted nothing.
* `Period` is the invariant that puts these together: the encryptions so far are those of the
  periods that are over, and those of the running one.

The assumption on the draws is `s.seks.Nodup`, at the end of a run. It is about every call of
`GenerateSEK`. A call that fails leaves a SEK behind that was there before.
-/

set_option autoImplicit false

namespace Gosrt

open Lib

namespace Keystream

/-! ### Encryptions in a period -/

section
variable {rate : Nat} {old cur : List Encryption} {sek : Option Bytes} {salt : Bytes}

/-- What the encryptions of a period have in common: the salt, the SEK, the consecutive sequence
numbers from `start` on, and payloads of a limited length. -/
structure Consecutive (salt : Bytes) (sek : Option Bytes) (start : Number)
    (cur : List Encryption) : Prop where
  salt : ∀ e ∈ cur, e.salt = salt
  sek : ∀ e ∈ cur, e.sek = sek
  length : ∀ e ∈ cur, e.payload.length ≤ maxPayloadSize.toNat
  numbers : cur.map (·.packetSequenceNumber)
    = (List.range cur.length).map fun i => (start.plus i).val

/-- The encryption of the next sequence number continues the period. -/
theorem Consecutive.concat {start : Number} (h : Consecutive salt sek start cur)
    {e : Encryption} (hsalt : e.salt = salt) (hsek : e.sek = sek)
    (hlength : e.payload.length ≤ maxPayloadSize.toNat)
    (hnumber : e.packetSequenceNumber = (start.plus cur.length).val) :
    Consecutive salt sek start (cur ++ [e]) where
  salt := List.forall_mem_append.mpr ⟨h.salt, List.forall_mem_singleton.mpr hsalt⟩
  sek := List.forall_mem_append.mpr ⟨h.sek, List.forall_mem_singleton.mpr hsek⟩
  length := List.forall_mem_append.mpr ⟨h.length, List.forall_mem_singleton.mpr hlength⟩
  numbers := by
    rw [List.length_append, List.length_singleton, List.range_succ, List.map_append,
      List.map_append, h.numbers, List.map_singleton, List.map_singleton, hnumber]

/-- Encryptions of different sequence numbers share no counter block. -/
theorem disjoint_counterBlocks {e e' : Encryption} (hsalt : e.salt.length = 16)
    (hsame : e'.salt = e.salt) (hlen : e.payload.length ≤ maxPayloadSize.toNat)
    (hlen' : e'.payload.length ≤ maxPayloadSize.toNat)
    (hne : e.packetSequenceNumber ≠ e'.packetSequenceNumber) :
    e.counterBlocks.Disjoint e'.counterBlocks := by
  have hmax : maxPayloadSize.toNat = 1456 := by decide
  rw [hmax] at hlen hlen'
  intro block hb hb'
  obtain ⟨i, hi, rfl⟩ := List.mem_map.mp hb
  obtain ⟨j, hj, heq⟩ := List.mem_map.mp hb'
  have hi' := List.mem_range.mp hi
  have hj' := List.mem_range.mp hj
  -- A payload has at most 91 blocks, far from the 16 bits of the block counter.
  rw [hsame] at heq
  exact hne (Crypto.counterBlock_add_inj hsalt (by omega) (by omega) heq.symm).1

/-- In a period of at most `2 ^ 31` packets all counter blocks are different. -/
theorem apart_of_consecutive {start : Number} (hstart : start.IsSequenceNumber)
    (hsalt : salt.length = 16) (h : Consecutive salt sek start cur)
    (hlen : cur.length ≤ 2 ^ 31) : cur.Pairwise Apart := by
  have hmax := hstart.max_toNat
  have hnodup : (cur.map (·.packetSequenceNumber)).Nodup := by
    rw [h.numbers, List.Nodup, List.pairwise_map]
    refine List.Pairwise.imp_of_mem ?_ List.nodup_range
    intro i j hi hj hne heq
    rw [List.mem_range] at hi hj
    have hequals := Number.plus_equals_plus (a := start) (i := i) (j := j) (by omega) (by omega)
    rw [show (start.plus i).equals (start.plus j) = true from beq_iff_eq.mpr heq] at hequals
    exact hne (of_decide_eq_true hequals.symm)
  rw [List.Nodup, List.pairwise_map] at hnodup
  refine List.Pairwise.imp_of_mem ?_ hnodup
  intro e e' he he' hne _
  have hsalt' : e.salt.length = 16 := by rw [h.salt e he, hsalt]
  exact disjoint_counterBlocks hsalt' ((h.salt e' he').trans (h.salt e he).symm) (h.length e he)
    (h.length e' he') hne

/-- A period with a SEK that the ones before it did not use. -/
theorem NoReuse.append (hold : NoReuse rate old) (hother : ∀ e ∈ old, e.sek ≠ sek)
    (hsek : ∀ e ∈ cur, e.sek = sek) (hlen : cur.length ≤ rate) (hcur : cur.Pairwise Apart) :
    NoReuse rate (old ++ cur) where
  count := by
    intro x
    rw [List.countP_append]
    by_cases hx : x = sek
    · subst hx
      have hzero : old.countP (·.sek == x) = 0 := by
        rw [List.countP_eq_zero]
        intro e he hbeq
        exact hother e he (beq_iff_eq.mp hbeq)
      have hle := List.countP_le_length (p := fun e : Encryption => e.sek == x) (l := cur)
      omega
    · have hzero : cur.countP (·.sek == x) = 0 := by
        rw [List.countP_eq_zero]
        intro e he hbeq
        exact hx ((beq_iff_eq.mp hbeq).symm.trans (hsek e he))
      have hle := hold.count x
      omega
  apart := by
    rw [List.pairwise_append]
    refine ⟨hold.apart, hcur, ?_⟩
    intro e he e' he' hsame
    exact absurd (hsame.trans (hsek e' he')) (hother e he)

end

/-! ### What `pop` does to the history -/

section
variable {prim : Primitives} {s : Keystream} {crypto : Crypto} {p : Packet} {timestamp : UInt32}
  {random : Entropy}

/-- In the middle of a period. -/
theorem pop_continued (hdata : p.header.isControlPacket = false)
    (hcrypto : s.conn.crypto = some crypto) (hmore : s.conn.left ≠ 1) :
    s.pop prim crypto p timestamp random =
      { s with
        conn := s.conn.continued crypto random
        seks :=
          if s.conn.countDown.regenerates then
            s.seks ++ [(crypto.generateSEK s.conn.keyBaseEncryption.opposite random).sek
              s.conn.keyBaseEncryption.opposite]
          else s.seks
        drawn := s.drawn || s.conn.countDown.regenerates } := by
  have hr : s.conn.kmRefreshCountdown - 1 ≠ 0 := fun h => hmore (sub_one_eq_zero_iff.mp h)
  have hsw : (s.conn.countDown.announce prim crypto timestamp).1.switches = false := by
    rw [SrtConn.switches_announce, beq_eq_false_iff_ne]
    exact hr
  unfold pop
  dsimp only
  unfold SrtConn.switchKeys
  rw [hsw, if_neg Bool.false_ne_true, SrtConn.pop_continued hdata hcrypto hr,
    SrtConn.announce_conn]
  simp only [Bool.not_false, Bool.true_and, Bool.false_and, Bool.or_false]
  rfl

/-- At the end of a period. -/
theorem pop_switched (hdata : p.header.isControlPacket = false)
    (hcrypto : s.conn.crypto = some crypto) (htimed : s.conn.Timed)
    (hpos : 1 ≤ s.conn.config.kmPreAnnounce.toNat) (hlast : s.conn.left = 1) :
    s.pop prim crypto p timestamp random =
      { s with conn := s.conn.switched, drawn := false, stale := s.stale || !s.drawn } := by
  have hr : s.conn.kmRefreshCountdown - 1 = 0 := sub_one_eq_zero_iff.mpr hlast
  have hsw : (s.conn.countDown.announce prim crypto timestamp).1.switches = true := by
    rw [SrtConn.switches_announce, beq_iff_eq]
    exact hr
  have hconn : (s.conn.countDown.announce prim crypto timestamp).1.switchKeys
      = s.conn.switched := by
    unfold SrtConn.switchKeys
    rw [hsw, if_pos rfl, SrtConn.announce_conn]
    rfl
  unfold pop
  dsimp only
  rw [hconn, hsw, Bool.eq_false_of_not_eq_true (htimed.not_regenerates_switched hpos),
    SrtConn.pop_switched hdata hcrypto hr, htimed.regenerate_switched hpos crypto random]
  rfl

end

/-! ### The invariant -/

/-- The encryptions so far: `old` are those of the periods that are over, `cur` those of the
running period, with consecutive sequence numbers from `start` on. -/
structure Period (config : Config) (s : Keystream) (crypto : Crypto) (start : Number)
    (old cur : List Encryption) : Prop where
  config_eq : s.conn.config = config
  crypto_eq : s.conn.crypto = some crypto
  key : s.conn.keyBaseEncryption.IsSingle
  timed : s.conn.Timed
  encryptions : s.encryptions = old ++ cur
  number : start.IsSequenceNumber
  next : s.next = start.plus cur.length
  current : Consecutive crypto.salt (crypto.sek s.conn.keyBaseEncryption) start cur
  past : NoReuse config.kmRefreshRate.toNat old
  /-- The periods that are over had other SEKs. -/
  fresh : ∀ e ∈ old, e.sek ≠ crypto.sek s.conn.keyBaseEncryption
  known : ∀ e ∈ old, e.sek ∈ s.seks
  knownKey : crypto.sek s.conn.keyBaseEncryption ∈ s.seks
  knownOther : crypto.sek s.conn.keyBaseEncryption.opposite ∈ s.seks
  differ : crypto.sek s.conn.keyBaseEncryption ≠ crypto.sek s.conn.keyBaseEncryption.opposite
  /-- Once the draw is made, the other SEK is one that encrypted nothing. -/
  drawn : s.conn.left ≤ config.kmRefreshRate.toNat - config.kmPreAnnounce.toNat →
    s.drawn = true ∧ ∀ e ∈ old, e.sek ≠ crypto.sek s.conn.keyBaseEncryption.opposite
  stale : s.stale = false

/-- The invariant of a run: its encryptions fall into periods, and what the running period has
encrypted and may still encrypt is at most `KMRefreshRate`. -/
def Periodic (config : Config) (s : Keystream) : Prop :=
  ∃ crypto start old cur, Period config s crypto start old cur ∧
    cur.length + s.conn.left ≤ config.kmRefreshRate.toNat

section
variable {prim : Primitives} {config : Config} {s : Keystream} {crypto : Crypto} {start : Number}
  {old cur : List Encryption} {p : Packet} {timestamp : UInt32} {random : Entropy}

/-- Within a period the numbers differ, and the keys of two periods do. -/
theorem Period.noReuse (h : Period config s crypto start old cur)
    (hlen : cur.length ≤ config.kmRefreshRate.toNat)
    (hrate : config.kmRefreshRate.toNat ≤ 2 ^ 31) :
    NoReuse config.kmRefreshRate.toNat (old ++ cur) :=
  h.past.append h.fresh h.current.sek hlen
    (apart_of_consecutive h.number crypto.length_salt h.current (Nat.le_trans hlen hrate))

/-- What a data packet looks like when it leaves: the flag is the key in use, and the number and
the length of the payload are those of the packet. -/
structure Leaves (crypto : Crypto) (key : PacketEncryption) (p : Packet) (e : Encryption) :
    Prop where
  salt : e.salt = crypto.salt
  sek : e.sek = crypto.sek key
  packetSequenceNumber : e.packetSequenceNumber = p.seq.val
  length : e.payload.length = p.payload.length

theorem leaves_pop (prim : Primitives) (timestamp : UInt32) (random : Entropy)
    (hdata : p.header.isControlPacket = false) (hcrypto : s.conn.crypto = some crypto) :
    Leaves crypto s.conn.keyBaseEncryption p
      (encryption crypto p (s.conn.pop prim p timestamp random).2.1) := by
  rw [SrtConn.pop_data prim timestamp random hdata hcrypto]
  exact ⟨rfl, rfl, rfl, SrtConn.length_encrypt prim s.conn crypto _⟩

/-- A first transmission is recorded. -/
theorem Period.record (h : Period config s crypto start old cur) (hseq : p.seq = s.next)
    (hlen : p.payload.length ≤ maxPayloadSize.toNat) {e : Encryption}
    (he : Leaves crypto s.conn.keyBaseEncryption p e) :
    Period config { s with next := s.next.inc, encryptions := s.encryptions ++ [e] }
      crypto start old (cur ++ [e]) :=
  { h with
    encryptions := by
      show s.encryptions ++ _ = _
      rw [h.encryptions, List.append_assoc]
    next := by
      show s.next.inc = _
      rw [h.next, Number.inc_plus h.number.wf, List.length_append, List.length_singleton]
    current := by
      refine h.current.concat he.salt he.sek (he.length ▸ hlen) ?_
      rw [he.packetSequenceNumber, hseq, h.next] }

/-- The next period starts with the SEK that was drawn. -/
theorem Period.switched (h : Period config s crypto start old cur) (hrekeys : config.Rekeys)
    (hrate : config.kmRefreshRate.toNat ≤ 2 ^ 31)
    (hlen : cur.length ≤ config.kmRefreshRate.toNat) (hlast : s.conn.left = 1) :
    Period config { s with conn := s.conn.switched, drawn := false, stale := s.stale || !s.drawn }
      crypto s.next (old ++ cur) [] := by
  have hpos := hrekeys.pos
  have hhalf := hrekeys.half
  obtain ⟨hdrawn, hunused⟩ := h.drawn (by omega)
  have hcur : ∀ e ∈ cur, e.sek = crypto.sek s.conn.keyBaseEncryption := h.current.sek
  have hnext : s.next.IsSequenceNumber := by
    rw [h.next]
    exact h.number.plus _
  have hconfig := h.config_eq
  exact
    { config_eq := hconfig
      crypto_eq := h.crypto_eq
      key := h.key.opposite
      timed := by
        have ht := h.timed.switched crypto none
        rwa [h.timed.regenerate_switched (by rw [hconfig]; exact hpos)] at ht
      encryptions := by
        show s.encryptions = _
        rw [h.encryptions, List.append_nil]
      number := hnext
      next := (Number.plus_zero hnext.wf).symm
      current := ⟨nofun, nofun, nofun, rfl⟩
      past := h.noReuse hlen hrate
      fresh := by
        refine List.forall_mem_append.mpr ⟨hunused, ?_⟩
        intro e he heq
        exact h.differ ((hcur e he).symm.trans heq)
      known := by
        refine List.forall_mem_append.mpr ⟨h.known, ?_⟩
        intro e he
        rw [hcur e he]
        exact h.knownKey
      knownKey := h.knownOther
      knownOther := by
        show crypto.sek s.conn.keyBaseEncryption.opposite.opposite ∈ s.seks
        rw [PacketEncryption.opposite_opposite]
        exact h.knownKey
      differ := by
        show crypto.sek s.conn.keyBaseEncryption.opposite
          ≠ crypto.sek s.conn.keyBaseEncryption.opposite.opposite
        rw [PacketEncryption.opposite_opposite]
        exact h.differ.symm
      drawn := by
        -- The whole period is still to come, so there is nothing to show yet.
        intro hle
        change steps s.conn.config.kmRefreshRate ≤ _ at hle
        rw [hconfig, steps_of_ne_zero hrekeys.rate] at hle
        omega
      stale := by
        show (s.stale || !s.drawn) = false
        rw [h.stale, hdrawn]
        rfl }

/-- The period goes on, and nothing is drawn. -/
theorem Period.continued (h : Period config s crypto start old cur) (hrekeys : config.Rekeys)
    (hmore : s.conn.left ≠ 1) (hquiet : s.conn.countDown.regenerates = false) :
    Period config { s with conn := s.conn.continued crypto random } crypto start old cur :=
  { h with
    crypto_eq := by
      show some (if s.conn.countDown.regenerates then _ else crypto) = _
      rw [hquiet, if_neg Bool.false_ne_true]
    timed := h.timed.continued hmore
    drawn := by
      intro hle
      change (s.conn.continued crypto random).left ≤ _ at hle
      rw [SrtConn.left_continued hmore] at hle
      -- The draw is made when exactly `KMRefreshRate - KMPreAnnounce` packets are left.
      have hnot := mt (h.timed.regenerates_iff hmore).mpr (by rw [hquiet]; exact Bool.false_ne_true)
      rw [h.config_eq, steps_of_ne_zero hrekeys.rate] at hnot
      exact h.drawn (by omega) }

/-- The period goes on, and the other key is drawn. The SEK is one that was not there. -/
theorem Period.drawing (h : Period config s crypto start old cur) (hmore : s.conn.left ≠ 1)
    (hdraw : s.conn.countDown.regenerates = true)
    (hnew : (crypto.generateSEK s.conn.keyBaseEncryption.opposite random).sek
      s.conn.keyBaseEncryption.opposite ∉ s.seks) :
    Period config
      { s with
        conn := s.conn.continued crypto random
        seks := s.seks ++ [(crypto.generateSEK s.conn.keyBaseEncryption.opposite random).sek
          s.conn.keyBaseEncryption.opposite]
        drawn := true }
      (crypto.generateSEK s.conn.keyBaseEncryption.opposite random) start old cur := by
  have hsame := crypto.sek_generateSEK_of_ne random h.key.opposite_ne.symm
  have hsalt : (crypto.generateSEK s.conn.keyBaseEncryption.opposite random).salt = crypto.salt :=
    crypto.salt_generateSEK _ _
  exact
    { h with
      crypto_eq := by
        show some (if s.conn.countDown.regenerates then _ else crypto) = _
        rw [hdraw, if_pos rfl]
      timed := h.timed.continued hmore
      current := by
        show Consecutive _ ((crypto.generateSEK _ random).sek s.conn.keyBaseEncryption) start cur
        rw [hsalt, hsame]
        exact h.current
      fresh := by
        show ∀ e ∈ old, e.sek ≠ (crypto.generateSEK _ random).sek s.conn.keyBaseEncryption
        rw [hsame]
        exact h.fresh
      known := fun e he => List.mem_append_left _ (h.known e he)
      knownKey := by
        show (crypto.generateSEK _ random).sek s.conn.keyBaseEncryption ∈ _
        rw [hsame]
        exact List.mem_append_left _ h.knownKey
      knownOther := List.mem_append_right _ List.mem_cons_self
      differ := by
        show (crypto.generateSEK _ random).sek s.conn.keyBaseEncryption ≠ _
        rw [hsame]
        intro heq
        exact hnew (heq ▸ h.knownKey)
      drawn := by
        intro _
        refine ⟨rfl, ?_⟩
        intro e he heq
        exact hnew (heq ▸ h.known e he) }

/-- A key material response changes neither the keys nor the countdowns. -/
theorem Period.response (h : Period config s crypto start old cur) (p : Packet) :
    Period config { s with conn := (s.conn.handleKMResponse p).1 } crypto start old cur := by
  obtain ⟨hconfig, hcrypto, hkey, -, hrefresh⟩ := s.conn.handleKMResponse_fields p
  have hleft : (s.conn.handleKMResponse p).1.left = s.conn.left := congrArg steps hrefresh
  constructor
  · exact hconfig.trans h.config_eq
  · exact hcrypto.trans h.crypto_eq
  · rw [hkey]
    exact h.key
  · exact h.timed.handleKMResponse p
  · exact h.encryptions
  · exact h.number
  · exact h.next
  · rw [hkey]
    exact h.current
  · exact h.past
  · rw [hkey]
    exact h.fresh
  · exact h.known
  · rw [hkey]
    exact h.knownKey
  · rw [hkey]
    exact h.knownOther
  · rw [hkey]
    exact h.differ
  · rw [hkey, hleft]
    exact h.drawn
  · exact h.stale

/-- `pop` after its packet is recorded, or of a packet that is sent again. -/
theorem Period.pop (h : Period config s crypto start old cur) (hrekeys : config.Rekeys)
    (hrate : config.kmRefreshRate.toNat ≤ 2 ^ 31)
    (hlen : cur.length + s.conn.left ≤ config.kmRefreshRate.toNat + 1)
    (hdata : p.header.isControlPacket = false)
    (hnodup : (s.pop prim crypto p timestamp random).seks.Nodup) :
    Periodic config (s.pop prim crypto p timestamp random) := by
  have hleft := steps_pos s.conn.kmRefreshCountdown
  change 1 ≤ s.conn.left at hleft
  by_cases hlast : s.conn.left = 1
  · rw [pop_switched hdata h.crypto_eq h.timed (by rw [h.config_eq]; exact hrekeys.pos) hlast]
    refine ⟨_, _, _, _, h.switched hrekeys hrate (by omega) hlast, ?_⟩
    show 0 + steps s.conn.config.kmRefreshRate ≤ _
    rw [h.config_eq, steps_of_ne_zero hrekeys.rate]
    omega
  rw [pop_continued hdata h.crypto_eq hlast] at hnodup ⊢
  have hless : cur.length + (s.conn.continued crypto random).left
      ≤ config.kmRefreshRate.toNat := by
    rw [SrtConn.left_continued hlast]
    omega
  cases hdraw : s.conn.countDown.regenerates with
  | false =>
    simp only [Bool.or_false, Bool.false_eq_true, if_false]
    exact ⟨_, _, _, _, h.continued hrekeys hlast hdraw, hless⟩
  | true =>
    simp only [hdraw, Bool.or_true, if_true] at hnodup ⊢
    have hnew := (List.nodup_append.mp hnodup).2.2
    refine ⟨_, _, _, _, h.drawing hlast hdraw ?_, hless⟩
    intro hmem
    exact hnew _ hmem _ List.mem_cons_self rfl

/-- The SEKs of the history are only added to. -/
theorem nodup_seks_of_pop (hnodup : (s.pop prim crypto p timestamp random).seks.Nodup) :
    s.seks.Nodup := by
  unfold Keystream.pop at hnodup
  dsimp only at hnodup
  split at hnodup
  · exact (List.nodup_append.mp hnodup).1
  · exact hnodup

/-- The draws of a step were drawn fresh if those after it were. -/
theorem nodup_seks_of_step {s' : Keystream} {e : Event} (hs : step prim s e = some s')
    (hnodup : s'.seks.Nodup) : s.seks.Nodup := by
  cases e with
  | first p timestamp random =>
    simp only [step] at hs
    split at hs
    · cases hs
    split at hs
    · cases hs
    obtain ⟨crypto, -, rfl⟩ := Option.map_eq_some_iff.mp hs
    exact nodup_seks_of_pop (p := p) hnodup
  | again p timestamp random =>
    simp only [step] at hs
    split at hs
    · cases hs
    obtain ⟨crypto, -, rfl⟩ := Option.map_eq_some_iff.mp hs
    exact nodup_seks_of_pop hnodup
  | kmResponse p =>
    cases hs
    exact hnodup

/-- The history of the keys does not depend on the recorded packets. -/
theorem pop_record (next : Number) (encryptions : List Encryption) :
    Keystream.pop prim { s with next := next, encryptions := encryptions } crypto p timestamp random
      = { s.pop prim crypto p timestamp random with next := next, encryptions := encryptions } := by
  unfold Keystream.pop
  dsimp only

/-- Every event keeps the invariant, as long as the SEKs stay different. -/
theorem Periodic.step (h : Periodic config s) (hrekeys : config.Rekeys)
    (hrate : config.kmRefreshRate.toNat ≤ 2 ^ 31) {e : Event} {s' : Keystream}
    (hs : step prim s e = some s') (hnodup : s'.seks.Nodup) : Periodic config s' := by
  obtain ⟨crypto, start, old, cur, hperiod, hlen⟩ := h
  cases e with
  | first p timestamp random =>
    simp only [Keystream.step] at hs
    split at hs
    · cases hs
    rename_i hkind
    split at hs
    · cases hs
    rename_i hpacket
    obtain ⟨crypto', hcrypto', rfl⟩ := Option.map_eq_some_iff.mp hs
    cases hperiod.crypto_eq.symm.trans hcrypto'
    rw [not_or, not_not, Nat.not_lt] at hpacket
    rw [Bool.or_eq_true, not_or, Bool.not_eq_true] at hkind
    have hrecord := hperiod.record hpacket.1 hpacket.2
      (leaves_pop prim timestamp random hkind.1 hcrypto')
    rw [← pop_record] at hnodup ⊢
    exact hrecord.pop hrekeys hrate
      (by rw [List.length_append, List.length_singleton]; show _ + s.conn.left ≤ _; omega)
      hkind.1 hnodup
  | again p timestamp random =>
    simp only [Keystream.step] at hs
    split at hs
    · cases hs
    rename_i hkind
    obtain ⟨crypto', hcrypto', rfl⟩ := Option.map_eq_some_iff.mp hs
    cases hperiod.crypto_eq.symm.trans hcrypto'
    rw [Bool.or_eq_true, not_or, Bool.not_eq_true] at hkind
    exact hperiod.pop hrekeys hrate (by omega) hkind.1 hnodup
  | kmResponse p =>
    cases hs
    refine ⟨crypto, start, old, cur, hperiod.response p, ?_⟩
    obtain ⟨-, -, -, -, hrefresh⟩ := s.conn.handleKMResponse_fields p
    show cur.length + steps (s.conn.handleKMResponse p).1.kmRefreshCountdown ≤ _
    rw [hrefresh]
    exact hlen

/-- A new connection is at the start of its first period. -/
theorem periodic_init {connConfig : SrtConnConfig} (hrekeys : connConfig.config.Rekeys)
    (hcrypto : connConfig.crypto = some crypto) (hkey : connConfig.keyBaseEncryption.IsSingle)
    (hnumber : connConfig.initialPacketSequenceNumber.IsSequenceNumber)
    (hnodup : (init (newSRTConn connConfig)).seks.Nodup) :
    Periodic connConfig.config (init (newSRTConn connConfig)) := by
  have hpos := hrekeys.pos
  have hhalf := hrekeys.half
  have hsteps := steps_of_ne_zero hrekeys.rate
  have hseks : (init (newSRTConn connConfig)).seks = [some crypto.evenSEK, some crypto.oddSEK] := by
    show (connConfig.crypto.map _).getD [] = _
    rw [hcrypto]
    rfl
  rw [hseks] at hnodup
  have hne : some crypto.evenSEK ≠ some crypto.oddSEK := by
    intro heq
    exact (List.nodup_cons.mp hnodup).1 (List.mem_singleton.mpr heq)
  refine ⟨crypto, connConfig.initialPacketSequenceNumber, [], [], ?_, ?_⟩
  · constructor
    · rfl
    · exact hcrypto
    · exact hkey
    · exact SrtConn.timed_newSRTConn (by omega)
    · rfl
    · exact hnumber
    · exact (Number.plus_zero hnumber.wf).symm
    · exact ⟨nofun, nofun, nofun, rfl⟩
    · exact ⟨fun _ => Nat.zero_le _, List.Pairwise.nil⟩
    · nofun
    · nofun
    · rw [hseks]
      exact crypto.sek_mem hkey
    · rw [hseks]
      exact crypto.sek_mem hkey.opposite
    · exact crypto.sek_ne_opposite hne hkey
    · intro hle
      change steps connConfig.config.kmRefreshRate ≤ _ at hle
      omega
    · rfl
  · show 0 + steps connConfig.config.kmRefreshRate ≤ _
    omega

/-- What is recorded of a first transmission is what `pop` does to its payload. -/
theorem applied_pop (h : s.conn.Encrypted) (hcrypto : s.conn.crypto = some crypto)
    (hdata : p.header.isControlPacket = false)
    (hfirst : p.header.retransmittedPacketFlag = false) :
    (encryption crypto p (s.conn.pop prim p timestamp random).2.1).Applied prim := by
  obtain ⟨sek, hsek⟩ := crypto.exists_sek h.key
  have hcrypt : crypto.encryptOrDecryptPayload prim p.payload s.conn.keyBaseEncryption p.seq.val
      = .ok (Crypto.crypt prim crypto.salt sek p.seq.val p.payload) := by
    unfold Crypto.encryptOrDecryptPayload
    rw [hsek]
  have hpayload : (s.conn.encrypt prim crypto (s.conn.address p)).payload
      = Crypto.crypt prim crypto.salt sek p.seq.val p.payload := by
    show (if p.header.retransmittedPacketFlag then p.payload else _) = _
    rw [hfirst, if_neg Bool.false_ne_true]
    exact congrArg (fun data => data.toOption.getD p.payload) hcrypt
  have hlength := SrtConn.length_encrypt prim s.conn crypto (s.conn.address p)
  rw [SrtConn.pop_data prim timestamp random hdata hcrypto]
  refine ⟨sek, hsek, ?_⟩
  unfold Encryption.counterBlocks encryption
  dsimp only
  rw [hlength, hpayload, List.flatMap_map]
  rfl

/-- The connection stays encrypted, and every recorded encryption is one of a payload that left. -/
theorem applied_of_step {s' : Keystream} {e : Event}
    (h : s.conn.Encrypted ∧ ∀ x ∈ s.encryptions, x.Applied prim)
    (hs : step prim s e = some s') :
    s'.conn.Encrypted ∧ ∀ x ∈ s'.encryptions, x.Applied prim := by
  cases e with
  | first p timestamp random =>
    simp only [step] at hs
    split at hs
    · cases hs
    rename_i hkind
    split at hs
    · cases hs
    obtain ⟨crypto, hcrypto, rfl⟩ := Option.map_eq_some_iff.mp hs
    rw [Bool.or_eq_true, not_or, Bool.not_eq_true, Bool.not_eq_true] at hkind
    refine ⟨h.1.pop prim timestamp random hkind.1, ?_⟩
    exact List.forall_mem_append.mpr
      ⟨h.2, List.forall_mem_singleton.mpr (applied_pop h.1 hcrypto hkind.1 hkind.2)⟩
  | again p timestamp random =>
    simp only [step] at hs
    split at hs
    · cases hs
    rename_i hkind
    obtain ⟨crypto, -, rfl⟩ := Option.map_eq_some_iff.mp hs
    rw [Bool.or_eq_true, not_or, Bool.not_eq_true] at hkind
    exact ⟨h.1.pop prim timestamp random hkind.1, h.2⟩
  | kmResponse p =>
    cases hs
    obtain ⟨-, hcrypto, hkey, -⟩ := s.conn.handleKMResponse_fields p
    exact ⟨⟨hcrypto ▸ h.1.crypto, hkey ▸ h.1.key⟩, h.2⟩

end

/-! ### Runs -/

/-- No keystream is reused. For a validated configuration with a refresh rate of at most `2 ^ 31`,
from any initial sequence number and any of the two keys, take any run of first transmissions,
retransmissions and key material responses in which the SEKs are fresh. Then no SEK encrypts more
than `KMRefreshRate` first transmissions, each switch goes to a key that was drawn in the period
before, no two first transmissions share a counter block under one SEK, and the payloads left under
the key streams of these blocks. -/
theorem no_reuse (prim : Primitives) (connConfig : SrtConnConfig) (given : Config)
    (hvalid : given.validate = .ok connConfig.config)
    (hpos : connConfig.config.kmRefreshRate ≠ 0)
    (hrate : connConfig.config.kmRefreshRate.toNat ≤ 2 ^ 31)
    (hcrypto : connConfig.crypto.isSome) (hkey : connConfig.keyBaseEncryption.IsSingle)
    (hnumber : connConfig.initialPacketSequenceNumber.IsSequenceNumber)
    (events : List Event) (s : Keystream)
    (hrun : run (step prim) (init (newSRTConn connConfig)) events = some s)
    (hfresh : s.seks.Nodup) :
    (∀ sek, s.encryptions.countP (·.sek == sek) ≤ connConfig.config.kmRefreshRate.toNat) ∧
    s.stale = false ∧
    s.encryptions.Pairwise Apart ∧
    ∀ e ∈ s.encryptions, e.Applied prim := by
  have hrekeys := Config.rekeys_of_validate hvalid hpos
  obtain ⟨crypto, hcrypto⟩ := Option.isSome_iff_exists.mp hcrypto
  have hstep : ∀ t e t', (t.seks.Nodup → Periodic connConfig.config t) → step prim t e = some t' →
      (t'.seks.Nodup → Periodic connConfig.config t') := by
    intro t e t' h hs hnodup
    exact (h (nodup_seks_of_step hs hnodup)).step hrekeys hrate hs hnodup
  obtain ⟨crypto', start, old, cur, hperiod, hlen⟩ :=
    run_induct (fun t => t.seks.Nodup → Periodic connConfig.config t) hstep
      (periodic_init hrekeys hcrypto hkey hnumber) hrun hfresh
  have hreuse := hperiod.noReuse (by omega) hrate
  rw [← hperiod.encryptions] at hreuse
  have happlied := run_induct (fun t => t.conn.Encrypted ∧ ∀ x ∈ t.encryptions, x.Applied prim)
    (fun _ _ _ h hs => applied_of_step h hs) ⟨⟨⟨crypto, hcrypto⟩, hkey⟩, nofun⟩ hrun
  exact ⟨hreuse.count, hperiod.stale, hreuse.apart, happlied.2⟩

/-- Three first transmissions and a retransmission with `KMRefreshRate = 2`: two draws and two
switches. -/
def sampleRun : List Event :=
  [.first (Sample.dataPacket 1) 0 (some Sample.newSEK),
   .again (Sender.retransmitted (Sample.dataPacket 1)) 1 none,
   .first (Sample.dataPacket 2) 2 (some (List.replicate 16 9)),
   .first (Sample.dataPacket 3) 3 none]

def sampleEnd : Keystream :=
  runD (step Sample.primitives) (init (newSRTConn (Sample.connConfig 2 1))) sampleRun

/-- The second key encrypts two packets, and no pair of key and number comes twice. -/
theorem no_reuse_sampleEnd :
    sampleEnd.encryptions.map (fun e => (e.sek, e.packetSequenceNumber))
      = [(some Sample.evenSEK, 1), (some Sample.newSEK, 2), (some Sample.newSEK, 3)] ∧
    sampleEnd.encryptions.Pairwise Apart := by
  refine ⟨by decide +kernel, ?_⟩
  exact (no_reuse Sample.primitives (Sample.connConfig 2 1) (Sample.config 2 1)
    (by decide +kernel) (by decide) (by decide) rfl (Or.inl rfl) (by decide) sampleRun sampleEnd
    (run_eq_some_runD (by decide +kernel)) (by decide +kernel)).2.2.1

end Keystream

end Gosrt
