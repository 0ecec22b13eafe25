import Gosrt.Proofs.Config
import Gosrt.Proofs.Connection
import Gosrt.Spec.Stream

/-!
# `Gosrt.Proofs.Rekey`: announcing and switching keys

A period of `KMRefreshRate` packets has three events. A new SEK is drawn for the other key
when `KMPreAnnounce` packets of the period have left. The other key is announced when
`KMPreAnnounce` packets are still to come. At the end of the period the connection switches
to it.

The draw comes before the announcement because the pre-announce time is at most half of the
period. When it is exactly half, both fall into the same packet, and the announcement comes
first: the announced SEK is never used (`keepsAnnounced_iff`).

A response to an announcement ends the announcing, also when it arrives before there was
one. `ResponseInTime` excludes such a response, and then every switch is announced
(`switchesAnnounced_of_responseInTime`).
-/

set_option autoImplicit false

namespace Gosrt

open Lib

/-- The receiver decodes what `MarshalKM` made. -/
theorem SrtConn.unmarshalKMCIF_kmRequest {prim : Primitives} {c : SrtConn} {crypto : Crypto}
    {key : PacketEncryption} {kek : Bytes} (hkey : key ≠ .unencryptedPacket)
    (hkek : Crypto.calculateKEK prim c.config.passphrase crypto.salt crypto.keyLength = some kek)
    (timestamp : UInt32) :
    unmarshalKMCIF (c.kmRequest prim crypto key timestamp)
      = .ok (crypto.marshalKM prim {} c.config.passphrase key).1 := by
  obtain ⟨wrap, hmarshal, hwf, -⟩ := crypto.marshalKM_spec prim hkey hkek
  show CIFKeyMaterialExtension.unmarshal {}
    (crypto.marshalKM prim {} c.config.passphrase key).1.marshalData = _
  have hround := CIFKeyMaterialExtension.unmarshal_marshalData hwf []
  rw [List.append_nil] at hround
  rw [hmarshal]
  exact hround

/-- The SEK that a key material request carries is the SEK of the key that it announces. -/
theorem carriedSEK_kmRequest {prim : Primitives} {c : SrtConn} {crypto : Crypto}
    {key : PacketEncryption} (hkey : key.IsSingle) (hkdf : prim.Derives c.config.passphrase)
    (timestamp : UInt32) :
    carriedSEK prim c.config.passphrase (c.kmRequest prim crypto key timestamp)
      = crypto.sek key := by
  obtain ⟨kek, hkek⟩ := hkdf (crypto.salt.drop 8) crypto.keyLength crypto.validKeyLength_keyLength
  have hne : key ≠ .unencryptedPacket := ((key.isSingle_iff).mp hkey).1
  have hplain : crypto.sek key = some (crypto.plainKeys key) := by
    rcases hkey with rfl | rfl
    · rfl
    · rfl
  obtain ⟨wrap, hmarshal, -, hunwrap⟩ := crypto.marshalKM_spec prim hne hkek
  -- The receiver derives the key with the length that the message states.
  have hkek' : Crypto.calculateKEK prim c.config.passphrase crypto.salt
      (UInt16.ofNat crypto.keyLength).toNat = some kek := by
    rw [crypto.toNat_ofNat_keyLength]
    exact hkek
  unfold carriedSEK
  rw [SrtConn.unmarshalKMCIF_kmRequest hne hkek timestamp, hmarshal, hplain]
  show (Crypto.calculateKEK prim c.config.passphrase crypto.salt
    (UInt16.ofNat crypto.keyLength).toNat).bind _ = _
  rw [hkek', Option.bind_some, hunwrap]
  rfl

namespace Rekey

section
variable {prim : Primitives} {s : Rekey} {crypto : Crypto} {p : Packet} {timestamp : UInt32}
  {random : Entropy}

/-- The announcements that one packet adds. -/
def announcements (prim : Primitives) (s : Rekey) (crypto : Crypto) (timestamp : UInt32) :
    List Announcement :=
  if s.conn.countDown.announces then
    [⟨s.conn.keyBaseEncryption.opposite,
      s.conn.kmRequest prim crypto s.conn.keyBaseEncryption.opposite timestamp⟩]
  else []

/-- What `pop` sends before its data packet. -/
theorem map_sent (hdata : p.header.isControlPacket = false)
    (hcrypto : s.conn.crypto = some crypto) :
    (s.conn.pop prim p timestamp random).2.2.dropLast.map
        (Announcement.mk s.conn.keyBaseEncryption.opposite)
      = s.announcements prim crypto timestamp := by
  rw [SrtConn.pop_data prim timestamp random hdata hcrypto, List.dropLast_concat]
  unfold announcements SrtConn.announce
  split
  · rfl
  · rfl

/-- The history in the middle of a period. -/
theorem pop_continued (hdata : p.header.isControlPacket = false)
    (hcrypto : s.conn.crypto = some crypto) (hr : s.conn.kmRefreshCountdown - 1 ≠ 0) :
    s.pop prim crypto p timestamp random =
      { s with
        conn := s.conn.continued crypto random
        announced := s.announced ++ s.announcements prim crypto timestamp
        firstSEK :=
          if s.firstSEK.isNone && !p.header.retransmittedPacketFlag then
            crypto.sek s.conn.keyBaseEncryption
          else s.firstSEK
        regenerated := s.regenerated ||
          (s.conn.countDown.regenerates &&
            (s.announced ++ s.announcements prim crypto timestamp).any
              (fun a => a.key == s.conn.keyBaseEncryption.opposite)) } := by
  have hsw : (s.conn.countDown.announce prim crypto timestamp).1.switches = false := by
    rw [SrtConn.switches_announce, beq_eq_false_iff_ne]
    exact hr
  -- The countdown is not at its end, so the keys are not switched.
  have hkeep : (s.conn.countDown.announce prim crypto timestamp).1.switchKeys
      = (s.conn.countDown.announce prim crypto timestamp).1 := by
    unfold SrtConn.switchKeys
    rw [hsw, if_neg Bool.false_ne_true]
  obtain ⟨hconfig, -, hkey, hrefresh, -⟩ :=
    SrtConn.announce_fields prim s.conn.countDown crypto timestamp
  unfold pop
  dsimp only
  rw [hsw, if_neg Bool.false_ne_true, SrtConn.pop_continued hdata hcrypto hr, hkeep,
    map_sent hdata hcrypto, SrtConn.flag_pop prim timestamp random hdata hcrypto]
  unfold SrtConn.regenerates
  rw [hkey, hconfig, hrefresh]
  rfl

/-- The history at the end of a period. -/
theorem pop_switched (hdata : p.header.isControlPacket = false)
    (hcrypto : s.conn.crypto = some crypto) (hr : s.conn.kmRefreshCountdown - 1 = 0) :
    s.pop prim crypto p timestamp random =
      { conn := s.conn.switched.regenerate crypto random
        announced := []
        previous := s.announced ++ s.announcements prim crypto timestamp
        firstSEK := none
        regenerated := s.regenerated
        unannounced := s.unannounced ||
          !(s.announced ++ s.announcements prim crypto timestamp).any
            (fun a => a.key == s.conn.keyBaseEncryption.opposite) } := by
  have hsw : (s.conn.countDown.announce prim crypto timestamp).1.switches = true := by
    rw [SrtConn.switches_announce, beq_iff_eq]
    exact hr
  unfold pop
  dsimp only
  rw [hsw, if_pos rfl, SrtConn.pop_switched hdata hcrypto hr, map_sent hdata hcrypto,
    (SrtConn.regenerate_fields s.conn.switched crypto random).2.1]
  rfl

/-- The three kinds of steps. -/
inductive StepCase (prim : Primitives) (s : Rekey) : Event → Rekey → Prop where
  | response (p : Packet) :
      StepCase prim s (.kmResponse p) { s with conn := (s.conn.handleKMResponse p).1 }
  | continued (p : Packet) (timestamp : UInt32) (random : Entropy) (crypto : Crypto)
      (hcrypto : s.conn.crypto = some crypto) (hmore : s.conn.left ≠ 1) :
      StepCase prim s (.pop p timestamp random)
        { s with
          conn := s.conn.continued crypto random
          announced := s.announced ++ s.announcements prim crypto timestamp
          firstSEK :=
            if s.firstSEK.isNone && !p.header.retransmittedPacketFlag then
              crypto.sek s.conn.keyBaseEncryption
            else s.firstSEK
          regenerated := s.regenerated ||
            (s.conn.countDown.regenerates &&
              (s.announced ++ s.announcements prim crypto timestamp).any
                (fun a => a.key == s.conn.keyBaseEncryption.opposite)) }
  | switched (p : Packet) (timestamp : UInt32) (random : Entropy) (crypto : Crypto)
      (hcrypto : s.conn.crypto = some crypto) (hlast : s.conn.left = 1) :
      StepCase prim s (.pop p timestamp random)
        { conn := s.conn.switched.regenerate crypto random
          announced := []
          previous := s.announced ++ s.announcements prim crypto timestamp
          firstSEK := none
          regenerated := s.regenerated
          unannounced := s.unannounced ||
            !(s.announced ++ s.announcements prim crypto timestamp).any
              (fun a => a.key == s.conn.keyBaseEncryption.opposite) }

/-- Every step is one of these cases. -/
theorem step_cases {s' : Rekey} {e : Event} (hs : step prim s e = some s') :
    StepCase prim s e s' := by
  cases e with
  | kmResponse p =>
    cases hs
    exact .response p
  | pop p timestamp random =>
    simp only [step] at hs
    split at hs
    · cases hs
    rename_i hctrl
    rw [Bool.not_eq_true] at hctrl
    obtain ⟨crypto, hcrypto, rfl⟩ := Option.map_eq_some_iff.mp hs
    by_cases hlast : s.conn.left = 1
    · rw [pop_switched hctrl hcrypto (sub_one_eq_zero_iff.mpr hlast)]
      exact .switched p timestamp random crypto hcrypto hlast
    · rw [pop_continued hctrl hcrypto (fun h => hlast (sub_one_eq_zero_iff.mp h))]
      exact .continued p timestamp random crypto hcrypto hlast

end

/-! ### The announced key is the one that is used -/

section
variable {prim : Primitives} {s s' : Rekey}

/-- The invariant of a connection whose draw comes before its announcement. -/
structure Consistent (prim : Primitives) (s : Rekey) : Prop where
  encrypted : s.conn.Encrypted
  timed : s.conn.Timed
  pos : 1 ≤ s.conn.config.kmPreAnnounce.toNat
  less : 2 * s.conn.config.kmPreAnnounce.toNat < steps s.conn.config.kmRefreshRate
  derives : prim.Derives s.conn.config.passphrase
  quiet : s.conn.config.kmPreAnnounce.toNat < s.conn.left → s.announced = []
  announced : ∀ a ∈ s.announced,
    carriedSEK prim s.conn.config.passphrase a.packet
      = s.conn.sek s.conn.keyBaseEncryption.opposite
  previous : ∀ a ∈ s.previous,
    carriedSEK prim s.conn.config.passphrase a.packet = s.conn.sek s.conn.keyBaseEncryption
  first : ∀ sek ∈ s.firstSEK, s.conn.sek s.conn.keyBaseEncryption = some sek
  regenerated : s.regenerated = false

theorem Consistent.keepsAnnounced (h : Consistent prim s) : s.KeepsAnnounced prim := by
  refine ⟨h.regenerated, ?_⟩
  intro a ha sek hsek
  rw [h.previous a ha]
  exact h.first sek hsek

theorem consistent_init {config : SrtConnConfig} (hpos : 1 ≤ config.config.kmPreAnnounce.toNat)
    (hless : 2 * config.config.kmPreAnnounce.toNat < steps config.config.kmRefreshRate)
    (hcrypto : config.crypto.isSome) (hkey : config.keyBaseEncryption.IsSingle)
    (hkdf : prim.Derives config.config.passphrase) :
    Consistent prim (init (newSRTConn config)) where
  encrypted := ⟨Option.isSome_iff_exists.mp hcrypto, hkey⟩
  timed := SrtConn.timed_newSRTConn (by omega)
  pos := hpos
  less := hless
  derives := hkdf
  quiet := fun _ => rfl
  announced := by
    intro a ha
    cases ha
  previous := by
    intro a ha
    cases ha
  first := by
    intro sek hsek
    cases hsek
  regenerated := rfl

/-- The announcements of a packet carry the SEK of the other key. -/
theorem Consistent.announcements (h : Consistent prim s) {crypto : Crypto}
    (hcrypto : s.conn.crypto = some crypto) (timestamp : UInt32) :
    ∀ a ∈ s.announced ++ s.announcements prim crypto timestamp,
      carriedSEK prim s.conn.config.passphrase a.packet
        = s.conn.sek s.conn.keyBaseEncryption.opposite := by
  intro a ha
  rcases List.mem_append.mp ha with ha | ha
  · exact h.announced a ha
  · unfold Rekey.announcements at ha
    split at ha
    · cases List.mem_singleton.mp ha
      unfold SrtConn.sek
      rw [hcrypto]
      exact carriedSEK_kmRequest h.encrypted.key.opposite h.derives timestamp
    · cases ha

/-- As long as more than the pre-announce time is left after a packet, nothing is announced. -/
theorem Consistent.announcements_eq_nil (h : Consistent prim s)
    (hearly : s.conn.config.kmPreAnnounce.toNat + 1 < s.conn.left)
    (crypto : Crypto) (timestamp : UInt32) :
    s.announced ++ s.announcements prim crypto timestamp = [] := by
  have hquiet : ¬s.conn.countDown.announces = true := by
    rw [h.timed.announces_iff (by omega)]
    omega
  rw [h.quiet (by omega)]
  unfold Rekey.announcements
  rw [if_neg hquiet]
  rfl

/-- Drawing the other key leaves the key in use alone. -/
theorem sek_continued {c : SrtConn} {crypto : Crypto} (h : c.Encrypted)
    (hcrypto : c.crypto = some crypto) (random : Entropy) :
    (c.continued crypto random).sek c.keyBaseEncryption = c.sek c.keyBaseEncryption := by
  unfold SrtConn.sek
  rw [hcrypto]
  show (if c.countDown.regenerates then crypto.generateSEK c.keyBaseEncryption.opposite random
    else crypto).sek c.keyBaseEncryption = crypto.sek c.keyBaseEncryption
  split
  · exact crypto.sek_generateSEK_of_ne random h.key.opposite_ne.symm
  · rfl

theorem sek_opposite_continued {c : SrtConn} {crypto : Crypto} (hcrypto : c.crypto = some crypto)
    (hquiet : c.countDown.regenerates = false) (random : Entropy) :
    (c.continued crypto random).sek c.keyBaseEncryption.opposite
      = c.sek c.keyBaseEncryption.opposite := by
  unfold SrtConn.sek SrtConn.continued
  rw [hcrypto, hquiet]
  rfl

/-- The draw comes when nothing is announced yet. -/
theorem Consistent.announcements_of_regenerates (h : Consistent prim s)
    (hmore : s.conn.left ≠ 1) (hdraw : s.conn.countDown.regenerates = true) (crypto : Crypto)
    (timestamp : UInt32) : s.announced ++ s.announcements prim crypto timestamp = [] := by
  have hless := h.less
  have hleft := (h.timed.regenerates_iff hmore).mp hdraw
  exact h.announcements_eq_nil (by omega) crypto timestamp

/-- A response keeps the invariant. -/
theorem Consistent.response (h : Consistent prim s) (p : Packet) :
    Consistent prim { s with conn := (s.conn.handleKMResponse p).1 } := by
  obtain ⟨hconfig, hcrypto, hkey, -, hrefresh⟩ := s.conn.handleKMResponse_fields p
  have hleft : (s.conn.handleKMResponse p).1.left = s.conn.left := congrArg steps hrefresh
  have hsek : ∀ key, (s.conn.handleKMResponse p).1.sek key = s.conn.sek key := by
    intro key
    unfold SrtConn.sek
    rw [hcrypto]
  constructor
  · exact ⟨by rw [hcrypto]; exact h.encrypted.crypto, by rw [hkey]; exact h.encrypted.key⟩
  · exact h.timed.handleKMResponse p
  · rw [hconfig]
    exact h.pos
  · rw [hconfig]
    exact h.less
  · rw [hconfig]
    exact h.derives
  · rw [hconfig, hleft]
    exact h.quiet
  · rw [hconfig, hkey, hsek]
    exact h.announced
  · rw [hconfig, hkey, hsek]
    exact h.previous
  · rw [hkey, hsek]
    exact h.first
  · exact h.regenerated

/-- A step keeps the invariant where the pre-announce time is less than half of the period. -/
theorem Consistent.step (h : Consistent prim s) {e : Event}
    (hs : Rekey.step prim s e = some s') : Consistent prim s' := by
  cases step_cases hs with
  | response p => exact h.response p
  | continued p timestamp random crypto hcrypto hmore =>
    have hann := h.announcements hcrypto timestamp
    have hdraw := fun hreg => h.announcements_of_regenerates hmore hreg crypto timestamp
    have hcur := sek_continued h.encrypted hcrypto random
    constructor
    · exact ⟨⟨_, rfl⟩, h.encrypted.key⟩
    · exact h.timed.continued hmore
    · exact h.pos
    · exact h.less
    · exact h.derives
    · rw [SrtConn.left_continued hmore]
      show s.conn.config.kmPreAnnounce.toNat < s.conn.left - 1 →
        s.announced ++ s.announcements prim crypto timestamp = []
      intro hearly
      exact h.announcements_eq_nil (by omega) crypto timestamp
    · intro a ha
      cases hreg : s.conn.countDown.regenerates with
      | true =>
        rw [hdraw hreg] at ha
        cases ha
      | false => exact (hann a ha).trans (sek_opposite_continued hcrypto hreg random).symm
    · intro a ha
      exact (h.previous a ha).trans hcur.symm
    · intro sek hsek
      refine hcur.trans ?_
      dsimp only at hsek
      split at hsek
      · unfold SrtConn.sek
        rw [hcrypto]
        exact hsek
      · exact h.first sek hsek
    · show (s.regenerated || (s.conn.countDown.regenerates && _)) = false
      rw [h.regenerated, Bool.false_or]
      cases hreg : s.conn.countDown.regenerates with
      | true =>
        rw [hdraw hreg]
        rfl
      | false => rfl
  | switched p timestamp random crypto hcrypto hlast =>
    have hann := h.announcements hcrypto timestamp
    have htimed := h.timed.switched crypto random
    -- No key is drawn at the switch, but `kmPreAnnounce` packets later.
    rw [h.timed.regenerate_switched h.pos] at htimed ⊢
    constructor
    · exact ⟨h.encrypted.crypto, h.encrypted.key.opposite⟩
    · exact htimed
    · exact h.pos
    · exact h.less
    · exact h.derives
    · intro _
      rfl
    · intro a ha
      cases ha
    · exact hann
    · intro sek hsek
      cases hsek
    · exact h.regenerated

/-- A packet of an encrypted connection can always leave. -/
theorem step_pop {crypto : Crypto} {p : Packet} (hdata : p.header.isControlPacket = false)
    (hcrypto : s.conn.crypto = some crypto) (timestamp : UInt32) (random : Entropy) :
    Rekey.step prim s (.pop p timestamp random)
      = some (s.pop prim crypto p timestamp random) := by
  simp only [Rekey.step]
  rw [hdata, if_neg Bool.false_ne_true, hcrypto]
  rfl

/-- Where the pre-announce time is half of the period, sending packets until the announcement
is due draws the key that was just announced. -/
theorem exists_regenerated (prim : Primitives) (n : Nat) (s : Rekey) (ht : s.conn.Timed)
    (hpos : 1 ≤ s.conn.config.kmPreAnnounce.toNat)
    (hhalf : 2 * s.conn.config.kmPreAnnounce.toNat = steps s.conn.config.kmRefreshRate)
    (hcrypto : s.conn.crypto.isSome) (hconf : s.conn.kmConfirmed = false)
    (hleft : s.conn.left = s.conn.config.kmPreAnnounce.toNat + 1 + n) :
    ∃ events s', run (Rekey.step prim) s events = some s' ∧ s'.regenerated = true := by
  -- By induction on the packets before the one that announces.
  induction n generalizing s with
  | zero =>
    obtain ⟨crypto, hcrypto⟩ := Option.isSome_iff_exists.mp hcrypto
    have hmore : s.conn.left ≠ 1 := by omega
    have hann : s.conn.countDown.announces = true :=
      (ht.announces_iff (by omega)).mpr ⟨by omega, hconf⟩
    have hreg : s.conn.countDown.regenerates = true :=
      (ht.regenerates_iff hmore).mpr (by omega)
    refine ⟨[.pop (newPacket none) 0 none], s.pop prim crypto (newPacket none) 0 none, ?_, ?_⟩
    · rw [run_cons, step_pop rfl hcrypto, Option.bind_some, run_nil]
    · rw [pop_continued rfl hcrypto (fun h => hmore (sub_one_eq_zero_iff.mp h))]
      show (s.regenerated || (s.conn.countDown.regenerates &&
        (s.announced ++ s.announcements prim crypto 0).any _)) = true
      unfold Rekey.announcements
      rw [hreg, hann]
      simp
  | succ n ih =>
    obtain ⟨crypto, hcrypto⟩ := Option.isSome_iff_exists.mp hcrypto
    have hmore : s.conn.left ≠ 1 := by omega
    obtain ⟨next, hstep, hconn⟩ : ∃ next,
        Rekey.step prim s (.pop (newPacket none) 0 none) = some next ∧
          next.conn = s.conn.continued crypto none := by
      refine ⟨_, step_pop rfl hcrypto 0 none, ?_⟩
      rw [pop_continued rfl hcrypto (fun h => hmore (sub_one_eq_zero_iff.mp h))]
    have hnext : next.conn.left = next.conn.config.kmPreAnnounce.toNat + 1 + n := by
      rw [hconn, SrtConn.left_continued hmore, hleft]
      rfl
    have hconfig : next.conn.config = s.conn.config := by
      rw [hconn]
      rfl
    obtain ⟨events, s', hrun, hend⟩ := ih next (by rw [hconn]; exact ht.continued hmore)
      (by rw [hconfig]; exact hpos) (by rw [hconfig]; exact hhalf) (by rw [hconn]; rfl)
      (by rw [hconn]; exact hconf) hnext
    refine ⟨.pop (newPacket none) 0 none :: events, s', ?_, hend⟩
    rw [run_cons, hstep]
    exact hrun

/-- An announced key is kept until the switch to it, in every run, exactly when the
pre-announce time is not half of the period. -/
theorem keepsAnnounced_iff (config : SrtConnConfig) (given : Config)
    (hvalid : given.validate = .ok config.config) (hrate : config.config.kmRefreshRate ≠ 0)
    (hcrypto : config.crypto.isSome) (hkey : config.keyBaseEncryption.IsSingle)
    (hkdf : prim.Derives config.config.passphrase) :
    (∀ events s, run (Rekey.step prim) (init (newSRTConn config)) events = some s →
        s.KeepsAnnounced prim) ↔
      2 * config.config.kmPreAnnounce.toNat ≠ config.config.kmRefreshRate.toNat := by
  have hrekeys := Config.rekeys_of_validate hvalid hrate
  have hpos := hrekeys.pos
  have hhalf := hrekeys.half
  have hsteps := steps_of_ne_zero hrate
  constructor
  · intro hall heq
    obtain ⟨events, s, hrun, hbad⟩ := exists_regenerated prim
      (config.config.kmPreAnnounce.toNat - 1) (init (newSRTConn config))
      (SrtConn.timed_newSRTConn (Config.kmPreAnnounce_lt_of_validate hvalid)) hpos
      (by rw [← heq] at hsteps; exact hsteps.symm) hcrypto rfl
      (show steps config.config.kmRefreshRate = config.config.kmPreAnnounce.toNat + 1
        + (config.config.kmPreAnnounce.toNat - 1) by omega)
    have hgood := (hall events s hrun).1
    rw [hbad] at hgood
    cases hgood
  · intro hne events s hrun
    have hinit := consistent_init hpos (by omega) hcrypto hkey hkdf
    exact (run_induct (Consistent prim) (fun _ _ _ h hs => h.step hs) hinit hrun).keepsAnnounced

end

/-- Packets that leave one after the other. A draw gives the new SEK. -/
def sampleEvents (n : Nat) : List Event :=
  (List.range n).map fun i =>
    .pop (Sample.dataPacket (UInt32.ofNat (i + 1))) (UInt32.ofNat i) (some Sample.newSEK)

/-- The state after these packets. -/
def sampleEnd (config : SrtConnConfig) (n : Nat) : Rekey :=
  runD (step Sample.primitives) (init (newSRTConn config)) (sampleEvents n)

/-- Four packets, with a switch after the third one. -/
theorem keepsAnnounced_sampleEnd :
    (Sample.config 3 1).validate = .ok (Sample.config 3 1) ∧
      (sampleEnd (Sample.connConfig 3 1) 4).previous ≠ [] ∧
      (sampleEnd (Sample.connConfig 3 1) 4).firstSEK = some Sample.newSEK ∧
      (sampleEnd (Sample.connConfig 3 1) 4).KeepsAnnounced Sample.primitives :=
  ⟨by decide +kernel, by decide +kernel, by decide +kernel,
    (keepsAnnounced_iff (Sample.connConfig 3 1) (Sample.config 3 1) (by decide +kernel)
      (by decide) rfl (Or.inl rfl) (fun _ _ _ => ⟨_, rfl⟩)).mpr (by decide)
      (sampleEvents 4) _ (run_eq_some_runD (by decide +kernel))⟩

/-- Where the pre-announce time is half of the period, the first announcement carries the odd
SEK, and the first packet after the switch is encrypted with the one drawn after it. -/
theorem not_keepsAnnounced_sampleEnd :
    (Sample.config 2 1).validate = .ok (Sample.config 2 1) ∧
      run (step Sample.primitives) (init (newSRTConn (Sample.connConfig 2 1))) (sampleEvents 3)
        = some (sampleEnd (Sample.connConfig 2 1) 3) ∧
      (sampleEnd (Sample.connConfig 2 1) 3).previous.map
          (fun a => carriedSEK Sample.primitives Sample.passphrase a.packet)
        = [some Sample.oddSEK, some Sample.newSEK] ∧
      (sampleEnd (Sample.connConfig 2 1) 3).firstSEK = some Sample.newSEK ∧
      ¬(sampleEnd (Sample.connConfig 2 1) 3).KeepsAnnounced Sample.primitives :=
  ⟨by decide +kernel, run_eq_some_runD (by decide +kernel), by decide +kernel⟩

/-! ### Every switch is announced -/

section
variable {prim : Primitives} {s s' : Rekey}

/-- The invariant of a run without early responses: the peer has not confirmed before the
announcement was due, and after that the other key is announced. -/
structure Announcing (s : Rekey) : Prop where
  timed : s.conn.Timed
  unconfirmed : s.conn.config.kmPreAnnounce.toNat < s.conn.left → s.conn.kmConfirmed = false
  announced : s.conn.left ≤ s.conn.config.kmPreAnnounce.toNat →
    s.announced.any (fun a => a.key == s.conn.keyBaseEncryption.opposite) = true
  switches : s.SwitchesAnnounced

theorem announcing_init {config : SrtConnConfig}
    (hpaced : config.config.kmPreAnnounce.toNat < steps config.config.kmRefreshRate) :
    Announcing (init (newSRTConn config)) where
  timed := SrtConn.timed_newSRTConn hpaced
  unconfirmed := fun _ => rfl
  announced := by
    intro hle
    change steps config.config.kmRefreshRate ≤ config.config.kmPreAnnounce.toNat at hle
    omega
  switches := rfl

/-- The packet with which the announcement is due announces the other key. -/
theorem Announcing.any_announcements (h : s.Announcing)
    (hdue : s.conn.left ≤ s.conn.config.kmPreAnnounce.toNat + 1) (crypto : Crypto)
    (timestamp : UInt32) :
    (s.announced ++ s.announcements prim crypto timestamp).any
      (fun a => a.key == s.conn.keyBaseEncryption.opposite) = true := by
  rw [List.any_append, Bool.or_eq_true]
  by_cases hle : s.conn.left ≤ s.conn.config.kmPreAnnounce.toNat
  · exact Or.inl (h.announced hle)
  · have hann : s.conn.countDown.announces = true :=
      (h.timed.announces_iff (by omega)).mpr ⟨by omega, h.unconfirmed (by omega)⟩
    right
    unfold announcements
    rw [if_pos hann]
    simp

/-- A response in time keeps the invariant. -/
theorem Announcing.response (h : s.Announcing) {p : Packet}
    (hC : ResponseInTime s (.kmResponse p)) :
    Announcing { s with conn := (s.conn.handleKMResponse p).1 } := by
  obtain ⟨hconfig, -, hkey, -, hrefresh⟩ := s.conn.handleKMResponse_fields p
  have hleft : (s.conn.handleKMResponse p).1.left = s.conn.left := congrArg steps hrefresh
  constructor
  · exact h.timed.handleKMResponse p
  · rw [hconfig, hleft]
    intro hearly
    show (s.conn.handleKMResponse p).1.kmConfirmed = false
    rcases s.conn.kmConfirmed_handleKMResponse p with hsame | ⟨hdecodes, hpre⟩
    · rw [hsame]
      exact h.unconfirmed hearly
    · rcases hC hdecodes with hge | ⟨hne, hle⟩
      · exact absurd hge hpre
      · have hle' := UInt64.le_iff_toNat_le.mp hle
        rw [← steps_of_ne_zero hne] at hle'
        exact absurd hearly (Nat.not_lt.mpr hle')
  · rw [hconfig, hleft, hkey]
    exact h.announced
  · exact h.switches

/-- Every step with responses in time keeps it. -/
theorem Announcing.step (h : s.Announcing) {e : Event} (hC : ResponseInTime s e)
    (hs : Rekey.step prim s e = some s') : s'.Announcing := by
  have hpaced := h.timed.paced
  cases step_cases hs with
  | response p => exact h.response hC
  | continued p timestamp random crypto hcrypto hmore =>
    constructor
    · exact h.timed.continued hmore
    · rw [SrtConn.left_continued hmore]
      show s.conn.config.kmPreAnnounce.toNat < s.conn.left - 1 → s.conn.kmConfirmed = false
      intro hearly
      exact h.unconfirmed (by omega)
    · rw [SrtConn.left_continued hmore]
      show s.conn.left - 1 ≤ s.conn.config.kmPreAnnounce.toNat → _
      intro hdue
      exact h.any_announcements (by omega) crypto timestamp
    · exact h.switches
  | switched p timestamp random crypto hcrypto hlast =>
    obtain ⟨hconfig, -, -, hrefresh, hconf⟩ :=
      SrtConn.regenerate_fields s.conn.switched crypto random
    have hleft : (s.conn.switched.regenerate crypto random).left
        = steps s.conn.config.kmRefreshRate := congrArg steps hrefresh
    constructor
    · exact h.timed.switched crypto random
    · intro _
      exact hconf
    -- A new period starts before its announcement is due.
    · rw [hconfig, hleft]
      intro hle
      exact absurd hpaced (Nat.not_lt.mpr hle)
    · show (s.unannounced || !_) = false
      rw [h.any_announcements (by omega) crypto timestamp]
      exact (Bool.or_false _).trans h.switches

/-- Every switch of a run is to an announced key if no response comes before the first
announcement of its period, inside the window in which it is taken for a confirmation. -/
theorem switchesAnnounced_of_responseInTime (prim : Primitives) (config : SrtConnConfig)
    (given : Config) (hvalid : given.validate = .ok config.config) (events : List Event)
    (hC : RunMeets (Rekey.step prim) ResponseInTime (init (newSRTConn config)) events)
    (hrun : run (Rekey.step prim) (init (newSRTConn config)) events = some s) :
    s.SwitchesAnnounced :=
  (run_induct_of Announcing (fun _ _ _ hC h hs => h.step hC hs) hC
    (announcing_init (Config.kmPreAnnounce_lt_of_validate hvalid)) hrun).switches

end

/-- A response to key material for the even key. -/
def sampleResponse : Packet :=
  let p := (newSRTConn (Sample.connConfig 4 2)).kmRequest Sample.primitives Sample.crypto
    .evenKeyEncrypted 0
  { p with header := { p.header with subType := CtrlSubType.kmrsp } }

/-- A period of four packets with a response after the first `n`. -/
def responseEvents (n : Nat) : List Event :=
  (sampleEvents 4).take n ++ .kmResponse sampleResponse :: (sampleEvents 4).drop n

def responseEnd (n : Nat) : Rekey :=
  runD (step Sample.primitives) (init (newSRTConn (Sample.connConfig 4 2))) (responseEvents n)

/-- The second packet announces the odd key, and the response comes after it. -/
theorem switchesAnnounced_responseEnd :
    (Sample.config 4 2).validate = .ok (Sample.config 4 2) ∧
      (responseEnd 2).conn.keyBaseEncryption = .oddKeyEncrypted ∧
      (responseEnd 2).SwitchesAnnounced :=
  ⟨by decide +kernel, by decide +kernel,
    switchesAnnounced_of_responseInTime Sample.primitives (Sample.connConfig 4 2)
      (Sample.config 4 2) (by decide +kernel) (responseEvents 2) (by decide +kernel)
      (run_eq_some_runD (by decide +kernel))⟩

/-- A response after the first packet: the connection switches to the odd key, and there was
no announcement. -/
theorem not_switchesAnnounced_responseEnd :
    (Sample.config 4 2).validate = .ok (Sample.config 4 2) ∧
      run (step Sample.primitives) (init (newSRTConn (Sample.connConfig 4 2))) (responseEvents 1)
        = some (responseEnd 1) ∧
      (responseEnd 1).conn.keyBaseEncryption = .oddKeyEncrypted ∧
      (responseEnd 1).conn.pktSentKM = 0 ∧
      (responseEnd 1).previous = [] ∧
      ¬(responseEnd 1).SwitchesAnnounced :=
  ⟨by decide +kernel, run_eq_some_runD (by decide +kernel), by decide +kernel⟩

end Rekey

end Gosrt
