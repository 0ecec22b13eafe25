import Gosrt.Proofs.Endpoint.Handle
import Gosrt.Proofs.Session
import Gosrt.Spec.Duplex

/-!
# `Gosrt.Proofs.Duplex`: what holds across two connections

`Sound t` ties an end to the other one: it keeps its `Local` invariant with what it sees of the
other end, and all that it sent are its datagrams. Any step of one end keeps this in both roles
(`keeps`), since what the other end sees of it only grows.

The invariant needs the limits of both ends. They are bounds on numbers that only grow, so the
limits at the end of a run hold in each state on the way.

The results: `reads_enqueued` follows the bytes from `Write` at one end to `Read` at the other, and
`freed_accounted` says that the sender forgets a packet only if the other end has received it or
given it up.
-/

set_option autoImplicit false

namespace Gosrt

open Lib Number

open Link (IsPushed)

namespace Duplex

/-- The end `x`, with what it sent. -/
def Sound (t : Terms) (x y : Endpoint) (sent _received : List Bytes) : Prop :=
  x.Bounded t x.conn.config → y.Bounded t y.conn.config →
    x.Local t x.conn.config (t.peer y) ∧ ∀ m ∈ sent, x.Emits t x.conn.config m

section
variable {t : Terms} {sort : SortSlice} {x x' y : Endpoint} {sent received out : List Bytes}

/-- A move of one end. -/
theorem Sound.moves (hx : Sound t x y sent received) (hy : Sound t y x received sent)
    (hgrows : x.Grows x')
    (hmoves : x.Local t x.conn.config (t.peer y) → Window t.base (t.peer y).pushed.length →
      x'.Bounded t x.conn.config → (∀ m ∈ received, y.Emits t y.conn.config m) →
      Endpoint.Moves t x.conn.config (t.peer y) x x' out) :
    Sound t x' y (sent ++ out) received ∧ Sound t y x' received (sent ++ out) := by
  have hconfig := hgrows.same.config
  -- Under the limits the end has made a move, whichever side the limits are asked for.
  have hmoved : x'.Bounded t x'.conn.config → y.Bounded t y.conn.config →
      Endpoint.Moves t x.conn.config (t.peer y) x x' out ∧
        (∀ m ∈ sent, x.Emits t x.conn.config m) ∧ y.Local t y.conn.config (t.peer x) ∧
        ∀ m ∈ received, y.Emits t y.conn.config m := by
    intro hbx hby
    rw [hconfig] at hbx
    have hbefore := hbx.of_grows hgrows
    obtain ⟨hlocal, hsent⟩ := hx hbefore hby
    obtain ⟨hother, hreceived⟩ := hy hby hbefore
    exact ⟨hmoves hlocal (window_of_isSequenceNumber t.isNumber hby.pushed) hbx hreceived, hsent,
      hother, hreceived⟩
  constructor
  · intro hbx hby
    obtain ⟨hmove, hsent, -, -⟩ := hmoved hbx hby
    rw [hconfig]
    exact ⟨hmove.inv, fun m hm => (List.mem_append.mp hm).elim
      (fun hm => (hsent m hm).mono hgrows hmove.forward) (hmove.wire m)⟩
  · intro hby hbx
    obtain ⟨hmove, -, hother, hreceived⟩ := hmoved hbx hby
    exact ⟨hother.mono hconfig hgrows.pushed hmove.forward hmove.inv.acked_le_pushed, hreceived⟩

/-- A step of one end keeps the invariant in both roles. -/
theorem keeps (t : Terms) (sort : SortSlice) :
    Pair.Keeps (Endpoint.party t.prim sort) (Sound t) where
  act := by
    intro x y sent received e out hx hy hact
    exact hx.moves hy (Endpoint.act_steady hact).toGrows fun hlocal hwindow hbounded _ =>
      Endpoint.act_moves hlocal hwindow hact hbounded
  receive := by
    intro x y sent received m toQueue out hx hy hm hreceive
    cases hreceive
    refine hx.moves hy (x.receive_steady m toQueue).toGrows fun hlocal _ _ hreceived => ?_
    obtain ⟨p, hmarshal, hdatagram⟩ := hreceived m hm
    exact Endpoint.receive_moves hlocal hmarshal hdatagram toQueue

/-! ### The start -/

/-- The cipher of a connection. -/
def cipher (config : SrtConnConfig) : Option Cipher :=
  config.crypto.bind fun crypto => (crypto.sek config.keyBaseEncryption).map fun sek =>
    ⟨config.keyBaseEncryption, crypto.salt, sek⟩

/-- Matching keys are one cipher. -/
theorem KeysMatch.cipher_eq {a b : SrtConnConfig} (h : KeysMatch a b) : cipher b = cipher a := by
  unfold KeysMatch at h
  unfold cipher
  split at h
  · rename_i ha hb
    rw [ha, hb]
    rfl
  · rename_i c d ha hb
    obtain ⟨hkey, hsalt, hsek, -⟩ := h
    rw [ha, hb, ← hkey]
    show (d.sek a.keyBaseEncryption).map _ = (c.sek a.keyBaseEncryption).map _
    rw [hsek, hsalt]
  · exact h.elim

/-- Only the even and the odd key have an SEK. -/
theorem isSingle_of_sek {c : Crypto} {key : PacketEncryption} (h : c.sek key ≠ none) :
    key.IsSingle := by
  cases key with
  | evenKeyEncrypted => exact Or.inl rfl
  | oddKeyEncrypted => exact Or.inr rfl
  | unencryptedPacket => exact absurd rfl h
  | evenAndOddKey => exact absurd rfl h

/-- A new connection uses its cipher. -/
theorem uses_newSRTConn {config : SrtConnConfig}
    (hkey : ∀ c, config.crypto = some c → c.sek config.keyBaseEncryption ≠ none)
    (hearly : SrtConn.Early (cipher config) config.config 0) :
    (newSRTConn config).Uses (cipher config) 0 := by
  cases hcrypto : config.crypto with
  | none =>
    unfold cipher
    rw [hcrypto]
    exact hcrypto
  | some crypto =>
    have hsome := hkey crypto hcrypto
    cases hsek : crypto.sek config.keyBaseEncryption with
    | none => exact absurd hsek hsome
    | some sek =>
      have hcipher : cipher config = some ⟨config.keyBaseEncryption, crypto.salt, sek⟩ := by
        unfold cipher
        rw [hcrypto]
        show (crypto.sek config.keyBaseEncryption).map _ = _
        rw [hsek]
        rfl
      rw [hcipher] at hearly ⊢
      have hpaced := hearly _ rfl
      rw [Nat.zero_add] at hpaced
      exact ⟨isSingle_of_sek hsome, ⟨crypto, hcrypto, rfl, hsek⟩, rfl,
        SrtConn.timed_newSRTConn hpaced, rfl⟩

/-- The terms of two connections. -/
def Matched.terms {a b : SrtConnConfig} {readA readB : Nat} (h : Matched a b readA readB)
    (prim : Primitives) : Terms where
  prim := prim
  base := a.initialPacketSequenceNumber.dec
  cipher := cipher a
  isNumber := h.isNumber.dec

theorem offset_base {b : Number} (h : b.Wf) : b.offset b = 0 := by
  have hzero := offset_plus h (Nat.zero_le _)
  rwa [plus_zero h] at hzero

/-- A new end has acknowledged nothing. -/
theorem acked_init {t : Terms} {config : SrtConnConfig}
    (hbase : t.base = config.initialPacketSequenceNumber.dec) (readSize : Nat) :
    (Endpoint.init config readSize).acked t = 0 := by
  unfold Endpoint.acked
  rw [show (Endpoint.init config readSize).recv.lastACKSequenceNumber
    = config.initialPacketSequenceNumber.dec from rfl, ← hbase]
  exact offset_base t.isNumber.wf

/-- An end before anything happened. -/
theorem local_init {t : Terms} {config : SrtConnConfig} {readSize : Nat} {y : Endpoint}
    (hversion : config.version = 5)
    (hbase : t.base = config.initialPacketSequenceNumber.dec)
    (hwf : config.initialPacketSequenceNumber.Wf)
    (huses : (newSRTConn config).Uses t.cipher 0)
    (hfits : writeDataLength 5 y.conn.config + 16 ≤ readSize) (hroom : 44 ≤ readSize)
    (hacked : y.acked t = 0) :
    (Endpoint.init config readSize).Local t config.config (t.peer y) := by
  have hrequests : (Endpoint.init config readSize).hsRequests = .unset ∧
      (Endpoint.init config readSize).kmRequests = .unset := by
    have hnot : ¬config.version = 4 := by
      rw [hversion]
      decide
    exact ⟨if_neg fun h => hnot h.1, if_neg fun h => hnot h.1⟩
  have hzero := acked_init hbase readSize
  have hnil : ∀ {P : Packet → Prop}, ∀ p ∈ ([] : List Packet), P p := fun p hp => by cases hp
  exact
    { version := hversion
      configured := rfl
      hsRequests := hrequests.1
      kmRequests := hrequests.2
      fits := hfits
      room := hroom
      sends :=
        { uses := huses
          enqueued := rfl
          fresh := hnil
          next := by
            rw [hbase]
            exact (dec_plus_one hwf).symm
          queued := hnil
          stored := hnil }
      receives :=
        { network := hnil
          ordered := by
            rw [hbase]
            exact Receiver.ordered_newReceiver
              { initialSequenceNumber := config.initialPacketSequenceNumber
                periodicACKInterval := 10000
                periodicNAKInterval := 20000 } hwf _
          buffer := hnil
          delivered := hnil
          increasing := List.Pairwise.nil
          reading := ⟨[], List.nil_sublist _, .slnil, [], .slnil, rfl⟩
          accounted := by
            rw [hzero]
            intro i hpos hle
            omega
          freed := hnil }
      acked_le := by
        show y.acked t ≤ 0
        rw [hacked] }

/-- One end at the start, with the other one. -/
theorem sound_endpoint {t : Terms} {a b : SrtConnConfig} {readA readB : Nat}
    (hversion : a.version = 5) (hbaseA : t.base = a.initialPacketSequenceNumber.dec)
    (hbaseB : t.base = b.initialPacketSequenceNumber.dec)
    (hwf : a.initialPacketSequenceNumber.Wf) (hcipher : t.cipher = cipher a)
    (hkey : ∀ c, a.crypto = some c → c.sek a.keyBaseEncryption ≠ none)
    (hfits : b.config.payloadSize.toNat + 16 ≤ readA) (hroom : 44 ≤ readA) :
    Sound t (Endpoint.init a readA) (Endpoint.init b readB) [] [] := by
  intro hbounded _
  refine ⟨local_init hversion hbaseA hwf ?_ hfits hroom (acked_init hbaseB readB),
    fun m hm => by cases hm⟩
  rw [hcipher]
  exact uses_newSRTConn hkey (hcipher ▸ hbounded.early)

/-- A connection with matching keys has an SEK for the key in use. -/
theorem KeysMatch.sek_ne_none {a b : SrtConnConfig} (h : KeysMatch a b) :
    (∀ c, a.crypto = some c → c.sek a.keyBaseEncryption ≠ none) ∧
      ∀ c, b.crypto = some c → c.sek b.keyBaseEncryption ≠ none := by
  unfold KeysMatch at h
  split at h
  · rename_i ha hb
    rw [ha, hb]
    exact ⟨fun c hc => (by cases hc), fun c hc => (by cases hc)⟩
  · rename_i c d ha hb
    obtain ⟨hkey, -, hsek, hsome⟩ := h
    rw [ha, hb, ← hkey]
    constructor
    · intro c' hc
      cases hc
      exact hsome
    · intro d' hd
      cases hd
      rw [← hsek]
      exact hsome
  · exact h.elim

section
variable {a b : SrtConnConfig} {readA readB : Nat} {prim : Primitives} {s : Duplex}
  {events : List Event}

/-- The invariant at the start. -/
theorem sound_init (h : Matched a b readA readB) (prim : Primitives) :
    Pair.Both (Sound (h.terms prim)) (init a b readA readB) := by
  obtain ⟨hkeyA, hkeyB⟩ := h.keys.sek_ne_none
  have hbase : (h.terms prim).base = b.initialPacketSequenceNumber.dec := by
    rw [h.sequenceNumber]
    rfl
  have hwf : b.initialPacketSequenceNumber.Wf := by
    rw [h.sequenceNumber]
    exact h.isNumber.wf
  exact ⟨sound_endpoint h.version.1 rfl hbase h.isNumber.wf rfl hkeyA h.fits.2 h.room.1,
    sound_endpoint h.version.2 hbase rfl hwf h.keys.cipher_eq.symm hkeyB h.fits.1 h.room.2⟩

/-- What every step keeps is kept by a run. -/
theorem run_steady (h : run (step prim sort) (init a b readA readB) events = some s) :
    (Endpoint.init a readA).Steady s.left ∧ (Endpoint.init b readB).Steady s.right := by
  have hmoves : Pair.Moves (Endpoint.party prim sort) Endpoint.Steady :=
    { refl := .refl
      trans := .trans
      act := Endpoint.act_steady
      receive := fun {x m toQueue out} hout => by
        cases hout
        exact x.receive_steady m toQueue }
  exact Pair.run_moves hmoves h

/-- The configurations are those of the start. -/
theorem run_config (h : run (step prim sort) (init a b readA readB) events = some s) :
    s.left.conn.config = a.config ∧ s.right.conn.config = b.config :=
  ⟨(run_steady h).1.same.config, (run_steady h).2.same.config⟩

/-- The limit of an encrypted connection is the limit of its cipher. -/
theorem early_of_limit {config : SrtConnConfig} {popped : Nat}
    (h : config.crypto ≠ none →
      popped + config.config.kmPreAnnounce.toNat < steps config.config.kmRefreshRate) :
    SrtConn.Early (cipher config) config.config popped := by
  intro k hk
  refine h fun hnone => ?_
  unfold cipher at hk
  rw [hnone] at hk
  cases hk

/-- The limits are the bounds of the invariant. -/
theorem WithinLimits.bounded {t : Terms} {config : SrtConnConfig} {x : Endpoint}
    (h : WithinLimits config x) (hcipher : t.cipher = cipher config) :
    x.Bounded t config.config := by
  refine ⟨h.pushed, ?_⟩
  rw [hcipher]
  exact early_of_limit h.popped

/-- Both ends are sound in every state within the limits. -/
theorem run_sound (h : Matched a b readA readB)
    (hrun : run (step prim sort) (init a b readA readB) events = some s)
    (hleft : WithinLimits a s.left) (hright : WithinLimits b s.right) :
    s.left.Local (h.terms prim) a.config ((h.terms prim).peer s.right) ∧
      s.right.Local (h.terms prim) b.config ((h.terms prim).peer s.left) := by
  obtain ⟨hconfigA, hconfigB⟩ := run_config hrun
  have hboundA := hleft.bounded (t := h.terms prim) rfl
  have hboundB := hright.bounded (t := h.terms prim) h.keys.cipher_eq.symm
  obtain ⟨hsoundA, hsoundB⟩ :=
    Pair.run_both (keeps (h.terms prim) sort) (sound_init h prim) hrun
  have hA := (hsoundA (hconfigA ▸ hboundA) (hconfigB ▸ hboundB)).1
  have hB := (hsoundB (hconfigB ▸ hboundB) (hconfigA ▸ hboundA)).1
  rw [hconfigA] at hA
  rw [hconfigB] at hB
  exact ⟨hA, hB⟩

/-! ### From `Write` to `Read` -/

/-- What an end delivered are packets that the other one pushed, in order. -/
theorem delivered_sublist {t : Terms} {config : Config} {x y : Endpoint}
    (h : x.Local t config (t.peer y)) (hlen : y.history.pushed.length < 2 ^ 30 - 1) :
    (x.history.delivered.map Packet.payload).Sublist (y.history.pushed.map Packet.payload) := by
  have hw : Window t.base y.history.pushed.length := window_of_isSequenceNumber t.isNumber hlen
  have hmax := hw.lt_max
  -- The place of a delivered packet among the pushed ones is its offset, less one.
  refine Link.sublist_of_increasing_index Packet.payload (fun p => t.base.offset p.seq - 1) _ _
    ?_ ?_
  · intro p hp
    obtain ⟨k, q, hq, hl⟩ := (h.receives.delivered p hp).1
    have hk := (List.getElem?_eq_some_iff.mp hq).1
    have hseq : p.seq = t.base.plus (k + 1) := congrArg Prod.fst hl
    have hpayload : p.payload = q.payload := congrArg Prod.snd hl
    have hk' : k < y.history.pushed.length := hk
    show (y.history.pushed.map Packet.payload)[t.base.offset p.seq - 1]? = some p.payload
    rw [hseq, offset_plus hw.wf (by omega), Nat.add_sub_cancel, List.getElem?_map, hpayload]
    exact congrArg (Option.map Packet.payload) hq
  · refine h.receives.increasing.imp_of_mem ?_
    intro p q hp hq hlt
    have hpos := ((h.receives.delivered p hp).1.inWindow hw).2
    omega

/-- What one end reads comes from the other one. -/
theorem reads_of_local {t : Terms} {config config' : Config} {x y : Endpoint}
    (h : x.Local t config (t.peer y)) (h' : y.Local t config' (t.peer x))
    (hlen : y.history.pushed.length < 2 ^ 30 - 1) : Reads x y := by
  obtain ⟨taken, hsub, hpackets, kept, hkept, hbytes⟩ := h.receives.reading
  have hpushed : y.history.pushed.Sublist y.history.enqueued := by
    rw [h'.sends.enqueued]
    exact List.sublist_append_left _ _
  have htaken : (taken.map Packet.payload).Sublist (y.history.enqueued.map Packet.payload) :=
    (((List.sublist_append_left _ _).trans hsub).map Packet.payload).trans
      ((delivered_sublist h hlen).trans (hpushed.map Packet.payload))
  refine ⟨?_, (hpackets.map Packet.payload).trans htaken⟩
  obtain ⟨ps, hps, heq⟩ := List.sublist_map_iff.mp ((hkept.map Packet.payload).trans htaken)
  refine ⟨ps, hps, ?_⟩
  rw [hbytes]
  unfold Reading.payloads
  rw [heq]

/-- In every run of two matching connections within their limits, whatever the network does to the
datagrams and whenever the ends close: the bytes that `Read` gives at either end, and the packets
that `ReadPacket` gives, are the payloads of a subsequence of the packets that `Write` queued at the
other end. Nothing comes twice, out of order or changed. -/
theorem reads_enqueued (prim : Primitives) (sort : SortSlice) (a b : SrtConnConfig)
    (readA readB : Nat) (events : List Event) (s : Duplex) (h : Matched a b readA readB)
    (hrun : run (step prim sort) (init a b readA readB) events = some s)
    (hleft : WithinLimits a s.left) (hright : WithinLimits b s.right) :
    Reads s.left s.right ∧ Reads s.right s.left := by
  obtain ⟨hA, hB⟩ := run_sound h hrun hleft hright
  exact ⟨reads_of_local hA hB hright.pushed, reads_of_local hB hA hleft.pushed⟩

/-- A caller and its listener, with one key. -/
def sampleCaller : SrtConnConfig := Sample.connConfig 100 2

def sampleListener : SrtConnConfig :=
  { sampleCaller with
    isCaller := false
    localAddr := sampleCaller.remoteAddr
    remoteAddr := sampleCaller.localAddr
    socketId := sampleCaller.peerSocketId
    peerSocketId := sampleCaller.socketId }

/-- The two connections belong together. -/
theorem sample_matched : Matched sampleCaller sampleListener 1500 1500 := by decide

def sampleInputs : Endpoint.Inputs := ⟨Sample.inputs, 20000, []⟩

/-- The caller writes two packets. The first one is lost, the second one comes twice, and the NAK
brings the first one. Then the listener acknowledges both and its application reads them. -/
def sampleEvents : List Event :=
  [.act .left (.write (.write [1, 2, 3] [⟨100, true⟩])),
    .act .left (.write (.write [4, 5] [⟨200, true⟩])),
    .act .left .sendQueued, .act .left .sendQueued,
    .act .left (.sndTickDeliver 300 []),
    .receive .right 1 true, .act .right (.handle sampleInputs),
    .receive .right 1 true, .act .right (.handle sampleInputs),
    .receive .left 0 true, .act .left (.handle sampleInputs),
    .receive .right 2 true, .act .right (.handle sampleInputs),
    .act .right (.recvTickACK 20000 default 400 0),
    .receive .left 1 true, .act .left (.handle sampleInputs),
    .act .right (.recvTickDeliver 500000 []),
    .act .right (.read 10 true), .act .right (.read 10 true),
    .act .right (.close 600)]

def sampleEnd : Duplex :=
  runD (step Sample.primitives SortSlice.insertion) (init sampleCaller sampleListener 1500 1500)
    sampleEvents

/-- All of these events can happen. -/
theorem sample_run :
    run (step Sample.primitives SortSlice.insertion)
      (init sampleCaller sampleListener 1500 1500) sampleEvents = some sampleEnd :=
  run_eq_some_runD (by decide +kernel)

/-- The run is far from the limits of both connections. -/
theorem sample_withinLimits :
    WithinLimits sampleCaller sampleEnd.left ∧ WithinLimits sampleListener sampleEnd.right := by
  decide +kernel

/-- The listener reads all five bytes in the order in which they were written, although the first
packet was lost and the second one came twice. -/
theorem reads_enqueued_lost :
    sampleEnd.right.history.returned = [1, 2, 3, 4, 5] ∧
      Reads sampleEnd.left sampleEnd.right ∧ Reads sampleEnd.right sampleEnd.left :=
  ⟨by decide +kernel, reads_enqueued Sample.primitives SortSlice.insertion sampleCaller
    sampleListener 1500 1500 sampleEvents sampleEnd sample_matched sample_run
    sample_withinLimits.1 sample_withinLimits.2⟩

/-- A packet that one end freed is acknowledged by the other one. -/
theorem freed_of_local {t : Terms} {config config' : Config} {x y : Endpoint}
    (h : x.Local t config (t.peer y)) (h' : y.Local t config' (t.peer x))
    (hlen : x.history.pushed.length < 2 ^ 30 - 1) :
    ∀ p ∈ x.history.freed, p.seq.lte y.recv.lastACKSequenceNumber = true ∧
      y.Accounted p.seq := by
  intro p hp
  have hw : Window t.base x.history.pushed.length := window_of_isSequenceNumber t.isNumber hlen
  have hnarrow := hw.narrow
  obtain ⟨i, hpos, hle, hseq⟩ := h.receives.freed p hp
  change i ≤ t.base.offset y.recv.lastACKSequenceNumber at hle
  have hack : t.base.InWindow x.history.pushed.length y.recv.lastACKSequenceNumber :=
    h'.receives.ordered.lastACK
  have hoff : t.base.offset y.recv.lastACKSequenceNumber ≤ x.history.pushed.length := hack.2
  rw [hseq]
  refine ⟨?_, h'.receives.accounted i hpos hle⟩
  rw [hack.1, plus_lte_plus hw.wf (by omega) (by omega)]
  exact decide_eq_true hle

/-- In every run of two matching connections within their limits, a packet that an ACK removed from
the sender of one end is acknowledged at the other end, and there it was received or given up. -/
theorem freed_accounted (prim : Primitives) (sort : SortSlice) (a b : SrtConnConfig)
    (readA readB : Nat) (events : List Event) (s : Duplex) (h : Matched a b readA readB)
    (hrun : run (step prim sort) (init a b readA readB) events = some s)
    (hleft : WithinLimits a s.left) (hright : WithinLimits b s.right) :
    (∀ p ∈ s.left.history.freed, p.seq.lte s.right.recv.lastACKSequenceNumber = true ∧
        s.right.Accounted p.seq) ∧
      ∀ p ∈ s.right.history.freed, p.seq.lte s.left.recv.lastACKSequenceNumber = true ∧
        s.left.Accounted p.seq := by
  obtain ⟨hA, hB⟩ := run_sound h hrun hleft hright
  exact ⟨freed_of_local hA hB hleft.pushed, freed_of_local hB hA hright.pushed⟩

/-- The ACK removed both packets, and the listener has them. -/
theorem freed_accounted_lost :
    sampleEnd.left.history.freed.length = 2 ∧
      ∀ p ∈ sampleEnd.left.history.freed,
        p.seq.lte sampleEnd.right.recv.lastACKSequenceNumber = true ∧
          sampleEnd.right.Accounted p.seq :=
  ⟨by decide +kernel, (freed_accounted Sample.primitives SortSlice.insertion sampleCaller
    sampleListener 1500 1500 sampleEvents sampleEnd sample_matched sample_run
    sample_withinLimits.1 sample_withinLimits.2).1⟩

end

end

end Duplex

end Gosrt
