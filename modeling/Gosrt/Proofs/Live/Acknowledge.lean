import Gosrt.Proofs.Live.Receiving

/-!
# `Gosrt.Proofs.Live.Acknowledge`: the acknowledged number and delivery

Whatever the peer sends, the acknowledged number is the number delivered last or one in the buffer
(`Anchored`). Delivery cannot leave it behind: the packet after it is not at or before it, so the
loop stops there. With the neighbours in order, the numbers of a window are ordered as
`Receiver.Ordered` says, in every reachable state and not only in runs that stay in the window.

`AckScan` is what the loop of `periodicACK` does in a sorted buffer. A packet that it moves over
follows directly or is ripe, and the first packet behind its end is neither. The second half is why
delivery is complete: the two loops of `Tick` have different rules, but a ripe packet at the front
of the buffer is acknowledged, so it is not held back.
-/

set_option autoImplicit false

namespace Gosrt

open Lib Number

namespace Receiver

/-- The time of the packet has come. -/
def ripe (now : UInt64) (p : Packet) : Bool := p.header.pktTsbpdTime ≤ now

@[simp] theorem ripe_iff {now : UInt64} {p : Packet} :
    ripe now p = true ↔ p.header.pktTsbpdTime ≤ now := decide_eq_true_iff

/-- The acknowledged number is the one delivered last, or it is in the buffer. -/
def Anchored (r : Receiver) : Prop := r.lastACKSequenceNumber ∈ r.numbers

theorem anchored_newReceiver (config : ReceiveConfig) : (newReceiver config).Anchored :=
  List.mem_cons_self

section
variable {r : Receiver}

/-! ### Every operation keeps the acknowledged number in the buffer -/

/-- `Push` leaves it alone and removes nothing. -/
theorem Anchored.push (h : r.Anchored) (pkt : Packet) : (r.push pkt).1.Anchored := by
  have hmem : ∀ n ∈ r.numbers, n ∈ (r.push pkt).1.numbers := by
    intro n hn
    unfold numbers at hn ⊢
    rw [push_lastDeliveredSequenceNumber]
    rcases List.mem_cons.mp hn with rfl | hn
    · exact List.mem_cons_self
    · obtain ⟨q, hq, rfl⟩ := List.mem_map.mp hn
      exact List.mem_cons_of_mem _ (List.mem_map_of_mem ((pushed_push r pkt).mem_of_mem hq))
  unfold Anchored
  rw [push_lastACKSequenceNumber]
  exact hmem _ h

/-- The loop of `periodicACK` ends where it started or at a number of the buffer. -/
theorem ackLoop_ends (now minTime : UInt64) (ps : List Packet) :
    ∀ (ack : Number) (msBuf : UInt64),
      (ackLoop now minTime ack msBuf ps).1 ∈ ack :: ps.map Packet.seq := by
  induction ps with
  | nil => exact fun ack _ => List.mem_cons_self
  | cons p rest ih =>
    intro ack msBuf
    have hskip : ∀ n, n ∈ ack :: rest.map Packet.seq → n ∈ ack :: (p :: rest).map Packet.seq := by
      intro n hn
      simp only [List.map_cons, List.mem_cons] at hn ⊢
      exact hn.imp_right Or.inr
    have hmove : ∀ n, n ∈ p.seq :: rest.map Packet.seq →
        n ∈ ack :: (p :: rest).map Packet.seq := fun n hn => List.mem_cons_of_mem _ hn
    simp only [ackLoop]
    split
    · exact hskip _ (ih _ _)
    split
    · exact hmove _ (ih _ _)
    split
    · exact hmove _ (ih _ _)
    · exact List.mem_cons_self

/-- An acknowledgement moves it to the buffer. -/
theorem Anchored.periodicACK (h : r.Anchored) (now : UInt64) : (r.periodicACK now).1.Anchored := by
  have hcompute : (r.computeACK now).1.Anchored := by
    have hends := ackLoop_ends now r.frontTsbpdTime r.packetList r.lastACKSequenceNumber
      r.statistics.msBuf
    rcases List.mem_cons.mp hends with he | hmem
    · show (ackLoop _ _ _ _ _).1 ∈ r.numbers
      rw [he]
      exact h
    · exact List.mem_cons_of_mem _ hmem
  unfold Receiver.periodicACK
  split
  · split
    · exact hcompute
    · exact h
  · exact hcompute

/-- A loop that removes packets at or before `ack` from the front of a chain does not get past
`ack`: the packet after it is not at or before it. -/
theorem mem_of_takeWhile {ack : Number} {f : Packet → Bool}
    (hf : ∀ p, f p = true → p.seq.lte ack = true) (ps : List Packet) :
    ∀ last : Number, (∀ n ∈ last :: ps.map Packet.seq, n.IsSequenceNumber) →
      (last :: ps.map Packet.seq).IsChain Before → ack ∈ last :: ps.map Packet.seq →
      ack ∈ ((ps.takeWhile f).getLast?.map Packet.seq).getD last ::
        (ps.dropWhile f).map Packet.seq := by
  induction ps with
  | nil => exact fun last _ _ h => h
  | cons p rest ih =>
    intro last hnumber hchain hmem
    obtain ⟨hbefore, htail⟩ := List.isChain_cons_cons.mp hchain
    by_cases hp : f p = true
    · have hlast := hnumber last List.mem_cons_self
      have hpn := hnumber p.seq (by simp)
      -- If `ack` was delivered last already, nothing after it is at or before it.
      have hne : ack ≠ last := by
        rintro rfl
        rcases (hpn.lte_iff hlast).mp (hf p hp) with he | hlt
        · exact not_before_self ack (he ▸ hbefore)
        · exact hlast.not_before_of_before hpn hbefore hlt
      have hnext := ih p.seq (fun n hn => hnumber n (List.mem_cons_of_mem _ hn)) htail
        ((List.mem_cons.mp hmem).resolve_left hne)
      rw [List.takeWhile_cons_of_pos hp, List.dropWhile_cons_of_pos hp, getLast?_cons_getD]
      exact hnext
    · rw [List.takeWhile_cons_of_neg hp, List.dropWhile_cons_of_neg hp]
      exact hmem

/-- Delivery stops at it at the latest. -/
theorem Anchored.tickDeliver (h : r.Anchored) (hc : r.Chained) (now : UInt64) :
    (r.tickDeliver now).1.Anchored := by
  refine mem_of_takeWhile ?_ r.packetList r.lastDeliveredSequenceNumber hc.isNumber hc.chain h
  intro p hp
  unfold due at hp
  exact (Bool.and_eq_true_iff.mp hp).1

/-- The parts of `Tick` that leave both numbers alone. -/
theorem Anchored.of_eq {r' : Receiver} (h : r.Anchored)
    (hack : r'.lastACKSequenceNumber = r.lastACKSequenceNumber)
    (hdelivered : r'.lastDeliveredSequenceNumber = r.lastDeliveredSequenceNumber)
    (hlist : r'.packetList = r.packetList) : r'.Anchored := by
  unfold Anchored numbers
  rw [hack, hdelivered, hlist]
  exact h

theorem Anchored.periodicNAK (h : r.Anchored) (now : UInt64) : (r.periodicNAK now).1.Anchored := by
  unfold Receiver.periodicNAK
  split
  · exact h
  · exact h.of_eq rfl rfl rfl

theorem Anchored.tickRate (h : r.Anchored) (now : UInt64) : (r.tickRate now).Anchored := by
  unfold Receiver.tickRate
  split
  · exact h.of_eq rfl rfl rfl
  · exact h

end

end Receiver

namespace Receiving

/-- In every run the acknowledged number is the one delivered last or in the buffer. -/
theorem run_anchored {config : ReceiveConfig}
    (hinit : config.initialSequenceNumber.IsSequenceNumber) {events : List Event} {s : Receiving}
    (hrun : run step (init config) events = some s) : s.receiver.Anchored := by
  refine (run_induct (fun t : Receiving => t.receiver.Chained ∧ t.receiver.Anchored) ?_
    ⟨Receiver.chained_newReceiver hinit, Receiver.anchored_newReceiver config⟩ hrun).2
  rintro t e t' ⟨hc, ha⟩ hstep
  have hsame : ∀ r, t.receiver.SameBuffer r → r.Chained := fun r hr =>
    hc.of_eq hr.lastDelivered hr.packetList hr.maxSeen
  cases e with
  | push p =>
    simp only [step] at hstep
    split at hstep
    · rename_i hp
      cases hstep
      exact ⟨hc.push hp, ha.push p⟩
    · cases hstep
  | tickACK now =>
    cases hstep
    exact ⟨hsame _ (t.receiver.sameBuffer_periodicACK now), ha.periodicACK now⟩
  | tickNAK now =>
    cases hstep
    exact ⟨hsame _ (t.receiver.sameBuffer_periodicNAK now), ha.periodicNAK now⟩
  | tickDeliver now =>
    cases hstep
    exact ⟨(hc.tickDeliver now).1, ha.tickDeliver hc now⟩
  | tickRate now =>
    cases hstep
    exact ⟨hsame _ (t.receiver.sameBuffer_tickRate now), ha.tickRate now⟩
  | tick now =>
    cases hstep
    -- The four parts, one after the other.
    have hack := hsame _ (t.receiver.sameBuffer_periodicACK now)
    have hs := Receiver.sameBuffer_periodicNAK (t.receiver.periodicACK now).1 now
    have hnak := hack.of_eq hs.lastDelivered hs.packetList hs.maxSeen
    have hdeliver := (hnak.tickDeliver now).1
    have hr := Receiver.sameBuffer_tickRate
      (((t.receiver.periodicACK now).1.periodicNAK now).1.tickDeliver now).1 now
    rw [tick_eq]
    dsimp only [tickDeliver]
    exact ⟨hdeliver.of_eq hr.lastDelivered hr.packetList hr.maxSeen,
      (((ha.periodicACK now).periodicNAK now).tickDeliver hnak now).tickRate now⟩

end Receiving

namespace Receiver

section
variable {b : Number} {k : Nat} {r : Receiver}

/-- A reachable receiver whose numbers are in a window satisfies the invariant of the runs that
stay in it. -/
theorem Chained.ordered (hc : r.Chained) (ha : r.Anchored) (hw : Window b k)
    (hdelivered : b.InWindow k r.lastDeliveredSequenceNumber)
    (hbuffer : ∀ p ∈ r.packetList, b.InWindow k p.seq) : Ordered b k r := by
  have hwindow : ∀ n ∈ r.numbers, b.InWindow k n := by
    intro n hn
    rcases List.mem_cons.mp hn with rfl | hn
    · exact hdelivered
    · obtain ⟨p, hp, rfl⟩ := List.mem_map.mp hn
      exact hbuffer p hp
  -- The neighbours are in order, so in a window all of them are.
  have hsorted := Receiving.pairwise_of_isChain hw hwindow hc.chain
  obtain ⟨habove, -⟩ := List.pairwise_cons.mp hsorted
  -- The greatest number seen is the last one of the chain.
  have hmax : ∀ n ∈ r.numbers, b.offset n ≤ b.offset r.maxSeenSequenceNumber := by
    obtain ⟨init, hinit⟩ := List.getLast?_eq_some_iff.mp hc.top
    intro n hn
    rw [hinit] at hn hsorted
    rcases List.mem_append.mp hn with hn | hn
    · exact Nat.le_of_lt ((List.pairwise_append.mp hsorted).2.2 n hn _ (by simp))
    · rw [List.mem_singleton.mp hn]
  exact
    { maxSeen := hwindow _ (List.mem_of_getLast? hc.top)
      lastACK := hwindow _ ha
      lastDelivered := hdelivered
      packets := hbuffer
      sorted := Receiving.increasing_of_chained hw hc hbuffer
      delivered_le_ack := by
        rcases List.mem_cons.mp ha with he | hmem
        · rw [he]
        · exact Nat.le_of_lt (habove _ hmem)
      ack_le_maxSeen := hmax _ ha
      above := fun p hp => habove _ (List.mem_map_of_mem hp)
      below := fun p hp => hmax _ (List.mem_cons_of_mem _ (List.mem_map_of_mem hp)) }

/-! ### The scan of `periodicACK` -/

/-- What the loop of `periodicACK` does on its way from `ack` to `ack'` in a sorted buffer. -/
structure AckScan (b : Number) (now : UInt64) (ps : List Packet) (ack ack' : Number) : Prop where
  /-- A packet that it moves over is ripe, or it is the next one. -/
  moved : ∀ p ∈ ps, b.offset ack < b.offset p.seq → b.offset p.seq ≤ b.offset ack' →
    ripe now p = true ∨ b.offset p.seq = b.offset ack + 1 ∨
      ∃ q ∈ ps, b.offset p.seq = b.offset q.seq + 1
  /-- The first packet that it does not move over is neither. -/
  stops : ∀ p ∈ ps, b.offset ack' < b.offset p.seq →
    (∀ q ∈ ps, b.offset ack' < b.offset q.seq → b.offset p.seq ≤ b.offset q.seq) →
    ripe now p = false ∧ b.offset p.seq ≠ b.offset ack' + 1

/-- A packet that is acknowledged already does not matter. -/
theorem AckScan.skip {now : UInt64} {ps : List Packet} {ack ack' : Number}
    (h : AckScan b now ps ack ack') {p : Packet} (hforward : b.offset ack ≤ b.offset ack')
    (hle : b.offset p.seq ≤ b.offset ack) : AckScan b now (p :: ps) ack ack' where
  moved := by
    intro q hq hlt hq'
    rcases List.mem_cons.mp hq with rfl | hq
    · omega
    · refine (h.moved q hq hlt hq').imp_right fun hor => hor.imp_right ?_
      exact fun ⟨x, hx, he⟩ => ⟨x, List.mem_cons_of_mem _ hx, he⟩
  stops := by
    intro q hq hlt hfirst
    rcases List.mem_cons.mp hq with rfl | hq
    · omega
    · exact h.stops q hq hlt fun x hx => hfirst x (List.mem_cons_of_mem _ hx)

/-- The loop moves to a packet that is ripe or the next one, and goes on from there. -/
theorem AckScan.move {now : UInt64} {ps : List Packet} {ack ack' : Number} {p : Packet}
    (h : AckScan b now ps p.seq ack') (hforward : b.offset p.seq ≤ b.offset ack')
    (hsorted : ∀ q ∈ ps, b.offset p.seq < b.offset q.seq)
    (hwhy : ripe now p = true ∨ b.offset p.seq = b.offset ack + 1) :
    AckScan b now (p :: ps) ack ack' where
  moved := by
    intro q hq hlt hq'
    rcases List.mem_cons.mp hq with rfl | hq
    · exact hwhy.imp_right Or.inl
    · rcases h.moved q hq (hsorted q hq) hq' with hripe | hnext | ⟨x, hx, he⟩
      · exact Or.inl hripe
      -- The next one after `p`, which is in the buffer now.
      · exact Or.inr (Or.inr ⟨p, List.mem_cons_self, hnext⟩)
      · exact Or.inr (Or.inr ⟨x, List.mem_cons_of_mem _ hx, he⟩)
  stops := by
    intro q hq hlt hfirst
    rcases List.mem_cons.mp hq with rfl | hq
    · omega
    · exact h.stops q hq hlt fun x hx => hfirst x (List.mem_cons_of_mem _ hx)

/-- Induction on the buffer. The loop stops at the first packet that is behind `ack` and neither
ripe nor the next one. In a sorted buffer no later packet has a smaller number. -/
theorem ackScan_ackLoop (hw : Window b k) (now minTime : UInt64) (ps : List Packet) :
    ∀ (ack : Number) (msBuf : UInt64), b.InWindow k ack → (∀ p ∈ ps, b.InWindow k p.seq) →
      Increasing b ps → AckScan b now ps ack (ackLoop now minTime ack msBuf ps).1 := by
  induction ps with
  | nil =>
    intro ack msBuf _ _ _
    constructor
    · intro p hp
      cases hp
    · intro p hp
      cases hp
  | cons p rest ih =>
    intro ack msBuf hack hwin hinc
    obtain ⟨hp, hrest⟩ := List.forall_mem_cons.mp hwin
    obtain ⟨hhead, htail⟩ := List.pairwise_cons.mp hinc
    have hforward : ∀ (a : Number) (m : UInt64), b.InWindow k a →
        b.offset a ≤ b.offset (ackLoop now minTime a m rest).1 := fun a m ha =>
      (ackLoop_spec hw now minTime rest a m ha hrest).forward
    rw [ackLoop_cons hw now minTime msBuf hack hp]
    split
    · rename_i hle
      exact (ih ack msBuf hack hrest htail).skip (hforward ack msBuf hack) hle
    split
    · rename_i hripe
      exact (ih p.seq msBuf hp hrest htail).move (hforward _ _ hp) hhead
        (Or.inl (decide_eq_true hripe))
    split
    · rename_i hnext
      exact (ih p.seq _ hp hrest htail).move (hforward _ _ hp) hhead (Or.inr hnext)
    · rename_i hgt hripe hnext
      show AckScan b now (p :: rest) ack ack
      constructor
      · intro q _ hlt hle
        omega
      · intro q hq hlt hfirst
        rcases List.mem_cons.mp hq with rfl | hq
        · exact ⟨decide_eq_false hripe, hnext⟩
        · have hpq := hfirst p List.mem_cons_self (by omega)
          have hqp := hhead q hq
          omega

/-- What computing an acknowledgement does to the receiver `r`. The result is `r'`, and `sent` is
the number that goes out. -/
structure AckComputed (r : Receiver) (now : UInt64) (r' : Receiver) (sent : Number) : Prop where
  /-- The acknowledged number stays, or it becomes a number of the buffer. -/
  ends : r'.lastACKSequenceNumber = r.lastACKSequenceNumber ∨
    ∃ p ∈ r.packetList, p.seq = r'.lastACKSequenceNumber
  forward : r.lastACKSequenceNumber.lte r'.lastACKSequenceNumber = true
  le_maxSeen : r'.lastACKSequenceNumber.lte r.maxSeenSequenceNumber = true
  delivered_le : r.lastDeliveredSequenceNumber.lte r'.lastACKSequenceNumber = true
  /-- Each packet that it moves over follows the old number or the packet before it, or it is
  ripe. -/
  moved : ∀ before p after, r.packetList = before ++ p :: after →
    p.seq.gt r.lastACKSequenceNumber = true → p.seq.lte r'.lastACKSequenceNumber = true →
    p.seq = r.lastACKSequenceNumber.inc ∨
    (∃ q, before.getLast? = some q ∧ p.seq = q.seq.inc) ∨ p.header.pktTsbpdTime ≤ now
  /-- The first packet behind it is neither the next one nor ripe. -/
  stops : ∀ p, r.packetList.find? (fun p => p.seq.gt r'.lastACKSequenceNumber) = some p →
    p.seq ≠ r'.lastACKSequenceNumber.inc ∧ ¬p.header.pktTsbpdTime ≤ now
  sent : sent = r'.lastACKSequenceNumber.inc

/-- In a window the number after `n` is the one with the next offset. -/
theorem eq_inc_iff (hw : Window b k) {m n : Number} (hm : b.InWindow k m) (hn : b.InWindow k n) :
    m = n.inc ↔ b.offset m = b.offset n + 1 := by
  have hequals := hm.equals_inc_eq hw.wf hw.lt_max hn
  constructor
  · intro h
    rw [← h, show m.equals m = true from beq_self_eq_true _, eq_comm, decide_eq_true_iff]
      at hequals
    exact hequals
  · intro h
    rw [hm.1, h, ← inc_plus hw.wf, ← hn.1]

/-- The packet before a packet in a sorted buffer is the one with the number before, if that one is
there at all. -/
theorem getLast?_of_follows (hw : Window b k) {before after : List Packet} {p q : Packet}
    (hps : ∀ x ∈ before ++ p :: after, b.InWindow k x.seq)
    (hinc : Increasing b (before ++ p :: after)) (hq : q ∈ before ++ p :: after)
    (hnext : b.offset p.seq = b.offset q.seq + 1) :
    ∃ x, before.getLast? = some x ∧ p.seq = x.seq.inc := by
  obtain ⟨hbefore, hrest, hcross⟩ := List.pairwise_append.mp hinc
  obtain ⟨hafter, -⟩ := List.pairwise_cons.mp hrest
  -- All that comes after `p` has a greater number.
  have hqb : q ∈ before := by
    rcases List.mem_append.mp hq with hq | hq
    · exact hq
    rcases List.mem_cons.mp hq with rfl | hq
    · omega
    · have := hafter q hq
      omega
  obtain ⟨x, hx⟩ := Option.isSome_iff_exists.mp
    (List.getLast?_isSome.mpr (List.ne_nil_of_mem hqb))
  have hxb := List.mem_of_getLast? hx
  have hle := Increasing.le_getLast hbefore hx q hqb
  have hlt := hcross x hxb p List.mem_cons_self
  refine ⟨x, hx, ?_⟩
  rw [eq_inc_iff hw (hps p (by simp)) (hps x (List.mem_append_left _ hxb))]
  omega

/-- The first packet that is after a number has the smallest number of those. -/
theorem find?_gt (hw : Window b k) {n : Number} (hn : b.InWindow k n) {ps : List Packet}
    (hps : ∀ x ∈ ps, b.InWindow k x.seq) (hinc : Increasing b ps) {p : Packet}
    (hfind : ps.find? (fun x => x.seq.gt n) = some p) :
    p ∈ ps ∧ b.offset n < b.offset p.seq ∧
      ∀ q ∈ ps, b.offset n < b.offset q.seq → b.offset p.seq ≤ b.offset q.seq := by
  obtain ⟨hgt, before, after, rfl, hbefore⟩ := List.find?_eq_some_iff_append.mp hfind
  have hgt_iff : ∀ x ∈ before ++ p :: after, x.seq.gt n = decide (b.offset n < b.offset x.seq) :=
    fun x hx => (hps x hx).gt_eq hw.wf hw.narrow hn
  have hp : p ∈ before ++ p :: after := by simp
  rw [hgt_iff p hp, decide_eq_true_iff] at hgt
  refine ⟨hp, hgt, ?_⟩
  intro q hq hlt
  rcases List.mem_append.mp hq with hqb | hqa
  · have hnot := hbefore q hqb
    rw [hgt_iff q hq] at hnot
    simp [hlt] at hnot
  · obtain ⟨-, hrest, -⟩ := List.pairwise_append.mp hinc
    rcases List.mem_cons.mp hqa with rfl | hqa
    · exact Nat.le_refl _
    · exact Nat.le_of_lt ((List.pairwise_cons.mp hrest).1 q hqa)

/-- The acknowledgement of an ordered receiver. -/
theorem Ordered.computeACK (h : Ordered b k r) (hw : Window b k) (now : UInt64) :
    AckComputed r now (r.computeACK now).1 (r.computeACK now).2 := by
  have hspec := computeACK_spec hw h now
  have hends := ackLoop_ends now r.frontTsbpdTime r.packetList r.lastACKSequenceNumber
    r.statistics.msBuf
  have hscan : AckScan b now r.packetList r.lastACKSequenceNumber
      (r.computeACK now).1.lastACKSequenceNumber :=
    ackScan_ackLoop hw now r.frontTsbpdTime r.packetList _ r.statistics.msBuf h.lastACK h.packets
      h.sorted
  have hack := hspec.ordered.lastACK
  exact
    { ends := by
        rcases List.mem_cons.mp hends with he | hmem
        · exact Or.inl he
        · obtain ⟨p, hp, he⟩ := List.mem_map.mp hmem
          exact Or.inr ⟨p, hp, he⟩
      forward := by
        rw [h.lastACK.lte_eq hw.wf hw.narrow hack, decide_eq_true_iff]
        exact hspec.forward
      le_maxSeen := by
        rw [hack.lte_eq hw.wf hw.narrow h.maxSeen, decide_eq_true_iff]
        exact hspec.ordered.ack_le_maxSeen
      delivered_le := by
        rw [h.lastDelivered.lte_eq hw.wf hw.narrow hack, decide_eq_true_iff]
        exact hspec.ordered.delivered_le_ack
      moved := by
        intro before p after hlist hgt hle
        have hp : p ∈ r.packetList := by
          rw [hlist]
          simp
        rw [(h.packets p hp).gt_eq hw.wf hw.narrow h.lastACK, decide_eq_true_iff] at hgt
        rw [(h.packets p hp).lte_eq hw.wf hw.narrow hack, decide_eq_true_iff] at hle
        rcases hscan.moved p hp hgt hle with hripe | hnext | ⟨q, hq, hnext⟩
        · exact Or.inr (Or.inr (ripe_iff.mp hripe))
        · exact Or.inl ((eq_inc_iff hw (h.packets p hp) h.lastACK).mpr hnext)
        · exact Or.inr (Or.inl (getLast?_of_follows hw (hlist ▸ h.packets) (hlist ▸ h.sorted)
            (hlist ▸ hq) hnext))
      stops := by
        -- In a sorted buffer the first packet found is the one with the smallest number.
        intro p hfind
        obtain ⟨hp, hgt, hfirst⟩ := find?_gt hw hack h.packets h.sorted hfind
        obtain ⟨hripe, hnext⟩ := hscan.stops p hp hgt hfirst
        exact ⟨fun he => hnext ((eq_inc_iff hw (h.packets p hp) hack).mp he),
          of_decide_eq_false hripe⟩
      sent := rfl }

/-- `periodicACK` computes an acknowledgement where it returns one. -/
theorem periodicACK_eq_some {now : UInt64} {n : Number} {light : Bool}
    (h : (r.periodicACK now).2 = some (n, light)) :
    (r.periodicACK now).1 = (r.computeACK now).1 ∧ n = (r.computeACK now).2 := by
  unfold periodicACK at h ⊢
  split at h
  · rename_i hrecent
    split at h
    · rename_i hmany
      cases h
      rw [if_pos hrecent, if_pos hmany]
      exact ⟨rfl, rfl⟩
    · cases h
  · rename_i helapsed
    cases h
    rw [if_neg helapsed]
    exact ⟨rfl, rfl⟩

/-! ### Delivery -/

/-- Two loops that agree on the first packet after a part that both take, take the same part. -/
theorem takeWhile_eq_of {f g : Packet → Bool} (ps : List Packet)
    (h : ∀ before p after, ps = before ++ p :: after → (∀ q ∈ before, f q = true) → f p = g p) :
    ps.takeWhile f = ps.takeWhile g := by
  induction ps with
  | nil => rfl
  | cons p rest ih =>
    have hp := h [] p rest rfl (by simp)
    by_cases hf : f p = true
    · rw [List.takeWhile_cons_of_pos hf, List.takeWhile_cons_of_pos (hp ▸ hf)]
      refine congrArg (p :: ·) (ih ?_)
      intro before q after hrest hbefore
      refine h (p :: before) q after (by rw [hrest, List.cons_append]) ?_
      intro x hx
      rcases List.mem_cons.mp hx with rfl | hx
      · exact hf
      · exact hbefore x hx
    · rw [List.takeWhile_cons_of_neg hf, List.takeWhile_cons_of_neg (hp ▸ hf)]

/-- `Tick` splits the buffer where the first packet is not due. The loss report in between changes
nothing that the delivery looks at. -/
theorem tick_delivers (r : Receiver) (now : UInt64) :
    (r.tick now).2.delivered = r.packetList.takeWhile ((r.periodicACK now).1.due now) ∧
      (r.tick now).1.packetList = r.packetList.dropWhile ((r.periodicACK now).1.due now) := by
  have hlist := (sameBuffer_periodicACK r now).packetList
  have hnak : ((r.periodicACK now).1.periodicNAK now).1.packetList = r.packetList ∧
      ((r.periodicACK now).1.periodicNAK now).1.due now = (r.periodicACK now).1.due now := by
    unfold periodicNAK
    split
    · exact ⟨hlist, rfl⟩
    · exact ⟨hlist, rfl⟩
  have hrate := (sameBuffer_tickRate
    (((r.periodicACK now).1.periodicNAK now).1.tickDeliver now).1 now).packetList
  constructor
  · show ((r.periodicACK now).1.periodicNAK now).1.packetList.takeWhile
      (((r.periodicACK now).1.periodicNAK now).1.due now) = _
    rw [hnak.1, hnak.2]
  · show ((((r.periodicACK now).1.periodicNAK now).1.tickDeliver now).1.tickRate now).packetList
      = _
    rw [hrate]
    show ((r.periodicACK now).1.periodicNAK now).1.packetList.dropWhile
      (((r.periodicACK now).1.periodicNAK now).1.due now) = _
    rw [hnak.1, hnak.2]

/-- After an acknowledgement every ripe packet at the front of the buffer is due. The first packet
behind the acknowledged number is not ripe. -/
theorem Ordered.takeWhile_due (h : Ordered b k r) (hw : Window b k) (now : UInt64) :
    r.packetList.takeWhile ((r.computeACK now).1.due now) = r.packetList.takeWhile (ripe now) := by
  have hspec := computeACK_spec hw h now
  have hack := hspec.ordered.lastACK
  have hscan : AckScan b now r.packetList r.lastACKSequenceNumber
      (r.computeACK now).1.lastACKSequenceNumber :=
    ackScan_ackLoop hw now r.frontTsbpdTime r.packetList _ r.statistics.msBuf h.lastACK h.packets
      h.sorted
  have hdue : ∀ p ∈ r.packetList, (r.computeACK now).1.due now p = true ↔
      b.offset p.seq ≤ b.offset (r.computeACK now).1.lastACKSequenceNumber ∧
        ripe now p = true := by
    intro p hp
    unfold due ripe
    rw [Bool.and_eq_true, (h.packets p hp).lte_eq hw.wf hw.narrow hack, decide_eq_true_iff]
  -- `due` asks for more than `ripe`. So the two differ only at a ripe packet that is not
  -- acknowledged, and the loop of `periodicACK` would have moved over it.
  refine takeWhile_eq_of _ ?_
  intro before p after hlist hbefore
  have hmem : ∀ q, q ∈ before ++ p :: after → q ∈ r.packetList := fun q hq => hlist ▸ hq
  have hp := hmem p (by simp)
  have hinc := h.sorted
  unfold Increasing at hinc
  rw [hlist] at hinc
  obtain ⟨-, hrest, -⟩ := List.pairwise_append.mp hinc
  rw [Bool.eq_iff_iff, hdue p hp]
  refine ⟨And.right, fun hripe => ⟨?_, hripe⟩⟩
  by_contra hgt
  -- Everything before it is acknowledged, so it is the first packet that is not.
  have hfirst : ∀ q ∈ r.packetList,
      b.offset (r.computeACK now).1.lastACKSequenceNumber < b.offset q.seq →
        b.offset p.seq ≤ b.offset q.seq := by
    intro q hq hlt
    rw [hlist] at hq
    rcases List.mem_append.mp hq with hq | hq
    · have hle := ((hdue q (hmem q (List.mem_append_left _ hq))).mp (hbefore q hq)).1
      omega
    · rcases List.mem_cons.mp hq with rfl | hq
      · exact Nat.le_refl _
      · exact Nat.le_of_lt ((List.pairwise_cons.mp hrest).1 q hq)
  have hnot := (hscan.stops p hp (by omega) hfirst).1
  rw [hripe] at hnot
  exact Bool.noConfusion hnot

end

end Receiver

namespace Receiving

/-- A reachable receiver whose numbers are in a window is ordered. -/
theorem run_ordered {config : ReceiveConfig}
    (hinit : config.initialSequenceNumber.IsSequenceNumber) {events : List Event} {s : Receiving}
    (hrun : run step (init config) events = some s) {b : Number} (hb : b.IsSequenceNumber)
    {k : Nat} (hk : k < 2 ^ 30 - 1)
    (hdelivered : b.InWindow k s.receiver.lastDeliveredSequenceNumber)
    (hbuffer : ∀ p ∈ s.receiver.packetList, b.InWindow k p.seq) :
    s.receiver.Ordered b k :=
  (run_inv hinit hrun).chained.ordered (run_anchored hinit hrun) (window_of_isSequenceNumber hb hk)
    hdelivered hbuffer

/-- The acknowledgement in every reachable state whose numbers are in one window, for every time at
which one is computed. -/
theorem ack_computed (config : ReceiveConfig)
    (hinit : config.initialSequenceNumber.IsSequenceNumber) (events : List Event) (s : Receiving)
    (hrun : run step (init config) events = some s) (b : Number) (hb : b.IsSequenceNumber) (k : Nat)
    (hk : k < 2 ^ 30 - 1) (hdelivered : b.InWindow k s.receiver.lastDeliveredSequenceNumber)
    (hbuffer : ∀ p ∈ s.receiver.packetList, b.InWindow k p.seq) (now : UInt64) (n : Number)
    (light : Bool) (hcomputed : (s.receiver.periodicACK now).2 = some (n, light)) :
    s.receiver.AckComputed now (s.receiver.periodicACK now).1 n := by
  have hordered := run_ordered hinit hrun hb hk hdelivered hbuffer
  obtain ⟨hreceiver, hn⟩ := Receiver.periodicACK_eq_some hcomputed
  rw [hreceiver, hn]
  exact hordered.computeACK (window_of_isSequenceNumber hb hk) now

/-- A gap before a ripe packet, and then a packet that follows but is not ripe. -/
def skippedGapRun : List Event :=
  [.push (samplePacket 5 10), .push (samplePacket 8 20), .push (samplePacket 9 500)]

def skippedGapEnd : Receiving := runD step (init sampleConfig) skippedGapRun

/-- The ACK goes over the gap, because the packet behind it is ripe. -/
theorem ack_computed_skippedGap :
    (skippedGapEnd.receiver.periodicACK 30).1.lastACKSequenceNumber.val = 9 ∧
    skippedGapEnd.receiver.AckComputed 30 (skippedGapEnd.receiver.periodicACK 30).1
      (Number.new 10 maxSequenceNumber) :=
  ⟨by decide +kernel,
    ack_computed sampleConfig (by decide) skippedGapRun skippedGapEnd
      (run_eq_some_runD (by decide +kernel)) (Number.new 0 maxSequenceNumber) (by decide) 100
      (by decide) (by decide +kernel) (by decide +kernel) 30 _ false (by decide +kernel)⟩

/-- Delivery in every reachable state whose numbers are in one window, for every time at which
`Tick` computes an acknowledgement. What is delivered are the ripe packets at the front of the
buffer, all of them, and what is left does not start with a ripe one. -/
theorem delivery_complete (config : ReceiveConfig)
    (hinit : config.initialSequenceNumber.IsSequenceNumber) (events : List Event) (s : Receiving)
    (hrun : run step (init config) events = some s) (b : Number) (hb : b.IsSequenceNumber) (k : Nat)
    (hk : k < 2 ^ 30 - 1) (hdelivered : b.InWindow k s.receiver.lastDeliveredSequenceNumber)
    (hbuffer : ∀ p ∈ s.receiver.packetList, b.InWindow k p.seq) (now : UInt64)
    (hcomputed : (s.receiver.tick now).2.ack.isSome = true) :
    (s.receiver.tick now).2.delivered = s.receiver.packetList.takeWhile (Receiver.ripe now) ∧
    (s.tick now).delivered = s.delivered ++ (s.receiver.tick now).2.delivered ∧
    (∀ p ∈ (s.receiver.tick now).2.delivered, p.header.pktTsbpdTime ≤ now) ∧
    s.receiver.packetList
      = (s.receiver.tick now).2.delivered ++ (s.receiver.tick now).1.packetList ∧
    ∀ p, (s.receiver.tick now).1.packetList.head? = some p → ¬p.header.pktTsbpdTime ≤ now := by
  have hordered := run_ordered hinit hrun hb hk hdelivered hbuffer
  obtain ⟨⟨n, light⟩, hack⟩ := Option.isSome_iff_exists.mp hcomputed
  have hreceiver := (Receiver.periodicACK_eq_some hack).1
  have htake := hordered.takeWhile_due (window_of_isSequenceNumber hb hk) now
  obtain ⟨hout, hleft⟩ := s.receiver.tick_delivers now
  rw [hreceiver] at hout hleft
  have hsplit : s.receiver.packetList
      = (s.receiver.tick now).2.delivered ++ (s.receiver.tick now).1.packetList := by
    rw [hout, hleft, List.takeWhile_append_dropWhile]
  have hripe : (s.receiver.tick now).2.delivered
      = s.receiver.packetList.takeWhile (Receiver.ripe now) := hout.trans htake
  -- The same part is taken, so the same rest is left.
  have hrest : (s.receiver.tick now).1.packetList
      = s.receiver.packetList.dropWhile (Receiver.ripe now) := by
    refine (List.append_right_inj (s.receiver.packetList.takeWhile (Receiver.ripe now))).mp ?_
    rw [List.takeWhile_append_dropWhile, ← hripe, ← hsplit]
  refine ⟨hripe, rfl, ?_, hsplit, ?_⟩
  · intro p hp
    rw [hripe] at hp
    exact Receiver.ripe_iff.mp (List.mem_takeWhile_imp hp)
  · intro p hp
    rw [hrest] at hp
    have hnot := List.head?_dropWhile_not (Receiver.ripe now) s.receiver.packetList
    rw [hp] at hnot
    exact of_decide_eq_false hnot

/-- Both ripe packets are handed over, and the third one waits. -/
theorem delivery_complete_skippedGap :
    (skippedGapEnd.receiver.tick 30).2.delivered.map (·.seq.val) = [5, 8] ∧
    (skippedGapEnd.receiver.tick 30).2.delivered
      = skippedGapEnd.receiver.packetList.takeWhile (Receiver.ripe 30) :=
  ⟨by decide +kernel,
    (delivery_complete sampleConfig (by decide) skippedGapRun skippedGapEnd
      (run_eq_some_runD (by decide +kernel)) (Number.new 0 maxSequenceNumber) (by decide) 100
      (by decide) (by decide +kernel) (by decide +kernel) 30 (by decide +kernel)).1⟩

end Receiving

end Gosrt
