import Gosrt.Proofs.Circular
import Gosrt.Spec.Live.Receive
import Mathlib.Data.List.TakeWhile

/-!
# `Gosrt.Proofs.Live.Receive`: the receive buffer in a window

The proofs about the live receiver all work in a window: every number it has seen is at
most `k` steps after a base number `b`, and `k` is below the threshold of the comparisons
(`Window`). Inside the window each comparison is one of offsets, so the receiver can be
read with plain numbers.

`Ordered b k r` is the representation invariant. The buffer is strictly increasing, it lies
after the number delivered last and up to the number seen last, and the acknowledged number
is between those two. It does not say that the number seen last is still in the buffer:
`Flush` empties the buffer but keeps the three numbers. Packets can still arrive then, and one
that is not the newest may find no place.

Each operation has one lemma that says all it can do, and the invariant follows from that
lemma: `push_cases`, `periodicACK_spec`, `tickDeliver_spec`.
-/

set_option autoImplicit false

namespace Gosrt

open Number

/-- A base number and a width below the threshold of the comparisons. -/
structure Window (b : Number) (k : Nat) : Prop where
  wf : b.Wf
  narrow : k < b.threshold.toNat

/-- Fewer than `2 ^ 30 - 1` sequence numbers fit into a window. -/
theorem window_of_isSequenceNumber {b : Number} (hb : b.IsSequenceNumber) {k : Nat}
    (hk : k < 2 ^ 30 - 1) : Window b k := by
  refine ⟨hb.wf, ?_⟩
  rw [hb.threshold_toNat]
  exact hk

theorem Window.lt_max {b : Number} {k : Nat} (hw : Window b k) : k < b.max.toNat :=
  Nat.lt_of_lt_of_le hw.narrow hw.wf.threshold_le

/-- The sequence numbers of a list of packets increase. -/
def Increasing (b : Number) (ps : List Packet) : Prop :=
  ps.Pairwise fun p q => b.offset p.seq < b.offset q.seq

/-- In an increasing list, the last packet has the greatest number. -/
theorem Increasing.le_getLast {b : Number} {ps : List Packet} (h : Increasing b ps)
    {x : Packet} (hx : ps.getLast? = some x) :
    ∀ p ∈ ps, b.offset p.seq ≤ b.offset x.seq := by
  obtain ⟨ys, rfl⟩ := List.getLast?_eq_some_iff.mp hx
  intro p hp
  rcases List.mem_append.mp hp with hp | hp
  · exact Nat.le_of_lt ((List.pairwise_append.mp h).2.2 p hp x (by simp))
  · rw [List.mem_singleton.mp hp]

namespace Receiver

/-- The representation invariant of the receiver, read with offsets from `b`. -/
structure Ordered (b : Number) (k : Nat) (r : Receiver) : Prop where
  maxSeen : b.InWindow k r.maxSeenSequenceNumber
  lastACK : b.InWindow k r.lastACKSequenceNumber
  lastDelivered : b.InWindow k r.lastDeliveredSequenceNumber
  packets : ∀ p ∈ r.packetList, b.InWindow k p.seq
  sorted : Increasing b r.packetList
  delivered_le_ack : b.offset r.lastDeliveredSequenceNumber ≤ b.offset r.lastACKSequenceNumber
  ack_le_maxSeen : b.offset r.lastACKSequenceNumber ≤ b.offset r.maxSeenSequenceNumber
  above : ∀ p ∈ r.packetList, b.offset r.lastDeliveredSequenceNumber < b.offset p.seq
  below : ∀ p ∈ r.packetList, b.offset p.seq ≤ b.offset r.maxSeenSequenceNumber

/-- A wider window contains a narrower one. -/
theorem Ordered.mono {b : Number} {k k' : Nat} {r : Receiver} (h : Ordered b k r)
    (hk : k ≤ k') : Ordered b k' r :=
  { h with
    maxSeen := h.maxSeen.mono hk
    lastACK := h.lastACK.mono hk
    lastDelivered := h.lastDelivered.mono hk
    packets := fun p hp => (h.packets p hp).mono hk }

/-- A new receiver is ordered from the number before the initial one. -/
theorem ordered_newReceiver (config : ReceiveConfig)
    (hwf : config.initialSequenceNumber.Wf) (k : Nat) :
    Ordered config.initialSequenceNumber.dec k (newReceiver config) := by
  have hb := hwf.dec
  have h0 : config.initialSequenceNumber.dec.InWindow k config.initialSequenceNumber.dec := by
    have hz := offset_plus hb (Nat.zero_le _)
    rw [plus_zero hb] at hz
    exact ⟨by rw [hz, plus_zero hb], by rw [hz]; exact Nat.zero_le k⟩
  exact
    { maxSeen := h0
      lastACK := h0
      lastDelivered := h0
      packets := by intro p hp; cases hp
      sorted := List.Pairwise.nil
      delivered_le_ack := Nat.le_refl _
      ack_le_maxSeen := Nat.le_refl _
      above := by intro p hp; cases hp
      below := by intro p hp; cases hp }

section
variable {b : Number} {k : Nat} {r : Receiver} {pkt : Packet}

/-- The counters do not matter. -/
theorem Ordered.of_eq {r' : Receiver} (h : r.Ordered b k)
    (hmax : r'.maxSeenSequenceNumber = r.maxSeenSequenceNumber)
    (hack : r'.lastACKSequenceNumber = r.lastACKSequenceNumber)
    (hdel : r'.lastDeliveredSequenceNumber = r.lastDeliveredSequenceNumber)
    (hlist : r'.packetList = r.packetList) : r'.Ordered b k := by
  cases r'
  cases hmax
  cases hack
  cases hdel
  cases hlist
  exact { h with }

/-- `Flush` keeps the invariant. -/
theorem Ordered.flush (h : r.Ordered b k) : r.flush.Ordered b k :=
  { h with
    packets := fun p hp => by cases hp
    sorted := List.Pairwise.nil
    above := fun p hp => by cases hp
    below := fun p hp => by cases hp }

/-! ### `Push` -/

/-- The insertion loop. With a greater number in the list it either finds the number or
inserts the packet at its place. -/
theorem place_cases (hw : Window b k) (hp : b.InWindow k pkt.seq) :
    ∀ ps : List Packet, (∀ q ∈ ps, b.InWindow k q.seq) → Increasing b ps →
      (∃ q ∈ ps, b.offset pkt.seq ≤ b.offset q.seq) →
      (place pkt ps = .duplicate ∧ ∃ q ∈ ps, q.seq = pkt.seq) ∨
      ∃ pre post, ps = pre ++ post ∧ place pkt ps = .inserted (pre ++ pkt :: post) ∧
        (∀ q ∈ pre, b.offset q.seq < b.offset pkt.seq) ∧
        (∀ q ∈ post, b.offset pkt.seq < b.offset q.seq) := by
  intro ps
  induction ps with
  | nil =>
    intro _ _ hex
    obtain ⟨q, hq, -⟩ := hex
    cases hq
  | cons p rest ih =>
    intro hwin hsorted hex
    have hpw := hwin p (by simp)
    obtain ⟨hhead, htail⟩ := List.pairwise_cons.mp hsorted
    simp only [place]
    by_cases heq : p.seq = pkt.seq
    · rw [if_pos heq]
      exact Or.inl ⟨rfl, p, by simp, heq⟩
    · have hne : b.offset p.seq ≠ b.offset pkt.seq := fun h => heq ((hpw.eq_iff hp).mpr h)
      rw [if_neg heq]
      by_cases hgt : b.offset pkt.seq < b.offset p.seq
      · -- The first greater number: the packet goes in front of it.
        rw [if_pos (by rw [hpw.gt_eq hw.wf hw.narrow hp]; exact decide_eq_true hgt)]
        refine Or.inr ⟨[], p :: rest, rfl, rfl, by simp, ?_⟩
        intro q hq
        rcases List.mem_cons.mp hq with rfl | hq
        · exact hgt
        · exact Nat.lt_trans hgt (hhead q hq)
      · rw [if_neg (by rw [hpw.gt_eq hw.wf hw.narrow hp]; simpa using hgt)]
        have hex' : ∃ q ∈ rest, b.offset pkt.seq ≤ b.offset q.seq := by
          obtain ⟨q, hq, hle⟩ := hex
          rcases List.mem_cons.mp hq with rfl | hq
          · omega
          · exact ⟨q, hq, hle⟩
        rcases ih (fun q hq => hwin q (by simp [hq])) htail hex' with
          ⟨hdup, q, hq, hqs⟩ | ⟨pre, post, rfl, hins, hpre, hpost⟩
        · rw [hdup]
          exact Or.inl ⟨rfl, q, by simp [hq], hqs⟩
        · rw [hins]
          refine Or.inr ⟨p :: pre, post, rfl, rfl, ?_, hpost⟩
          intro q hq
          rcases List.mem_cons.mp hq with rfl | hq
          · omega
          · exact hpre q hq

/-- Behind all other numbers the insertion loop finds no place. -/
theorem place_of_last (hw : Window b k) (hp : b.InWindow k pkt.seq) :
    ∀ ps : List Packet, (∀ q ∈ ps, b.InWindow k q.seq) →
      (∀ q ∈ ps, b.offset q.seq < b.offset pkt.seq) → place pkt ps = .skipped := by
  intro ps
  induction ps with
  | nil => exact fun _ _ => rfl
  | cons p rest ih =>
    intro hwin hlt
    obtain ⟨hpw, hrest⟩ := List.forall_mem_cons.mp hwin
    obtain ⟨hplt, hrlt⟩ := List.forall_mem_cons.mp hlt
    have hne : p.seq ≠ pkt.seq := fun h => Nat.lt_irrefl _ (h ▸ hplt)
    have hgt : ¬p.seq.gt pkt.seq = true := by
      rw [hpw.gt_eq hw.wf hw.narrow hp, decide_eq_true_eq]
      omega
    simp only [place]
    rw [if_neg hne, if_neg hgt, ih hrest hrlt]

/-- What `Push` can do with a packet in the window. -/
inductive PushOutcome (b : Number) (r : Receiver) (pkt : Packet) (r' : Receiver) : Prop where
  /-- The number is acknowledged or in the buffer already, or the packet finds no place. -/
  | left (hlist : r'.packetList = r.packetList)
      (hmax : r'.maxSeenSequenceNumber = r.maxSeenSequenceNumber)
      (hwhy : b.offset pkt.seq ≤ b.offset r.lastACKSequenceNumber ∨
        (∃ q ∈ r.packetList, q.seq = pkt.seq) ∨
        ∀ q ∈ r.packetList, b.offset q.seq < b.offset pkt.seq)
  /-- The packet goes to its place. -/
  | put (pre post : List Packet) (hlist : r.packetList = pre ++ post)
      (hlist' : r'.packetList = pre ++ pkt :: post)
      (hmax : r'.maxSeenSequenceNumber = r.maxSeenSequenceNumber ∨
        r'.maxSeenSequenceNumber = pkt.seq)
      (hforward : b.offset r.maxSeenSequenceNumber ≤ b.offset r'.maxSeenSequenceNumber)
      (hle : b.offset pkt.seq ≤ b.offset r'.maxSeenSequenceNumber)
      (hpre : ∀ q ∈ pre, b.offset q.seq < b.offset pkt.seq)
      (hpost : ∀ q ∈ post, b.offset pkt.seq < b.offset q.seq)
      (habove : b.offset r.lastDeliveredSequenceNumber < b.offset pkt.seq)

/-- The newest packet goes to the back. -/
theorem Ordered.append {r' : Receiver} (h : r.Ordered b k)
    (hlist : r'.packetList = r.packetList ++ [pkt]) (hmax : r'.maxSeenSequenceNumber = pkt.seq)
    (hlt : b.offset r.maxSeenSequenceNumber < b.offset pkt.seq) : PushOutcome b r pkt r' := by
  have hDA := h.delivered_le_ack
  have hAM := h.ack_le_maxSeen
  refine .put r.packetList [] (List.append_nil _).symm hlist (Or.inr hmax) ?_ ?_ ?_ ?_ (by omega)
  · rw [hmax]
    exact Nat.le_of_lt hlt
  · rw [hmax]
  · exact fun q hq => Nat.lt_of_le_of_lt (h.below q hq) hlt
  · exact fun q hq => by cases hq

/-- Each test of `Push` is one of offsets, and the insertion loop finds the place of the packet if
there is a greater number in the buffer. -/
theorem push_cases (hw : Window b k) (h : r.Ordered b k) (hp : b.InWindow k pkt.seq) :
    PushOutcome b r pkt (r.push pkt).1 := by
  have hlteD := hp.lte_eq hw.wf hw.narrow h.lastDelivered
  have hltA := hp.lt_eq hw.wf hw.narrow h.lastACK
  have heqM := hp.equals_inc_eq hw.wf hw.lt_max h.maxSeen
  have hlteM := hp.lte_eq hw.wf hw.narrow h.maxSeen
  have hDA := h.delivered_le_ack
  -- The counters of `Push` leave the numbers and the buffer alone, so the tests below are
  -- tests on the fields of `r`.
  unfold push
  simp only [show (r.countPush pkt).lastDeliveredSequenceNumber = r.lastDeliveredSequenceNumber
      from rfl, show (r.countPush pkt).lastACKSequenceNumber = r.lastACKSequenceNumber from rfl,
    show (r.countPush pkt).maxSeenSequenceNumber = r.maxSeenSequenceNumber from rfl,
    show (r.countPush pkt).packetList = r.packetList from rfl, hlteD, hltA, heqM, hlteM,
    decide_eq_true_eq]
  by_cases h1 : b.offset pkt.seq ≤ b.offset r.lastDeliveredSequenceNumber
  · rw [if_pos h1]
    exact .left rfl rfl (.inl (h1.trans hDA))
  rw [if_neg h1]
  by_cases h2 : b.offset pkt.seq < b.offset r.lastACKSequenceNumber
  · rw [if_pos h2]
    exact .left rfl rfl (.inl (Nat.le_of_lt h2))
  rw [if_neg h2]
  by_cases h3 : b.offset pkt.seq = b.offset r.maxSeenSequenceNumber + 1
  · rw [if_pos h3]
    exact h.append rfl rfl (by omega)
  rw [if_neg h3]
  by_cases h4 : b.offset pkt.seq ≤ b.offset r.maxSeenSequenceNumber
  · rw [if_pos h4]
    by_cases hex : ∃ q ∈ r.packetList, b.offset pkt.seq ≤ b.offset q.seq
    · rcases place_cases hw hp r.packetList h.packets h.sorted hex with
        ⟨hdup, hq⟩ | ⟨pre, post, hlist, hins, hpre, hpost⟩
      · rw [hdup]
        exact .left rfl rfl (.inr (.inl hq))
      · rw [hins]
        exact .put pre post hlist rfl (Or.inl rfl) (Nat.le_refl _) h4 hpre hpost (by omega)
    · -- Only after `Flush` there is no greater number in the buffer.
      have hlast : ∀ q ∈ r.packetList, b.offset q.seq < b.offset pkt.seq :=
        fun q hq => Nat.lt_of_not_le fun hle => hex ⟨q, hq, hle⟩
      rw [place_of_last hw hp r.packetList h.packets hlast]
      exact .left rfl rfl (.inr (.inr hlast))
  · rw [if_neg h4]
    exact h.append rfl rfl (by omega)

/-- `Push` does not touch the acknowledged number. -/
@[simp] theorem push_lastACKSequenceNumber (r : Receiver) (pkt : Packet) :
    (r.push pkt).1.lastACKSequenceNumber = r.lastACKSequenceNumber := by
  unfold push
  dsimp only
  repeat' split
  all_goals rfl

/-- `Push` does not touch the number delivered last. -/
@[simp] theorem push_lastDeliveredSequenceNumber (r : Receiver) (pkt : Packet) :
    (r.push pkt).1.lastDeliveredSequenceNumber = r.lastDeliveredSequenceNumber := by
  unfold push
  dsimp only
  repeat' split
  all_goals rfl

/-- The buffer after `Push` holds nothing but its old packets and the new one. -/
theorem PushOutcome.mem {r' : Receiver} (ho : PushOutcome b r pkt r') :
    ∀ p ∈ r'.packetList, p ∈ r.packetList ∨ p = pkt := by
  intro p hp
  cases ho with
  | left hlist _ _ =>
    rw [hlist] at hp
    exact Or.inl hp
  | put pre post hlist hlist' _ _ _ _ _ _ =>
    rw [hlist'] at hp
    rw [hlist]
    simp only [List.mem_append, List.mem_cons] at hp ⊢
    tauto

/-- `Push` keeps the invariant. -/
theorem Ordered.push (hw : Window b k) (h : r.Ordered b k) (hp : b.InWindow k pkt.seq) :
    (r.push pkt).1.Ordered b k := by
  have ho := push_cases hw h hp
  have hack := push_lastACKSequenceNumber r pkt
  have hdel := push_lastDeliveredSequenceNumber r pkt
  have hmem := ho.mem
  cases ho with
  | left hlist hmax _ => exact h.of_eq hmax hack hdel hlist
  | put pre post hlist hlist' hmax hforward hle hpre hpost habove =>
    have hsorted := h.sorted
    unfold Increasing at hsorted
    rw [hlist] at hsorted
    obtain ⟨hspre, hspost, hcross⟩ := List.pairwise_append.mp hsorted
    exact
      { maxSeen := by
          rcases hmax with hmax | hmax
          · rw [hmax]
            exact h.maxSeen
          · rw [hmax]
            exact hp
        lastACK := hack ▸ h.lastACK
        lastDelivered := hdel ▸ h.lastDelivered
        packets := by
          intro p hin
          rcases hmem p hin with hin | rfl
          · exact h.packets p hin
          · exact hp
        sorted := by
          unfold Increasing
          rw [hlist', List.pairwise_append, List.pairwise_cons]
          refine ⟨hspre, ⟨hpost, hspost⟩, ?_⟩
          intro p hin q hq
          rcases List.mem_cons.mp hq with rfl | hq
          · exact hpre p hin
          · exact hcross p hin q hq
        delivered_le_ack := by
          rw [hdel, hack]
          exact h.delivered_le_ack
        ack_le_maxSeen := by
          rw [hack]
          exact h.ack_le_maxSeen.trans hforward
        above := by
          intro p hin
          rw [hdel]
          rcases hmem p hin with hin | rfl
          · exact h.above p hin
          · exact habove
        below := by
          intro p hin
          rcases hmem p hin with hin | rfl
          · exact (h.below p hin).trans hforward
          · exact hle }

/-! ### The acknowledged number -/

/-- What the loop of `periodicACK` does on its way from `ack` to `ack'`. It ends at the number it
started from or at a number in the buffer, and it never moves back. Each number it moves over
is in the buffer, or a packet with a greater number was due at `now`. -/
structure AckMoves (b : Number) (now : UInt64) (ps : List Packet) (ack ack' : Number) : Prop where
  ends : ack' = ack ∨ ∃ p ∈ ps, p.seq = ack'
  forward : b.offset ack ≤ b.offset ack'
  covered : ∀ i, b.offset ack < i → i ≤ b.offset ack' →
    (∃ p ∈ ps, b.offset p.seq = i) ∨
    ∃ q ∈ ps, i < b.offset q.seq ∧ q.header.pktTsbpdTime ≤ now

theorem AckMoves.refl (b : Number) (now : UInt64) (ps : List Packet) (ack : Number) :
    AckMoves b now ps ack ack :=
  ⟨Or.inl rfl, Nat.le_refl _, fun _ h1 h2 => absurd h2 (Nat.not_le_of_lt h1)⟩

/-- A packet that is acknowledged already does not matter. -/
theorem AckMoves.skip {now : UInt64} {ps : List Packet} {ack ack' : Number}
    (h : AckMoves b now ps ack ack') (p : Packet) : AckMoves b now (p :: ps) ack ack' where
  ends := h.ends.imp_right fun ⟨q, hq, he⟩ => ⟨q, List.mem_cons_of_mem p hq, he⟩
  forward := h.forward
  covered := fun i h1 h2 => (h.covered i h1 h2).imp
    (fun ⟨q, hq, he⟩ => ⟨q, List.mem_cons_of_mem p hq, he⟩)
    (fun ⟨q, hq, he⟩ => ⟨q, List.mem_cons_of_mem p hq, he⟩)

/-- The loop moves to the number of a packet, and goes on from there. If it moves over numbers
that are not in the buffer, the packet is due. -/
theorem AckMoves.move {now : UInt64} {ps : List Packet} {ack ack' : Number} {p : Packet}
    (h : AckMoves b now ps p.seq ack') (hlt : b.offset ack < b.offset p.seq)
    (hgap : ∀ i, b.offset ack < i → i < b.offset p.seq → p.header.pktTsbpdTime ≤ now) :
    AckMoves b now (p :: ps) ack ack' where
  ends := by
    rcases h.ends with he | ⟨q, hq, he⟩
    · exact Or.inr ⟨p, List.mem_cons_self, he.symm⟩
    · exact Or.inr ⟨q, List.mem_cons_of_mem p hq, he⟩
  forward := Nat.le_trans (Nat.le_of_lt hlt) h.forward
  covered := by
    intro i h1 h2
    rcases Nat.lt_trichotomy i (b.offset p.seq) with hi | hi | hi
    · exact Or.inr ⟨p, List.mem_cons_self, hi, hgap i h1 hi⟩
    · exact Or.inl ⟨p, List.mem_cons_self, hi.symm⟩
    · exact (h.skip p).covered i hi h2

/-- The value of the last packet, from `p` on. -/
theorem getLast?_cons_getD {α : Type*} (f : Packet → α) (p : Packet) (ps : List Packet) (x : α) :
    ((p :: ps).getLast?.map f).getD x = (ps.getLast?.map f).getD (f p) := by
  rw [List.getLast?_cons]
  cases ps.getLast? with
  | none => rfl
  | some q => rfl

/-- The cases of the loop, in offsets. -/
theorem ackLoop_cons (hw : Window b k) (now minTime : UInt64) {ack : Number} (msBuf : UInt64)
    {p : Packet} (hack : b.InWindow k ack) (hp : b.InWindow k p.seq) (rest : List Packet) :
    ackLoop now minTime ack msBuf (p :: rest) =
      if b.offset p.seq ≤ b.offset ack then ackLoop now minTime ack msBuf rest
      else if p.header.pktTsbpdTime ≤ now then ackLoop now minTime p.seq msBuf rest
      else if b.offset p.seq = b.offset ack + 1 then
        ackLoop now minTime p.seq ((p.header.pktTsbpdTime - minTime) / 1000) rest
      else (ack, msBuf) := by
  simp only [ackLoop, hp.lte_eq hw.wf hw.narrow hack, hp.equals_inc_eq hw.wf hw.lt_max hack,
    decide_eq_true_eq]

/-- Induction on the buffer. The two branches that move forward are the two ways in which a
number is covered. -/
theorem ackLoop_spec (hw : Window b k) (now minTime : UInt64) :
    ∀ (ps : List Packet) (ack : Number) (msBuf : UInt64), b.InWindow k ack →
      (∀ p ∈ ps, b.InWindow k p.seq) →
      AckMoves b now ps ack (ackLoop now minTime ack msBuf ps).1 := by
  intro ps
  induction ps with
  | nil => exact fun ack msBuf _ _ => AckMoves.refl b now [] ack
  | cons p rest ih =>
    intro ack msBuf hack hwin
    obtain ⟨hp, hrest⟩ := List.forall_mem_cons.mp hwin
    rw [ackLoop_cons hw now minTime msBuf hack hp]
    by_cases h1 : b.offset p.seq ≤ b.offset ack
    · rw [if_pos h1]
      exact (ih ack msBuf hack hrest).skip p
    rw [if_neg h1]
    by_cases h2 : p.header.pktTsbpdTime ≤ now
    · rw [if_pos h2]
      exact (ih p.seq msBuf hp hrest).move (Nat.lt_of_not_le h1) fun _ _ _ => h2
    rw [if_neg h2]
    by_cases h3 : b.offset p.seq = b.offset ack + 1
    · rw [if_pos h3]
      exact (ih p.seq _ hp hrest).move (Nat.lt_of_not_le h1) fun i hi1 hi2 => by omega
    · rw [if_neg h3]
      exact AckMoves.refl b now _ ack

/-- What computing an ACK does. The acknowledged number moves forward only, the number sent
is the one after it, and each number it moves over is in the buffer or was given up: a
packet with a greater number was due at `now`. -/
structure AckStep (b : Number) (k : Nat) (r : Receiver) (now : UInt64) (r' : Receiver)
    (ack : Option Number) : Prop where
  ordered : Ordered b k r'
  packetList : r'.packetList = r.packetList
  lastDelivered : r'.lastDeliveredSequenceNumber = r.lastDeliveredSequenceNumber
  forward : b.offset r.lastACKSequenceNumber ≤ b.offset r'.lastACKSequenceNumber
  sent : ∀ n ∈ ack, n = r'.lastACKSequenceNumber.inc
  covered : ∀ i, b.offset r.lastACKSequenceNumber < i →
    i ≤ b.offset r'.lastACKSequenceNumber →
    (∃ p ∈ r.packetList, b.offset p.seq = i) ∨
    ∃ q ∈ r.packetList, i < b.offset q.seq ∧ q.header.pktTsbpdTime ≤ now

/-- What computing an ACK does to an ordered receiver. -/
theorem computeACK_spec (hw : Window b k) (h : Ordered b k r) (now : UInt64) :
    AckStep b k r now (r.computeACK now).1 (some (r.computeACK now).2) := by
  obtain ⟨hend, hle, hcov⟩ := ackLoop_spec hw now r.frontTsbpdTime r.packetList
    r.lastACKSequenceNumber r.statistics.msBuf h.lastACK h.packets
  have hack : b.InWindow k (r.computeACK now).1.lastACKSequenceNumber ∧
      b.offset (r.computeACK now).1.lastACKSequenceNumber
        ≤ b.offset r.maxSeenSequenceNumber := by
    show b.InWindow k (ackLoop _ _ _ _ _).1 ∧ b.offset (ackLoop _ _ _ _ _).1 ≤ _
    rcases hend with he | ⟨p, hp, he⟩
    · rw [he]
      exact ⟨h.lastACK, h.ack_le_maxSeen⟩
    · rw [← he]
      exact ⟨h.packets p hp, h.below p hp⟩
  exact
    { ordered :=
        { h with
          lastACK := hack.1
          delivered_le_ack := Nat.le_trans h.delivered_le_ack hle
          ack_le_maxSeen := hack.2 }
      packetList := rfl
      lastDelivered := rfl
      forward := hle
      sent := by
        intro n hn
        cases hn
        rfl
      covered := hcov }

/-- `periodicACK` does nothing, or it computes an ACK. -/
theorem periodicACK_spec (hw : Window b k) (h : Ordered b k r) (now : UInt64) :
    AckStep b k r now (r.periodicACK now).1 ((r.periodicACK now).2.map Prod.fst) := by
  have hsent := computeACK_spec hw h now
  unfold periodicACK
  split
  · split
    · exact hsent
    · exact
        { ordered := h
          packetList := rfl
          lastDelivered := rfl
          forward := Nat.le_refl _
          sent := by
            intro n hn
            cases hn
          covered := by
            intro i h1 h2
            exact absurd h2 (Nat.not_le_of_lt h1) }
  · exact hsent

/-! ### Delivery -/

/-- What the delivery part of `Tick` does: the buffer is split, and the number delivered last moves
to the end of the first part. -/
structure DeliveryStep (b : Number) (k : Nat) (r r' : Receiver) (packets : List Packet) :
    Prop where
  ordered : r'.Ordered b k
  split : r.packetList = packets ++ r'.packetList
  lastACK : r'.lastACKSequenceNumber = r.lastACKSequenceNumber
  forward : b.offset r.lastDeliveredSequenceNumber ≤ b.offset r'.lastDeliveredSequenceNumber
  above : ∀ p ∈ packets, b.offset r.lastDeliveredSequenceNumber < b.offset p.seq
  below : ∀ p ∈ packets, b.offset p.seq ≤ b.offset r'.lastDeliveredSequenceNumber

/-- A part of the buffer up to the packet `x` is handed over. -/
theorem Ordered.deliver {r' : Receiver} {packets rest : List Packet} {x : Packet}
    (h : r.Ordered b k) (hsplit : r.packetList = packets ++ rest)
    (hlast : packets.getLast? = some x)
    (hle : b.offset x.seq ≤ b.offset r.lastACKSequenceNumber)
    (hlist : r'.packetList = rest) (hmax : r'.maxSeenSequenceNumber = r.maxSeenSequenceNumber)
    (hack : r'.lastACKSequenceNumber = r.lastACKSequenceNumber)
    (hdel : r'.lastDeliveredSequenceNumber = x.seq) : DeliveryStep b k r r' packets := by
  have hx : x ∈ packets := List.mem_of_getLast? hlast
  have hfirst : ∀ p ∈ packets, p ∈ r.packetList := fun p hp => by
    rw [hsplit]
    exact List.mem_append_left _ hp
  have hrest : ∀ p ∈ rest, p ∈ r.packetList := fun p hp => by
    rw [hsplit]
    exact List.mem_append_right _ hp
  have hsorted := h.sorted
  unfold Increasing at hsorted
  rw [hsplit] at hsorted
  obtain ⟨hspackets, hsrest, hcross⟩ := List.pairwise_append.mp hsorted
  cases r'
  cases hlist
  cases hmax
  cases hack
  cases hdel
  exact
    { ordered :=
        { h with
          lastDelivered := h.packets x (hfirst x hx)
          packets := fun p hp => h.packets p (hrest p hp)
          sorted := hsrest
          delivered_le_ack := hle
          above := fun p hp => hcross x hx p hp
          below := fun p hp => h.below p (hrest p hp) }
      split := hsplit
      lastACK := rfl
      forward := Nat.le_of_lt (h.above x (hfirst x hx))
      above := fun p hp => h.above p (hfirst p hp)
      below := Increasing.le_getLast hspackets hlast }

/-- What a delivery takes from an ordered receiver. -/
theorem tickDeliver_spec (hw : Window b k) (h : r.Ordered b k) (now : UInt64) :
    DeliveryStep b k r (r.tickDeliver now).1 (r.tickDeliver now).2 := by
  have hsplit := (List.takeWhile_append_dropWhile (p := r.due now) (l := r.packetList)).symm
  cases hlast : (r.packetList.takeWhile (r.due now)).getLast? with
  | none =>
    -- Nothing is due, and nothing changes but the counters.
    have hnil := List.getLast?_eq_none_iff.mp hlast
    have hlist : (r.tickDeliver now).1.packetList = r.packetList := by
      rw [hnil] at hsplit
      exact hsplit.symm
    have hdel : (r.tickDeliver now).1.lastDeliveredSequenceNumber
        = r.lastDeliveredSequenceNumber := by
      show ((r.packetList.takeWhile (r.due now)).getLast?.map Packet.seq).getD _ = _
      rw [hlast]
      rfl
    have hempty : (r.tickDeliver now).2 = [] := hnil
    rw [hempty]
    exact
      { ordered := h.of_eq rfl rfl hdel hlist
        split := hlist.symm
        lastACK := rfl
        forward := Nat.le_of_eq (congrArg b.offset hdel.symm)
        above := fun p hp => by cases hp
        below := fun p hp => by cases hp }
  | some x =>
    have hx := List.mem_of_getLast? hlast
    have hdue := List.mem_takeWhile_imp hx
    have hmem := (List.takeWhile_sublist (r.due now)).subset hx
    unfold due at hdue
    rw [Bool.and_eq_true, (h.packets x hmem).lte_eq hw.wf hw.narrow h.lastACK,
      decide_eq_true_eq] at hdue
    refine h.deliver hsplit hlast hdue.1 rfl rfl rfl ?_
    show ((r.packetList.takeWhile (r.due now)).getLast?.map Packet.seq).getD _ = _
    rw [hlast]
    rfl

end

end Receiver

end Gosrt
