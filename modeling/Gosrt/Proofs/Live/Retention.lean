import Gosrt.Proofs.Live.Send
import Gosrt.Spec.Live.Runs

/-!
# `Gosrt.Proofs.Live.Retention`: how long the live sender keeps a packet

`Tick` discards a packet of the loss list when the drop threshold has passed since its time.
The time is the send time that the packet had at `Push`, with one exception. A packet whose number
is 1 modulo 16 gets the time that was remembered for the packet before it. If the first packet of
the connection has such a number, nothing was remembered, and its time is 0.

`Spans` has the times in the sender between two bounds. `retains_iff` says for which configurations
and send times no packet is discarded too early. There is a second exception: the sum of time and
threshold is a `uint64` and must not wrap.
-/

set_option autoImplicit false

namespace Gosrt

open Lib

namespace Sending

/-! ### What is discarded -/

/-- The send time of a `Push`. -/
def sendTime? : Event → Option UInt64
  | .push p => some p.header.pktTsbpdTime
  | _ => none

/-- The packets that an event discards as too late, with the time of the event. -/
def discards (s : Sending) : Event → List (UInt64 × Packet)
  | .tickDrop now => (s.sender.tickDrop now).2.map (now, ·)
  | .tick now => (s.sender.tick now).2.2.map (now, ·)
  | _ => []

/-- What the event discards has been kept for the drop threshold after the time `start`. -/
def Kept (start : Nat) (s : Sending) (e : Event) : Prop :=
  ∀ d ∈ s.discards e, start + s.sender.dropThreshold.toNat ≤ d.1.toNat

instance (start : Nat) (s : Sending) (e : Event) : Decidable (s.Kept start e) :=
  inferInstanceAs (Decidable (∀ d ∈ s.discards e, _))

/-- Whatever is discarded in the run has been kept for the drop threshold after the smallest send
time. -/
def Retains (config : SendConfig) (events : List Event) : Prop :=
  ∀ t ∈ events.filterMap sendTime?, (∀ u ∈ events.filterMap sendTime?, t ≤ u) →
    RunMeets step (Kept t.toNat) (init config) events

-- Decided over the times of the run, not over all times that there are.
instance (config : SendConfig) (events : List Event) : Decidable (Retains config events) :=
  have (t : UInt64) : Decidable (∀ u ∈ events.filterMap sendTime?, t ≤ u) :=
    List.decidableBAll _ _
  List.decidableBAll _ _

/-- The events are calls of `Push`, `Tick`, `ACK` and `NAK`. The send times do not decrease and are
not after `limit`. -/
structure Writes (limit : UInt64) (events : List Event) : Prop where
  sorted : (events.filterMap sendTime?).Pairwise (· ≤ ·)
  bounded : ∀ t ∈ events.filterMap sendTime?, t ≤ limit
  fixed : ∀ threshold, .setDropThreshold threshold ∉ events

end Sending

/-! ### The times in the sender -/

/-- The number after one that is not 0 modulo 16 is not 1. The modulus is a multiple of 16, so this
is true over the wrap, too. -/
theorem Number.mod_of_inc {n : Number} (h : n.inc.val.toNat % 16 = 1) : n.val.toNat % 16 = 0 := by
  unfold inc at h
  split at h
  · cases h
  · have hval : ({ n with value := n.value + 1 } : Number).val.toNat
        = (n.val.toNat + 1) % 2 ^ 32 := UInt32.toNat_add n.value 1
    rw [hval] at h
    omega

namespace Sender

/-- The bits that `Push` looks at. -/
theorem probe_iff (x i : UInt32) : x &&& 0xF = i ↔ x.toNat % 16 = i.toNat := by
  rw [← UInt32.toNat_inj, UInt32.toNat_and]
  show x.toNat &&& (2 ^ 4 - 1) = i.toNat ↔ _
  rw [Nat.and_two_pow_sub_one_eq_mod]

/-- The time of a packet after `Push`. -/
def sendTime (s : Sender) (p : Packet) : UInt64 :=
  if s.nextSequenceNumber.val.toNat % 16 = 1 then s.probeTime else p.header.pktTsbpdTime

/-- What `Push` does to the times. -/
theorem push_times (s : Sender) (p : Packet) :
    (∃ q, (s.push p).packetList = s.packetList ++ [q] ∧
      q.header.pktTsbpdTime = s.sendTime p) ∧
    (s.push p).probeTime = (if s.nextSequenceNumber.val.toNat % 16 = 0
      then p.header.pktTsbpdTime else s.probeTime) := by
  have hone : (s.numbered p).seq.val &&& 0xF = 1 ↔ s.nextSequenceNumber.val.toNat % 16 = 1 :=
    probe_iff s.nextSequenceNumber.val 1
  have hzero : (s.numbered p).seq.val &&& 0xF = 0 ↔ s.nextSequenceNumber.val.toNat % 16 = 0 :=
    probe_iff s.nextSequenceNumber.val 0
  unfold push sendTime
  simp only [hone, hzero]
  refine ⟨⟨_, rfl, ?_⟩, rfl⟩
  split
  · rfl
  · rfl

/-- The times in the sender are between two bounds. So is the remembered one, if it is used next. -/
structure Spans (low high : Nat) (s : Sender) : Prop where
  queued : ∀ p ∈ s.packetList,
    low ≤ p.header.pktTsbpdTime.toNat ∧ p.header.pktTsbpdTime.toNat ≤ high
  sent : ∀ p ∈ s.lossList,
    low ≤ p.header.pktTsbpdTime.toNat ∧ p.header.pktTsbpdTime.toNat ≤ high
  probe : s.nextSequenceNumber.val.toNat % 16 = 1 →
    low ≤ s.probeTime.toNat ∧ s.probeTime.toNat ≤ high

section
variable {low high : Nat} {s : Sender}

theorem Spans.push (h : s.Spans low high) {p : Packet}
    (hp : low ≤ p.header.pktTsbpdTime.toNat ∧ p.header.pktTsbpdTime.toNat ≤ high) :
    (s.push p).Spans low high := by
  obtain ⟨⟨q, hlist, htime⟩, hprobe⟩ := s.push_times p
  constructor
  · intro x hx
    rw [hlist] at hx
    rcases List.mem_append.mp hx with hx | hx
    · exact h.queued x hx
    · rw [List.mem_singleton.mp hx, htime]
      unfold sendTime
      split
      · rename_i hone
        exact h.probe hone
      · exact hp
  · exact h.sent
  · -- A number that is 1 modulo 16 comes after one that is 0, whose time is remembered.
    intro hone
    rw [hprobe, if_pos (Number.mod_of_inc hone)]
    exact hp

theorem Spans.tickDeliver (h : s.Spans low high) (now : UInt64) :
    (s.tickDeliver now).1.Spans low high where
  queued := fun p hp => h.queued p ((List.dropWhile_sublist _).subset hp)
  sent := by
    intro p hp
    rcases List.mem_append.mp hp with hp | hp
    · exact h.sent p hp
    · exact h.queued p (mem_of_mem_tickDeliver hp)
  probe := h.probe

theorem Spans.tickDrop (h : s.Spans low high) (now : UInt64) : (s.tickDrop now).1.Spans low high :=
  { h with sent := fun p hp => h.sent p (List.mem_filter.mp hp).1 }

theorem Spans.tickRate (h : s.Spans low high) (now : UInt64) :
    (s.tickRate now).Spans low high := by
  unfold Sender.tickRate
  split
  · exact ⟨h.queued, h.sent, h.probe⟩
  · exact h

theorem Spans.ack (h : s.Spans low high) (n : Number) : (s.ack n).1.Spans low high :=
  { h with sent := fun p hp => h.sent p ((List.dropWhile_sublist _).subset hp) }

/-- `NAK` sets a flag and leaves the times alone. -/
theorem Spans.nak (h : s.Spans low high) {ns : List Number} (heven : ns.length % 2 = 0)
    {s' : Sender} {sent : List Packet} (hn : s.nak ns = some (s', sent)) :
    s'.Spans low high ∧ s'.dropThreshold = s.dropThreshold := by
  -- The loop over the resent packets counts them and does nothing else.
  have hfold : ∀ (ps : List Packet) (t : Sender),
      (ps.foldl countRetrans t).packetList = t.packetList ∧
      (ps.foldl countRetrans t).nextSequenceNumber = t.nextSequenceNumber ∧
      (ps.foldl countRetrans t).probeTime = t.probeTime ∧
      (ps.foldl countRetrans t).dropThreshold = t.dropThreshold := by
    intro ps
    induction ps with
    | nil => exact fun _ => ⟨rfl, rfl, rfl, rfl⟩
    | cons p rest ih => exact fun t => ih (t.countRetrans p)
  obtain ⟨hqueue, hnext, hprobe, hthreshold⟩ := hfold (resent ns s.lossList) s
  rw [nak_of_even heven] at hn
  cases hn
  refine ⟨⟨?_, ?_, ?_⟩, hthreshold⟩
  · rw [hqueue]
    exact h.queued
  · intro p hp
    obtain ⟨q, hq, rfl⟩ := List.mem_map.mp hp
    have htime : (flagged ns q).header.pktTsbpdTime = q.header.pktTsbpdTime := by
      unfold flagged
      split
      · rfl
      · rfl
    rw [htime]
    exact h.sent q hq
  · intro hone
    rw [hprobe]
    exact h.probe (by rw [← hnext]; exact hone)

/-- A packet that is too old, where the sum does not wrap. -/
theorem Spans.of_tooOld (h : s.Spans low high) (hsum : high + s.dropThreshold.toNat < 2 ^ 64)
    {now : UInt64} {p : Packet} (hp : p ∈ s.lossList) (hold : s.tooOld now p = true) :
    low + s.dropThreshold.toNat ≤ now.toNat := by
  obtain ⟨hlow, hhigh⟩ := h.sent p hp
  have hle := UInt64.le_iff_toNat_le.mp (of_decide_eq_true hold)
  rw [UInt64.toNat_add, Nat.mod_eq_of_lt (by omega)] at hle
  omega

end

end Sender

/-! ### Runs -/

namespace Sending

section
variable {low high : Nat} {s s' : Sending} {e : Event}

/-- An event whose send time, if it has one, is between the bounds. -/
theorem spans_of_step (h : s.sender.Spans low high)
    (hp : ∀ t ∈ sendTime? e, low ≤ t.toNat ∧ t.toNat ≤ high)
    (hfixed : ∀ threshold, e ≠ .setDropThreshold threshold) (hs : s.step e = some s') :
    s'.sender.Spans low high ∧ s'.sender.dropThreshold = s.sender.dropThreshold := by
  have hrate : ∀ (t : Sender) (now : UInt64), (t.tickRate now).dropThreshold = t.dropThreshold := by
    intro t now
    unfold Sender.tickRate
    split
    · rfl
    · rfl
  cases e with
  | push p =>
    cases hs
    exact ⟨h.push (hp _ rfl), rfl⟩
  | tickDeliver now =>
    cases hs
    exact ⟨h.tickDeliver now, rfl⟩
  | tickDrop now =>
    cases hs
    exact ⟨h.tickDrop now, rfl⟩
  | tickRate now =>
    cases hs
    exact ⟨h.tickRate now, hrate _ now⟩
  | tick now =>
    cases hs
    exact ⟨((h.tickDeliver now).tickDrop now).tickRate now, hrate _ now⟩
  | ack n =>
    cases hs
    exact ⟨h.ack n, rfl⟩
  | nak ns =>
    simp only [step] at hs
    split at hs
    · rename_i heven
      obtain ⟨out, hn, rfl⟩ := Option.map_eq_some_iff.mp hs
      exact h.nak heven hn
    · cases hs
  | setDropThreshold threshold => exact absurd rfl (hfixed threshold)

/-- What is discarded is in the loss list and too old. -/
theorem kept_of_spans (h : s.sender.Spans low high)
    (hsum : high + s.sender.dropThreshold.toNat < 2 ^ 64) : s.Kept low e := by
  intro d hd
  cases e with
  | tickDrop now =>
    obtain ⟨p, hp, rfl⟩ := List.mem_map.mp hd
    obtain ⟨hmem, hold⟩ := List.mem_filter.mp hp
    exact h.of_tooOld hsum hmem hold
  | tick now =>
    obtain ⟨p, hp, rfl⟩ := List.mem_map.mp hd
    obtain ⟨hmem, hold⟩ := List.mem_filter.mp hp
    exact (h.tickDeliver now).of_tooOld hsum hmem hold
  | push p => cases hd
  | tickDeliver now => cases hd
  | tickRate now => cases hd
  | ack n => cases hd
  | nak ns => cases hd
  | setDropThreshold threshold => cases hd

end

variable {config : SendConfig} {limit : UInt64}

/-- No packet is discarded too early where the first packet keeps its time and no sum wraps. -/
theorem retains_of (hsum : limit.toNat + config.dropThreshold.toNat < 2 ^ 64)
    (hfirst : config.initialSequenceNumber.val.toNat % 16 ≠ 1 ∨ limit = 0) {events : List Event}
    (h : Writes limit events) : Retains config events := by
  intro t ht hmin
  have hlimit := UInt64.le_iff_toNat_le.mp (h.bounded t ht)
  have hmeets : RunMeets step (fun _ e =>
      (∀ u ∈ sendTime? e, t.toNat ≤ u.toNat ∧ u.toNat ≤ limit.toNat) ∧
        ∀ threshold, e ≠ .setDropThreshold threshold) (init config) events := by
    refine runMeets_of_forall (fun e he _ => ⟨?_, ?_⟩) _
    · intro u hu
      have hmem : u ∈ events.filterMap sendTime? := List.mem_filterMap.mpr ⟨e, he, hu⟩
      exact ⟨UInt64.le_iff_toNat_le.mp (hmin u hmem), UInt64.le_iff_toNat_le.mp (h.bounded u hmem)⟩
    · rintro threshold rfl
      exact h.fixed threshold he
  refine runMeets_of
    (fun s => s.sender.Spans t.toNat limit.toNat ∧ s.sender.dropThreshold = config.dropThreshold)
    ?_ ?_ hmeets ⟨⟨?_, ?_, ?_⟩, rfl⟩
  · intro s e s' hC hP hs
    obtain ⟨hspans, hthreshold⟩ := spans_of_step hP.1 hC.1 hC.2 hs
    exact ⟨hspans, hthreshold.trans hP.2⟩
  · intro s e _ hP
    exact kept_of_spans hP.1 (by rw [hP.2]; exact hsum)
  · intro p hp
    cases hp
  · intro p hp
    cases hp
  · -- Nothing is remembered yet. The time 0 is right only if all send times are 0.
    intro hone
    have hzero : limit.toNat = 0 := by
      rw [hfirst.resolve_left (not_not.mpr hone)]
      rfl
    show t.toNat ≤ 0 ∧ 0 ≤ limit.toNat
    omega

/-- A packet that is pushed, delivered and discarded, before the threshold has passed since its send
time. -/
theorem not_retains {p : Packet} {now : UInt64}
    (hdue : (newSender config).sendTime p ≤ now)
    (hold : (newSender config).sendTime p + config.dropThreshold ≤ now)
    (hearly : ¬p.header.pktTsbpdTime.toNat + config.dropThreshold.toNat ≤ now.toNat) :
    ¬Retains config [.push p, .tick now] := by
  intro h
  obtain ⟨⟨q, hlist, htime⟩, -⟩ := (newSender config).push_times p
  have hmin : ∀ u ∈ [Event.push p, .tick now].filterMap sendTime?, p.header.pktTsbpdTime ≤ u := by
    intro u hu
    rw [List.mem_singleton.mp hu]
    exact UInt64.le_refl _
  have hkept := ((h p.header.pktTsbpdTime List.mem_cons_self hmin).2 _ rfl).1
  refine hearly (hkept (now, q) (List.mem_map.mpr ⟨q, List.mem_filter.mpr ⟨?_, ?_⟩, rfl⟩))
  · show q ∈ [] ++ ((newSender config).push p).packetList.takeWhile _
    rw [hlist, List.nil_append, show (newSender config).packetList = [] from rfl, List.nil_append,
      List.takeWhile_cons_of_pos (by rw [htime]; exact decide_eq_true hdue)]
    exact List.mem_cons_self
  · show decide (q.header.pktTsbpdTime + config.dropThreshold ≤ now) = true
    rw [htime]
    exact decide_eq_true hold

/-- For every initial sequence number, every drop threshold and every bound on the send times: in
all runs with send times that do not decrease, a packet is discarded only after the drop threshold
has passed since the smallest send time, exactly if the first packet keeps its time (its number is
not 1 modulo 16, or all send times are 0) and no sum of a send time and the threshold wraps. -/
theorem retains_iff (config : SendConfig) (limit : UInt64) :
    (∀ events, Writes limit events → Retains config events) ↔
      limit.toNat + config.dropThreshold.toNat < 2 ^ 64 ∧
        (config.initialSequenceNumber.val.toNat % 16 ≠ 1 ∨ limit = 0) := by
  constructor
  · intro h
    have hlimit := limit.toNat_lt
    have hD := config.dropThreshold.toNat_lt
    -- One packet, with the greatest send time.
    let p : Packet := ⟨{ (newPacket none).header with pktTsbpdTime := limit }, []⟩
    have hwrites : ∀ now, Writes limit [.push p, .tick now] := by
      intro now
      refine ⟨List.pairwise_singleton _ _, ?_, ?_⟩
      · intro t ht
        rw [List.mem_singleton.mp ht]
        exact UInt64.le_refl _
      · intro threshold hmem
        simp at hmem
    have hfirst : config.initialSequenceNumber.val.toNat % 16 ≠ 1 ∨ limit = 0 := by
      by_contra hcon
      rw [not_or, not_not] at hcon
      -- The packet gets the time 0, so it is too old as soon as the clock is at the threshold.
      have hpos : limit.toNat ≠ 0 := fun he => hcon.2 (UInt64.toNat_inj.mp he)
      have htime : (newSender config).sendTime p = 0 := if_pos hcon.1
      refine not_retains (p := p) ?_ ?_ ?_ (h _ (hwrites config.dropThreshold))
      · rw [htime]
        exact UInt64.zero_le
      · rw [htime, UInt64.zero_add]
        exact UInt64.le_refl _
      · show ¬limit.toNat + config.dropThreshold.toNat ≤ config.dropThreshold.toNat
        omega
    refine ⟨?_, hfirst⟩
    by_contra hwrap
    -- The sum wraps to a time before the send time, so the packet is too old when it is sent.
    have hne : limit ≠ 0 := by
      rintro rfl
      exact hwrap (by simpa using hD)
    have htime : (newSender config).sendTime p = limit := if_neg (hfirst.resolve_right hne)
    refine not_retains (p := p) ?_ ?_ ?_ (h _ (hwrites limit))
    · rw [htime]
      exact UInt64.le_refl _
    · rw [htime, UInt64.le_iff_toNat_le, UInt64.toNat_add]
      omega
    · show ¬limit.toNat + config.dropThreshold.toNat ≤ limit.toNat
      omega
  · rintro ⟨hsum, hfirst⟩ events h
    exact retains_of hsum hfirst h

/-- The initial sequence number is 1, and the drop threshold one second. -/
def oddConfig : SendConfig where
  initialSequenceNumber := Number.new 1 maxSequenceNumber
  dropThreshold := 1000000

/-- A packet that is sent at five seconds. -/
def oddRun : List Event :=
  [.push { newPacket none with
      header := { (newPacket none).header with pktTsbpdTime := 5000000 } },
   .tick 5000000]

/-- It is discarded at once. -/
theorem oddRun_discards :
    Writes 5000000 oddRun ∧ ¬Retains oddConfig oddRun ∧
      (runD step (init oddConfig) oddRun).dropped.length = 1 :=
  ⟨⟨by decide, List.forall_mem_singleton.mpr (UInt64.le_refl _), by simp [oddRun]⟩,
    by decide +kernel, by decide +kernel⟩

end Sending

end Gosrt
