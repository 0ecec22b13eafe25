import Gosrt.Proofs.Live.Receiving
import Gosrt.Spec.Live.Reports

/-!
# `Gosrt.Proofs.Live.Reports`: `MsBuf` and the times of acknowledgements

The buffer is sorted by number. The peer chooses the times, so they can be in any order, and the
front of the buffer need not have the smallest one. `MsBuf` is a difference to the time of the
front. It wraps for a packet that is due before the front and is acknowledged because it is the
next one (`earlierRun_wraps`). Where each packet comes with a time that fits its number, the times
of the buffer are sorted too, and nothing wraps (`msBuf_bounded_of_inTimeOrder`).

Light and full acknowledgements share the time of the last one. So a light one puts off the next
full one (`punctual_iff`).
-/

set_option autoImplicit false

namespace Gosrt

open Lib

/-! ### `MsBuf` -/

/-- A difference of `uint64` is the difference of the numbers where it does not wrap. -/
theorem toNat_sub_add_iff {x y : UInt64} : (x - y).toNat + y.toNat = x.toNat ↔ y ≤ x := by
  have hx := x.toNat_lt
  have hy := y.toNat_lt
  rw [UInt64.le_iff_toNat_le, UInt64.toNat_sub]
  omega

namespace Receiver

variable {r : Receiver}

/-- The loop of `periodicACK` ends with the value of the last update. -/
theorem ackLoop_msBuf (now minTime : UInt64) (ps : List Packet) :
    ∀ (ack : Number) (msBuf : UInt64),
      (ackLoop now minTime ack msBuf ps).2
        = ((msBufPackets now ack ps).getLast?.map
            fun p => (p.header.pktTsbpdTime - minTime) / 1000).getD msBuf := by
  induction ps with
  | nil => exact fun _ _ => rfl
  | cons p rest ih =>
    intro ack msBuf
    simp only [ackLoop, msBufPackets]
    split
    · exact ih ack msBuf
    split
    · exact ih p.seq msBuf
    split
    · -- The value of this round is kept if no later round stores one.
      rw [ih p.seq, getLast?_cons_getD]
    · rfl

/-- `periodicACK` leaves the value of its last update. -/
theorem periodicACK_msBuf (r : Receiver) (now : UInt64) :
    (r.periodicACK now).1.statistics.msBuf
      = ((r.msBufUpdates now).getLast?.map r.msBufOf).getD r.statistics.msBuf := by
  have hloop := ackLoop_msBuf now r.frontTsbpdTime r.packetList r.lastACKSequenceNumber
    r.statistics.msBuf
  unfold msBufUpdates periodicACK
  split
  · split
    · exact hloop
    · rfl
  · exact hloop

theorem mem_of_mem_msBufPackets {now : UInt64} {ps : List Packet} {p : Packet} :
    ∀ {ack : Number}, p ∈ msBufPackets now ack ps → p ∈ ps := by
  induction ps with
  | nil => exact fun h => h
  | cons q rest ih =>
    intro ack h
    simp only [msBufPackets] at h
    split at h
    · exact List.mem_cons_of_mem _ (ih h)
    split at h
    · exact List.mem_cons_of_mem _ (ih h)
    split at h
    · rcases List.mem_cons.mp h with rfl | h
      · exact List.mem_cons_self
      · exact List.mem_cons_of_mem _ (ih h)
    · cases h

theorem mem_of_mem_msBufUpdates {now : UInt64} {p : Packet} (h : p ∈ r.msBufUpdates now) :
    p ∈ r.packetList := by
  unfold msBufUpdates at h
  split at h
  · exact mem_of_mem_msBufPackets h
  · cases h

theorem push_msBuf (r : Receiver) (p : Packet) :
    (r.push p).1.statistics.msBuf = r.statistics.msBuf := by
  unfold push
  dsimp only
  repeat' split
  all_goals rfl

theorem periodicNAK_msBuf (r : Receiver) (now : UInt64) :
    (r.periodicNAK now).1.statistics.msBuf = r.statistics.msBuf := by
  unfold periodicNAK
  split
  · rfl
  · rfl

theorem tickRate_msBuf (r : Receiver) (now : UInt64) :
    (r.tickRate now).statistics.msBuf = r.statistics.msBuf := by
  unfold tickRate
  split
  · rfl
  · rfl

/-- The front of a buffer that is not empty. -/
theorem exists_front {p : Packet} (h : p ∈ r.packetList) :
    ∃ q ∈ r.packetList, q.header.pktTsbpdTime = r.frontTsbpdTime := by
  unfold frontTsbpdTime
  cases hlist : r.packetList with
  | nil =>
    rw [hlist] at h
    cases h
  | cons q rest => exact ⟨q, List.mem_cons_self, rfl⟩

/-- Two times in the buffer are not further apart than its span. -/
theorem sub_le_bufferSpan {p q : Packet} (hp : p ∈ r.packetList) (hq : q ∈ r.packetList) :
    p.header.pktTsbpdTime.toNat - q.header.pktTsbpdTime.toNat ≤ r.bufferSpan := by
  have hmax := List.le_max?_getD_of_mem (k := 0)
    (List.mem_map_of_mem (f := fun x : Packet => x.header.pktTsbpdTime.toNat) hp)
  have hmin := List.min?_getD_le_of_mem (k := 0)
    (List.mem_map_of_mem (f := fun x : Packet => x.header.pktTsbpdTime.toNat) hq)
  unfold bufferSpan
  dsimp only
  omega

end Receiver

namespace Receiving

/-- The times of the buffer follow its numbers. -/
def TimesFollow (s : Receiving) : Prop :=
  ∀ p ∈ s.receiver.packetList, ∀ q ∈ s.receiver.packetList, p.seq.Before q.seq →
    p.header.pktTsbpdTime ≤ q.header.pktTsbpdTime

section
variable {s s' : Receiving} {e : Event}

/-- What `Push`, `periodicNAK`, the delivery and the rates leave alone is changed by the part of
`Tick` that acknowledges only. -/
theorem ackPart_of_step {α : Type} (f : Receiver → α)
    (hpush : ∀ r p, f (r.push p).1 = f r) (hnak : ∀ r now, f (r.periodicNAK now).1 = f r)
    (hdeliver : ∀ r now, f (r.tickDeliver now).1 = f r)
    (hrate : ∀ r now, f (r.tickRate now) = f r) (h : s.step e = some s') :
    f s'.receiver
      = ((ackTime? e).map fun now => f (s.receiver.periodicACK now).1).getD (f s.receiver) := by
  cases e with
  | push p =>
    simp only [step] at h
    split at h
    · cases h
      exact hpush s.receiver p
    · cases h
  | tickACK now =>
    cases h
    rfl
  | tickNAK now =>
    cases h
    exact hnak s.receiver now
  | tickDeliver now =>
    cases h
    exact hdeliver s.receiver now
  | tickRate now =>
    cases h
    exact hrate s.receiver now
  | tick now =>
    cases h
    rw [tick_eq]
    show f ((((s.receiver.periodicACK now).1.periodicNAK now).1.tickDeliver now).1.tickRate now)
      = f (s.receiver.periodicACK now).1
    rw [hrate, hdeliver, hnak]

/-- The step lemma: the packets of the buffer were there before, or one of them is pushed now, and
its time fits all others. -/
theorem TimesFollow.step (h : s.TimesFollow) (horder : s.InTimeOrder e)
    (hs : s.step e = some s') : s'.TimesFollow := by
  have hmem : ∀ q ∈ s'.receiver.packetList, q ∈ pushed? e ∨ q ∈ s.receiver.packetList := by
    intro q hq
    have hparts := step_parts
      (P := fun l t => ∀ q ∈ t.receiver.packetList, q ∈ l ∨ q ∈ s.receiver.packetList)
      (fun l t p _ ht q hq => by
        rcases (t.receiver.pushed_push p).mem hq with rfl | hq
        · exact Or.inl (List.mem_append_right _ List.mem_cons_self)
        · exact (ht q hq).imp_left (List.mem_append_left _))
      (fun l t r hr ht q hq => ht q (hr.packetList ▸ hq))
      (fun l t now ht q hq => ht q ((List.dropWhile_sublist _).subset hq))
      (l := []) (fun q hq => Or.inr hq) hs q hq
    exact hparts.imp_left Option.mem_toList.mp
  intro p hp q hq hbefore
  rcases hmem p hp with hp | hp
  · rcases hmem q hq with hq | hq
    · rw [Option.mem_unique hp hq] at hbefore
      exact absurd hbefore (Number.not_before_self _)
    · exact (horder p hp q hq).2 hbefore
  · rcases hmem q hq with hq | hq
    · exact (horder q hq p hp).1 hbefore
    · exact h p hp q hq hbefore

/-- The neighbours of the buffer have their numbers in order, so its times are sorted, and the front
is due first. -/
theorem front_le (hchained : s.receiver.Chained) (h : s.TimesFollow) {p : Packet}
    (hp : p ∈ s.receiver.packetList) :
    s.receiver.frontTsbpdTime ≤ p.header.pktTsbpdTime := by
  have hnumbers : s.receiver.packetList.IsChain fun p q => p.seq.Before q.seq :=
    (List.isChain_map _).mp (List.isChain_cons.mp hchained.chain).2
  have htimes : s.receiver.packetList.IsChain
      fun p q => p.header.pktTsbpdTime ≤ q.header.pktTsbpdTime :=
    List.IsChain.imp_of_mem_imp (fun p q hp hq hbefore => h p hp q hq hbefore) hnumbers
  have htrans : IsTrans Packet fun p q => p.header.pktTsbpdTime ≤ q.header.pktTsbpdTime :=
    ⟨fun _ _ _ => UInt64.le_trans⟩
  have hsorted := List.isChain_iff_pairwise.mp htimes
  unfold Receiver.frontTsbpdTime
  cases hlist : s.receiver.packetList with
  | nil =>
    rw [hlist] at hp
    cases hp
  | cons q rest =>
    rw [hlist] at hp hsorted
    rcases List.mem_cons.mp hp with rfl | hp
    · exact UInt64.le_refl _
    · exact (List.pairwise_cons.mp hsorted).1 p hp

/-- Where the front is due first, `MsBuf` is bounded: each update is a difference of two times of
the buffer, and the statistics have the last of them. -/
theorem msBufBounded_of_front (e : Event) (hfront : ∀ p ∈ s.receiver.packetList,
    s.receiver.frontTsbpdTime ≤ p.header.pktTsbpdTime) : s.MsBufBounded e := by
  have hupdate : ∀ now, ∀ p ∈ s.receiver.msBufUpdates now,
      (s.receiver.msBufOf p).toNat ≤ s.receiver.bufferSpan / 1000 := by
    intro now p hp
    have hmem := Receiver.mem_of_mem_msBufUpdates hp
    obtain ⟨q, hq, htime⟩ := Receiver.exists_front hmem
    have hspan := Receiver.sub_le_bufferSpan hmem hq
    unfold Receiver.msBufOf
    rw [UInt64.toNat_div, UInt64.toNat_sub_of_le _ _ (hfront p hmem), ← htime]
    exact Nat.div_le_div_right hspan
  constructor
  · intro now _ p hp
    exact ⟨toNat_sub_add_iff.mpr (hfront p (Receiver.mem_of_mem_msBufUpdates hp)),
      hupdate now p hp⟩
  · intro s' hs'
    have hmsBuf := ackPart_of_step (fun r => r.statistics.msBuf) Receiver.push_msBuf
      Receiver.periodicNAK_msBuf (fun _ _ => rfl) Receiver.tickRate_msBuf hs'
    rw [hmsBuf]
    cases ackTime? e with
    | none => exact Or.inl rfl
    | some now =>
      rw [Option.map_some, Option.getD_some, Receiver.periodicACK_msBuf]
      cases hlast : (s.receiver.msBufUpdates now).getLast? with
      | none => exact Or.inl rfl
      | some p => exact Or.inr (hupdate now p (List.mem_of_getLast? hlast))

end

/-- In every run in which the time of each pushed packet fits its number, each value that is stored
in `MsBuf` is bounded by the times in the buffer and no subtraction wraps. -/
theorem msBuf_bounded_of_inTimeOrder (config : ReceiveConfig)
    (hinit : config.initialSequenceNumber.IsSequenceNumber) (events : List Event)
    (horder : RunMeets step InTimeOrder (init config) events) :
    RunMeets step MsBufBounded (init config) events := by
  refine runMeets_of (P := fun s => s.Inv config.initialSequenceNumber.dec ∧ s.TimesFollow)
    ?_ ?_ horder ⟨inv_init hinit, fun p hp => absurd hp List.not_mem_nil⟩
  · intro s e s' he h hs
    refine ⟨?_, h.2.step he hs⟩
    exact step_parts (P := fun _ t => t.Inv config.initialSequenceNumber.dec) (l := [])
      (fun _ _ _ hp ht => ht.push hp) (fun _ _ _ hr ht => ht.of_sameBuffer hr)
      (fun _ _ now ht => ht.tickDeliver now) h.1 hs
  · intro s e _ h
    exact msBufBounded_of_front e fun p hp => front_le h.1.chained h.2 hp

/-- A packet is missing and comes late, with a time between those of its neighbours. None is due
yet. -/
def orderedRun : List Event :=
  [.push (samplePacket 5 100000), .push (samplePacket 7 120000), .push (samplePacket 6 110000),
    .tick 10, .tick 115000, .push (samplePacket 8 150000), .tick 115020]

/-- The first value is the time between the first and the third packet. The second one is the time
between the two packets that are left. -/
theorem msBuf_bounded_orderedRun :
    RunMeets step MsBufBounded (init sampleConfig) orderedRun ∧
    (runD step (init sampleConfig) (orderedRun.take 4)).receiver.statistics.msBuf = 20 ∧
    (runD step (init sampleConfig) orderedRun).receiver.statistics.msBuf = 30 :=
  ⟨msBuf_bounded_of_inTimeOrder sampleConfig (by decide) orderedRun (by decide +kernel),
    by decide +kernel, by decide +kernel⟩

/-- The second packet is due before the first one, and neither is due yet. -/
def earlierRun : List Event :=
  [.push (samplePacket 5 100000), .push (samplePacket 6 50000), .tick 10]

/-- The difference wraps. -/
theorem earlierRun_wraps :
    ¬RunMeets step MsBufBounded (init sampleConfig) earlierRun ∧
    (runD step (init sampleConfig) earlierRun).receiver.statistics.msBuf = 18446744073709501 := by
  decide +kernel

end Receiving

/-! ### Acknowledgements -/

namespace Receiver

variable {r : Receiver} {now : UInt64}

/-- A full acknowledgement is sent if the interval has passed. -/
theorem periodicACK_full_iff :
    (r.periodicACK now).2.map Prod.snd = some false ↔
      ¬now - r.lastPeriodicACK < r.periodicACKInterval := by
  unfold periodicACK
  split
  · rename_i hrecent
    split
    · simp [hrecent]
    · simp [hrecent]
  · rename_i helapsed
    simp [helapsed]

/-- Each acknowledgement sets the time of the last one. -/
theorem periodicACK_lastPeriodicACK :
    (r.periodicACK now).1.lastPeriodicACK
      = if (r.periodicACK now).2.isSome then now else r.lastPeriodicACK := by
  unfold periodicACK
  split
  · split
    · rfl
    · rfl
  · rfl

theorem push_lastPeriodicACK (r : Receiver) (p : Packet) :
    (r.push p).1.lastPeriodicACK = r.lastPeriodicACK := by
  unfold push
  dsimp only
  repeat' split
  all_goals rfl

theorem periodicNAK_lastPeriodicACK (r : Receiver) (now : UInt64) :
    (r.periodicNAK now).1.lastPeriodicACK = r.lastPeriodicACK := by
  unfold periodicNAK
  split
  · rfl
  · rfl

theorem tickRate_lastPeriodicACK (r : Receiver) (now : UInt64) :
    (r.tickRate now).lastPeriodicACK = r.lastPeriodicACK := by
  unfold tickRate
  split
  · rfl
  · rfl

end Receiver

namespace Reporting

open Receiving (Event ackTime? pushed?)

/-- Only the part of `Tick` that acknowledges sets the time of the last acknowledgement. -/
theorem lastPeriodicACK_of_step {s s' : Receiving} {e : Event} (h : s.step e = some s') :
    s'.receiver.lastPeriodicACK = ((ackTime? e).map fun now =>
      (s.receiver.periodicACK now).1.lastPeriodicACK).getD s.receiver.lastPeriodicACK :=
  Receiving.ackPart_of_step Receiver.lastPeriodicACK Receiver.push_lastPeriodicACK
    Receiver.periodicNAK_lastPeriodicACK (fun _ _ => rfl) Receiver.tickRate_lastPeriodicACK h

/-- The times of the acknowledgements, up to the time `clock`. The receiver has the last one. -/
structure Timed (clock : UInt64) (s : Reporting) : Prop where
  last : s.receiving.receiver.lastPeriodicACK = s.lightACKs.getLast?.getD s.fullACK
  sorted : s.lightACKs.Pairwise (· ≤ ·)
  full : s.fullACK ≤ clock
  light : ∀ t ∈ s.lightACKs, t ≤ clock

theorem timed_init (config : ReceiveConfig) : (init config).Timed 0 where
  last := rfl
  sorted := List.Pairwise.nil
  full := UInt64.le_refl _
  light := by
    intro t ht
    cases ht

section
variable {s : Reporting} {clock : UInt64}

theorem Timed.mono (h : s.Timed clock) {clock' : UInt64} (hle : clock ≤ clock') :
    s.Timed clock' :=
  { h with
    full := UInt64.le_trans h.full hle
    light := fun t ht => UInt64.le_trans (h.light t ht) hle }

theorem Timed.last_le (h : s.Timed clock) : s.receiving.receiver.lastPeriodicACK ≤ clock := by
  rw [h.last]
  cases hlast : s.lightACKs.getLast? with
  | none => exact h.full
  | some t => exact h.light t (List.mem_of_getLast? hlast)

/-- Without an acknowledgement the history of them stays. -/
theorem note_of_none (s : Reporting) {e : Event} (h : ackTime? e = none) :
    (s.note e).fullACK = s.fullACK ∧ (s.note e).lightACKs = s.lightACKs := by
  cases e with
  | push p => exact ⟨rfl, rfl⟩
  | tickACK now => cases h
  | tickNAK now => exact ⟨rfl, rfl⟩
  | tickDeliver now => exact ⟨rfl, rfl⟩
  | tickRate now => exact ⟨rfl, rfl⟩
  | tick now => cases h

theorem note_of_some (s : Reporting) {e : Event} {now : UInt64} (h : ackTime? e = some now) :
    s.note e = s.noteACK now := by
  cases e with
  | push p => cases h
  | tickACK now' =>
    cases h
    rfl
  | tickNAK now' => cases h
  | tickDeliver now' => cases h
  | tickRate now' => cases h
  | tick now' =>
    cases h
    rfl

/-- The part of `Tick` that acknowledges. -/
theorem Timed.noteACK (h : s.Timed clock) {now : UInt64} (hclock : clock ≤ now)
    {receiving : Receiving} (hlast : receiving.receiver.lastPeriodicACK
      = (s.receiving.receiver.periodicACK now).1.lastPeriodicACK) :
    Timed now { s.noteACK now with receiving := receiving } := by
  have hnow := h.mono hclock
  rw [Receiver.periodicACK_lastPeriodicACK] at hlast
  unfold Reporting.noteACK
  match hack : (s.receiving.receiver.periodicACK now).2 with
  | none =>
    rw [hack] at hlast
    exact { hnow with last := hlast.trans h.last }
  | some (n, true) =>
    -- A light one goes to the end of the list, and it is the youngest.
    rw [hack] at hlast
    constructor
    · show receiving.receiver.lastPeriodicACK = (s.lightACKs ++ [now]).getLast?.getD s.fullACK
      rw [List.getLast?_concat]
      exact hlast
    · refine List.pairwise_append.mpr ⟨h.sorted, List.pairwise_singleton _ _, ?_⟩
      intro t ht t' ht'
      rw [List.mem_singleton.mp ht']
      exact hnow.light t ht
    · exact hnow.full
    · intro t ht
      rcases List.mem_append.mp ht with ht | ht
      · exact hnow.light t ht
      · rw [List.mem_singleton.mp ht]
        exact UInt64.le_refl _
  | some (n, false) =>
    -- A full one starts a new list.
    rw [hack] at hlast
    exact
      { last := hlast
        sorted := List.Pairwise.nil
        full := UInt64.le_refl _
        light := by
          intro t ht
          cases ht }

/-- An event does not go back in time. -/
theorem Timed.step (h : s.Timed clock) {e : Event} {s' : Reporting}
    (hclock : ∀ now ∈ ackTime? e, clock ≤ now) (hs : s.step e = some s') :
    s'.Timed ((ackTime? e).getD clock) := by
  obtain ⟨receiving, hreceiving, hs'⟩ := Option.bind_eq_some_iff.mp hs
  cases hs'
  have hlast := lastPeriodicACK_of_step hreceiving
  cases htime : ackTime? e with
  | none =>
    rw [htime] at hlast
    obtain ⟨hfull, hlight⟩ := s.note_of_none htime
    constructor
    · show receiving.receiver.lastPeriodicACK
        = (s.note e).lightACKs.getLast?.getD (s.note e).fullACK
      rw [hfull, hlight]
      exact hlast.trans h.last
    · show (s.note e).lightACKs.Pairwise (· ≤ ·)
      rw [hlight]
      exact h.sorted
    · show (s.note e).fullACK ≤ clock
      rw [hfull]
      exact h.full
    · show ∀ t ∈ (s.note e).lightACKs, t ≤ clock
      rw [hlight]
      exact h.light
  | some now =>
    rw [htime] at hlast
    rw [s.note_of_some htime]
    exact h.noteACK (hclock now htime) hlast

/-- Where time does not go back, a full acknowledgement that is due is sent exactly if there was no
light one within the interval. -/
theorem Timed.punctual_iff_undisturbed (h : s.Timed clock) {e : Event}
    (hclock : ∀ now ∈ ackTime? e, clock ≤ now) : s.Punctual e ↔ s.Undisturbed e := by
  refine forall₂_congr fun now hnow => forall_congr' fun hdue => ?_
  -- The source subtracts the time of the last acknowledgement of either kind.
  have hle := UInt64.le_trans h.last_le (hclock now hnow)
  rw [Receiver.periodicACK_full_iff, UInt64.not_lt, UInt64.le_iff_toNat_le,
    UInt64.toNat_sub_of_le _ _ hle, h.last]
  rw [h.last, UInt64.le_iff_toNat_le] at hle
  cases hlast : s.lightACKs.getLast? with
  | none =>
    rw [List.getLast?_eq_none_iff.mp hlast]
    rw [hlast] at hle
    simp only [Option.getD_none] at hle ⊢
    constructor
    · intro _ t ht
      cases ht
    · intro _
      omega
  | some last =>
    rw [hlast] at hle
    simp only [Option.getD_some] at hle ⊢
    obtain ⟨front, hfront⟩ := List.getLast?_eq_some_iff.mp hlast
    have hsorted := h.sorted
    rw [hfront] at hsorted
    constructor
    · intro hinterval t ht
      rw [hfront] at ht
      -- The last light one is the youngest.
      have hyoungest : t.toNat ≤ last.toNat := by
        rcases List.mem_append.mp ht with ht | ht
        · exact UInt64.le_iff_toNat_le.mp
            ((List.pairwise_append.mp hsorted).2.2 t ht last List.mem_cons_self)
        · rw [List.mem_singleton.mp ht]
      omega
    · intro hall
      have := hall last (List.mem_of_getLast? hlast)
      omega

end

/-- In every run in which time does not go back, a `Tick` at which the interval has passed since the
last full acknowledgement sends a full one, exactly if no light one was sent within the interval
before such a `Tick`. -/
theorem punctual_iff (config : ReceiveConfig) (events : List Event)
    (hnow : (events.filterMap ackTime?).Pairwise (· ≤ ·)) :
    RunMeets step Punctual (init config) events ↔
      RunMeets step Undisturbed (init config) events := by
  -- Induction on the run, with the time of the latest `Tick` so far.
  have hloop : ∀ (es : List Event) (s : Reporting) (clock : UInt64), s.Timed clock →
      (∀ t ∈ es.filterMap ackTime?, clock ≤ t) → (es.filterMap ackTime?).Pairwise (· ≤ ·) →
      (RunMeets step Punctual s es ↔ RunMeets step Undisturbed s es) := by
    intro es
    induction es with
    | nil => exact fun _ _ _ _ _ => Iff.rfl
    | cons e es ih =>
      intro s clock h hclock hsorted
      have htime : ∀ now ∈ ackTime? e, clock ≤ now := fun now ht =>
        hclock now (List.mem_filterMap.mpr ⟨e, List.mem_cons_self, ht⟩)
      refine and_congr (h.punctual_iff_undisturbed htime) (forall₂_congr fun s' hs' => ?_)
      refine ih s' _ (h.step htime hs') ?_ ?_
      · intro t ht
        cases hack : ackTime? e with
        | none => exact hclock t (by rw [List.filterMap_cons_none hack]; exact ht)
        | some now =>
          rw [List.filterMap_cons_some hack] at hsorted
          exact (List.pairwise_cons.mp hsorted).1 t ht
      · cases hack : ackTime? e with
        | none =>
          rw [List.filterMap_cons_none hack] at hsorted
          exact hsorted
        | some now =>
          rw [List.filterMap_cons_some hack] at hsorted
          exact (List.pairwise_cons.mp hsorted).2
  exact hloop events (init config) 0 (timed_init config) (fun t _ => UInt64.zero_le) hnow

/-- Two packets, and a `Tick` in each interval. -/
def quietRun : List Event :=
  [.push (Receiving.samplePacket 5 100), .tick 12, .push (Receiving.samplePacket 6 100), .tick 15,
   .tick 22]

/-- Each full report that is due is sent. -/
theorem punctual_quietRun : RunMeets step Punctual (init Receiving.sampleConfig) quietRun :=
  (punctual_iff Receiving.sampleConfig quietRun (by decide)).mpr (by decide +kernel)

/-- 64 packets and a `Tick` before the interval has passed. -/
def busyRun : List Event :=
  List.flatten [List.replicate 64 (.push (Receiving.samplePacket 5 100)), [.tick 5, .tick 10]]

/-- The light acknowledgement at 5 puts off the full one that is due at 10. -/
theorem busyRun_late :
    ¬RunMeets step Punctual (init Receiving.sampleConfig) busyRun ∧
    (runD step (init Receiving.sampleConfig) busyRun).fullACK = 0 ∧
    (runD step (init Receiving.sampleConfig) busyRun).lightACKs = [5] := by
  decide +kernel

end Reporting

end Gosrt
