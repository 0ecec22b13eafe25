import Mathlib.Data.List.Chain
import Gosrt.Lib.Epoch
import Gosrt.Proofs.Connection
import Gosrt.Proofs.Handle

/-!
# `Gosrt.Proofs.Tsbpd`: the times of the packets across wraps of the timestamp

The timestamp of a packet is the time of its sender modulo `2^32`. The connection finds the
lost bits with a flag and an offset, which is a `Lib.WrapDetector` with a period of `2^32` and
a guard of 30 seconds (`Simulates`). `pktTsbpdTime_eq` is the time of a packet in these terms.

`assigned_exact` is about packets that arrive out of order: within 30 seconds, and without a
pause of more than 30 seconds, every packet gets its true time. `nondecreasing_iff` is about
packets that arrive in order with pauses: the times do not go down exactly when each wrap can be
seen and no smaller delay takes back more than the packets are apart.
-/

set_option autoImplicit false

namespace Gosrt

open Lib

/-! ### The connection as a wrap detector -/

namespace Connection

/-- The flag and the offset are the state of the detector. -/
structure Simulates (c : Connection) (d : WrapDetector) : Prop where
  wrapping : c.tsbpdWrapPeriod = d.wrapping
  offset : c.tsbpdTimeBaseOffset = UInt64.ofNat (2 ^ 32 * d.epoch)

theorem SameClock.simulates {c c' : Connection} {d : WrapDetector} (h : c.SameClock c')
    (hsim : c.Simulates d) : c'.Simulates d :=
  ⟨h.tsbpdWrapPeriod.trans hsim.wrapping, h.tsbpdTimeBaseOffset.trans hsim.offset⟩

/-- The next epoch in 64 bits. -/
theorem ofNat_succ_epoch (n : Nat) :
    UInt64.ofNat (2 ^ 32 * n) + wrapOffset = UInt64.ofNat (2 ^ 32 * (n + 1)) := by
  rw [Nat.mul_add, UInt64.ofNat_add]
  rfl

section
variable {c : Connection} {d : WrapDetector} (timestamp : UInt32)

theorem gt_guard_iff : timestamp > maxTimestamp - 30 * 1000000 ↔
    2 ^ 32 ≤ timestamp.toNat + 30000000 := by
  rw [gt_iff_lt, UInt32.lt_iff_toNat_lt]
  show 4264967295 < timestamp.toNat ↔ _
  omega

theorem between_guards_iff : timestamp ≥ 30 * 1000000 ∧ timestamp ≤ 60 * 1000000 ↔
    30000000 ≤ timestamp.toNat ∧ timestamp.toNat ≤ 2 * 30000000 := by
  rw [ge_iff_le, UInt32.le_iff_toNat_le, UInt32.le_iff_toNat_le]
  rfl

/-- The step of the detector. -/
theorem Simulates.updateWrapPeriod (h : c.Simulates d) :
    (c.updateWrapPeriod timestamp).Simulates
      (d.observe (2 ^ 32) 30000000 timestamp.toNat) := by
  unfold Connection.updateWrapPeriod WrapDetector.observe
  rw [h.wrapping]
  simp only [gt_guard_iff, between_guards_iff]
  -- The two tests of the source are the two branches of `observe`.
  cases d.wrapping with
  | true =>
    simp only [Bool.not_true, Bool.false_eq_true, if_false, if_true]
    split
    · refine ⟨rfl, ?_⟩
      show c.tsbpdTimeBaseOffset + wrapOffset = _
      rw [h.offset, ofNat_succ_epoch]
    · exact h
  | false =>
    simp only [Bool.not_false, Bool.false_eq_true, if_false, if_true]
    split
    · exact ⟨rfl, h.offset⟩
    · exact h

/-- The time of a packet: the detector gives the epoch. -/
theorem Simulates.pktTsbpdTime_eq (h : c.Simulates d) :
    c.pktTsbpdTime timestamp = c.conn.tsbpdTimeBase +
      UInt64.ofNat (2 ^ 32 * d.classify 30000000 timestamp.toNat + timestamp.toNat) +
      c.conn.tsbpdDelay + c.tsbpdDrift := by
  have hlt : timestamp < 30 * 1000000 ↔ timestamp.toNat < 30000000 := by
    rw [UInt32.lt_iff_toNat_lt]
    rfl
  unfold Connection.pktTsbpdTime WrapDetector.classify
  rw [h.wrapping, h.offset, ofNat_succ_epoch]
  simp only [hlt]
  -- Both sides add the epoch and the timestamp to the time base, in 64 bits.
  rw [UInt64.ofNat_add, ← UInt64.add_assoc c.conn.tsbpdTimeBase]
  have hts : timestamp.toUInt64 = UInt64.ofNat timestamp.toNat := by
    simp
  rw [hts]
  split <;> rfl

end

end Connection

namespace Timing

section
variable {prim : Primitives} {sort : SortSlice} {s s' : Timing} {e : Event}

/-- The time of a data packet that a connection gets in the state of a detector. -/
theorem pktTsbpdTime_assignment {c : Connection} {d : WrapDetector} (timestamp : UInt32) (t : Nat)
    (h : c.Simulates d) :
    (assignment c timestamp t).pktTsbpdTime = c.conn.tsbpdTimeBase +
      UInt64.ofNat (2 ^ 32 * (d.observe (2 ^ 32) 30000000 timestamp.toNat).classify 30000000
        timestamp.toNat + timestamp.toNat) +
      c.conn.tsbpdDelay + c.tsbpdDrift := by
  obtain ⟨hconn, hdrift⟩ := c.updateWrapPeriod_fields timestamp
  have htime := (h.updateWrapPeriod timestamp).pktTsbpdTime_eq timestamp
  rw [hconn, hdrift] at htime
  exact htime

/-- A detector that is on a time knows its epoch. -/
theorem classify_tracking (first t : Nat) :
    (WrapDetector.tracking (2 ^ 32) 30000000 first (t / 2 ^ 32) (t % 2 ^ 32)).classify 30000000
      (t % 2 ^ 32) = t / 2 ^ 32 - first :=
  WrapDetector.classify_tracking (by decide) (Nat.mod_lt t (by decide))

/-! ### Packets out of order -/

/-- The state of a detector that has followed the highest time. -/
def detector : Option Nat → WrapDetector
  | none => ⟨false, 0⟩
  | some m => .tracking (2 ^ 32) 30000000 0 (m / 2 ^ 32) (m % 2 ^ 32)

theorem detector_some (m : Nat) : detector (some m) =
    .tracking (2 ^ 32) 30000000 0 (m / 2 ^ 32) (m % 2 ^ 32) := rfl

theorem observe_detector_first {t : Nat} (ht : t < 2 ^ 32) :
    (detector none).observe (2 ^ 32) 30000000 (t % 2 ^ 32) = detector (some t) := by
  rw [detector_some, Nat.div_eq_of_lt ht]
  exact WrapDetector.observe_init _

/-- A packet within 30 seconds of the highest time keeps the detector on it, and gets its own
epoch. -/
theorem observe_detector {m t : Nat} (hgrows : t ≤ m + 30000000)
    (hlate : max m t < t + 30000000) :
    (detector (some m)).observe (2 ^ 32) 30000000 (t % 2 ^ 32) = detector (some (max m t)) ∧
      (detector (some (max m t))).classify 30000000 (t % 2 ^ 32) = t / 2 ^ 32 := by
  have hW : 4 * 30000000 ≤ 2 ^ 32 := by decide
  rcases Nat.le_total m t with hle | hle
  · -- A new highest time, in the same epoch or in the next one.
    rw [max_eq_right hle]
    refine ⟨?_, classify_tracking 0 t⟩
    rw [detector_some, detector_some]
    rcases Nat.lt_or_ge (m / 2 ^ 32) (t / 2 ^ 32) with hepoch | hepoch
    · have hnext : t / 2 ^ 32 = m / 2 ^ 32 + 1 := by omega
      rw [hnext]
      exact WrapDetector.observe_next hW (Nat.zero_le _) (by omega) (by omega) (by omega)
    · have hsame : t / 2 ^ 32 = m / 2 ^ 32 := by omega
      rw [hsame]
      exact WrapDetector.observe_same hW (by omega) (by omega) (by omega)
  · -- A late packet, of the same epoch or of the one before.
    rw [max_eq_left hle] at hlate ⊢
    rw [detector_some]
    rcases Nat.lt_or_ge (t / 2 ^ 32) (m / 2 ^ 32) with hepoch | hepoch
    · have hprevious : m / 2 ^ 32 = t / 2 ^ 32 + 1 := by omega
      rw [hprevious]
      exact WrapDetector.observe_previous hW (Nat.zero_le _) (by omega) (by omega)
    · have hsame : m / 2 ^ 32 = t / 2 ^ 32 := by omega
      rw [hsame]
      exact WrapDetector.observe_late hW (by omega) (by omega)

theorem highest_concat_none {c : Connection} {a : Assignment} (h : s.highest = none) :
    Timing.highest ⟨c, s.log ++ [a]⟩ = some a.time := by
  unfold highest at h ⊢
  rw [List.max?_eq_none_iff, List.map_eq_nil_iff] at h
  rw [h]
  rfl

theorem highest_concat_some {c : Connection} {a : Assignment} {m : Nat}
    (h : s.highest = some m) : Timing.highest ⟨c, s.log ++ [a]⟩ = some (max m a.time) := by
  unfold highest at h ⊢
  rw [List.max?_eq_some_iff] at h ⊢
  obtain ⟨hmem, hle⟩ := h
  rw [List.map_append]
  constructor
  · rcases Nat.le_total m a.time with hm | hm
    · rw [max_eq_right hm]
      exact List.mem_append_right _ List.mem_cons_self
    · rw [max_eq_left hm]
      exact List.mem_append_left _ hmem
  · intro b hb
    rcases List.mem_append.mp hb with hb | hb
    · exact (hle b hb).trans (le_max_left _ _)
    · rw [List.mem_singleton.mp hb]
      exact le_max_right _ _

/-- The invariant: the detector is on the highest time, and every packet has got its time. -/
structure Tracked (s : Timing) : Prop where
  simulates : s.connection.Simulates (detector s.highest)
  exact : ∀ a ∈ s.log, a.Exact

theorem tracked_init (config : SrtConnConfig) : (init config).Tracked :=
  ⟨⟨rfl, rfl⟩, fun _ ha => absurd ha List.not_mem_nil⟩

/-- What a data packet gives that the detector puts into the right epoch. -/
theorem Tracked.data {c' : Connection} {t : Nat} {d : WrapDetector} (h : s.Tracked)
    (hclock : (s.connection.updateWrapPeriod (timestamp e)).SameClock c')
    (htimestamp : (timestamp e).toNat = t % 2 ^ 32)
    (hobserve : (detector s.highest).observe (2 ^ 32) 30000000 (t % 2 ^ 32) = d)
    (hclassify : d.classify 30000000 (t % 2 ^ 32) = t / 2 ^ 32)
    (hhighest : detector (Timing.highest ⟨c', s.log ++
      [assignment s.connection (timestamp e) t]⟩) = d) :
    Tracked ⟨c', s.log ++ [assignment s.connection (timestamp e) t]⟩ := by
  constructor
  · rw [hhighest, ← hobserve, ← htimestamp]
    exact hclock.simulates (h.simulates.updateWrapPeriod _)
  · intro a ha
    rcases List.mem_append.mp ha with ha | ha
    · exact h.exact a ha
    · rw [List.mem_singleton.mp ha]
      have htime := pktTsbpdTime_assignment (timestamp e) t h.simulates
      rw [htimestamp, hobserve, hclassify, Nat.div_add_mod] at htime
      exact htime

/-- The step lemma. -/
theorem Tracked.step (htimely : s.Timely e) (h : s.Tracked)
    (hs : Timing.step prim sort s e = some s') : s'.Tracked := by
  unfold Timely at htimely
  cases step_cases prim sort hs with
  | other _ c' hclock => exact ⟨hclock.simulates h.simulates, h.exact⟩
  | data t ht c' hclock _ =>
    rw [ht] at htimely
    cases hm : s.highest with
    -- The first data packet starts the detector.
    | none =>
      rw [hm] at htimely
      obtain ⟨htimestamp, hfirst⟩ := htimely
      refine h.data hclock htimestamp (hm ▸ observe_detector_first hfirst)
        (classify_tracking 0 t) ?_
      rw [highest_concat_none hm]
      rfl
    | some m =>
      rw [hm] at htimely
      obtain ⟨htimestamp, hgrows, hlate⟩ := htimely
      obtain ⟨hobserve, hclassify⟩ := observe_detector hgrows hlate
      refine h.data hclock htimestamp (hm ▸ hobserve) hclassify ?_
      rw [highest_concat_some hm]
      rfl

end

/-- Every packet of a stream that is out of order by less than 30 seconds gets the time at which
it was sent, after the time base and the delay. -/
theorem assigned_exact (prim : Primitives) (sort : SortSlice) (config : SrtConnConfig)
    (events : List Event)
    (htimely : RunMeets (step prim sort) Timely (init config) events) :
    ∃ s, run (step prim sort) (init config) events = some s ∧
      s.log.map Assignment.time = events.filterMap dataTime? ∧ ∀ a ∈ s.log, a.Exact := by
  obtain ⟨s, hrun⟩ := exists_run (exists_step prim sort) (init config) events
  exact ⟨s, hrun, times_run prim sort hrun,
    (run_induct_of Tracked (fun _ _ _ htimely h hs => h.step htimely hs) htimely
      (tracked_init config) hrun).exact⟩

/-- A data packet that was sent at `t`. -/
def sampleEvent (t : Nat) : Event :=
  let p := Sample.dataPacket 1
  .receive { p with header := { p.header with timestamp := UInt32.ofNat t } }
    ⟨0, 0, ⟨none, none, none⟩⟩ t

def sampleEnd (times : List Nat) : Timing :=
  runD (step Sample.primitives SortSlice.insertion) (init (Sample.connConfig 4 1))
    (times.map sampleEvent)

/-- Around the first wrap, with one packet that is late. -/
def reordered : List Nat :=
  [2 ^ 32 - 20000000, 2 ^ 32 + 5000000, 2 ^ 32 - 10000000, 2 ^ 32 + 34000000, 2 ^ 32 + 60000000]

/-- The late packet of the old period gets its own time. -/
theorem assigned_exact_reordered :
    RunMeets (step Sample.primitives SortSlice.insertion) Timely (init (Sample.connConfig 4 1))
        (reordered.map sampleEvent) ∧
      ∃ s, run (step Sample.primitives SortSlice.insertion) (init (Sample.connConfig 4 1))
          (reordered.map sampleEvent) = some s ∧
        s.log.map Assignment.time = (reordered.map sampleEvent).filterMap dataTime? ∧
        ∀ a ∈ s.log, a.Exact :=
  ⟨by decide +kernel,
    assigned_exact Sample.primitives SortSlice.insertion (Sample.connConfig 4 1) _
      (by decide +kernel)⟩

/-! ### Packets in order -/

section
variable {prim : Primitives} {sort : SortSlice} {s s' : Timing} {e : Event}

/-- A packet that shows the wrap keeps the detector on the time of the last packet. -/
theorem observe_of_inSight {first m t : Nat} (hfirst : first ≤ m / 2 ^ 32) (hle : m ≤ t)
    (hgap : t < m + 2 ^ 31) (hsight : InSight first m t) :
    (WrapDetector.tracking (2 ^ 32) 30000000 first (m / 2 ^ 32) (m % 2 ^ 32)).observe (2 ^ 32)
        30000000 (t % 2 ^ 32)
      = .tracking (2 ^ 32) 30000000 first (t / 2 ^ 32) (t % 2 ^ 32) := by
  unfold InSight at hsight
  split at hsight
  · rename_i hsame
    rw [hsame]
    exact WrapDetector.observe_same (by decide) (by omega) (by omega) hsight
  · have hnext : t / 2 ^ 32 = m / 2 ^ 32 + 1 := by omega
    rw [hnext]
    exact WrapDetector.observe_next (by decide) hfirst (by omega) hsight.1 hsight.2

/-- A packet that does not show the wrap is put into the epoch before its own. -/
theorem classify_of_not_inSight {first m t : Nat} (hfirst : first ≤ m / 2 ^ 32) (hle : m ≤ t)
    (hgap : t < m + 2 ^ 31) (hsight : ¬InSight first m t) :
    ((WrapDetector.tracking (2 ^ 32) 30000000 first (m / 2 ^ 32) (m % 2 ^ 32)).observe (2 ^ 32)
        30000000 (t % 2 ^ 32)).classify 30000000 (t % 2 ^ 32) + 1 = t / 2 ^ 32 - first := by
  unfold InSight at hsight
  split at hsight
  -- The same epoch: the packet before was in the first 30 seconds, and this one is too late.
  · rename_i hsame
    rw [hsame]
    exact WrapDetector.observe_jump (by decide) (by omega) (by omega) (by omega)
  · have hnext : t / 2 ^ 32 = m / 2 ^ 32 + 1 := by omega
    rw [hnext]
    by_cases hlast : 2 ^ 32 ≤ m % 2 ^ 32 + 30000000
    · exact WrapDetector.observe_pause hfirst hlast (by omega)
    · -- The packet before the wrap is too early for the first 30 seconds of an epoch to matter.
      exact WrapDetector.observe_gap hfirst (by omega) (fun _ => by omega) (by omega)

/-- The time of a packet that fits 64 bits. -/
theorem toNat_assignment {c : Connection} {d : WrapDetector} {timestamp : UInt32} {t n : Nat}
    (h : c.Simulates d) (htimestamp : timestamp.toNat = t % 2 ^ 32)
    (hn : (d.observe (2 ^ 32) 30000000 (t % 2 ^ 32)).classify 30000000 (t % 2 ^ 32) = n)
    (hle : n ≤ t / 2 ^ 32)
    (hfits : c.conn.tsbpdTimeBase.toNat + t + c.conn.tsbpdDelay.toNat + c.tsbpdDrift.toNat
      < 2 ^ 64) :
    (assignment c timestamp t).pktTsbpdTime.toNat = c.conn.tsbpdTimeBase.toNat +
      (2 ^ 32 * n + t % 2 ^ 32) + c.conn.tsbpdDelay.toNat + c.tsbpdDrift.toNat := by
  rw [pktTsbpdTime_assignment timestamp t h, htimestamp, hn]
  have hvalue : 2 ^ 32 * n + t % 2 ^ 32 ≤ t := by omega
  -- No sum wraps, because the detector does not put the packet after its own time.
  simp only [UInt64.toNat_add, UInt64.toNat_ofNat']
  omega

/-- The detector is on the time of the last packet, and this packet has got its time. Epochs are
counted from the one of the first packet. The delay is that of the last packet, or it has been
set since to one that is much less than `2^31`. -/
structure Follows (s : Timing) (first : Nat) (last : Assignment) : Prop where
  simulates : s.connection.Simulates
    (.tracking (2 ^ 32) 30000000 first (last.time / 2 ^ 32) (last.time % 2 ^ 32))
  first_le : first ≤ last.time / 2 ^ 32
  toNat_pktTsbpdTime : last.pktTsbpdTime.toNat = s.connection.conn.tsbpdTimeBase.toNat +
    (2 ^ 32 * (last.time / 2 ^ 32 - first) + last.time % 2 ^ 32) + last.delay.toNat +
    s.connection.tsbpdDrift.toNat
  tsbpdDelay : s.connection.conn.tsbpdDelay = last.delay ∨
    s.connection.conn.tsbpdDelay.toNat ≤ 65535000

/-- The invariant of a stream in order. -/
inductive Ordered (s : Timing) : Prop where
  | empty (hlog : s.log = []) (hsim : s.connection.Simulates ⟨false, 0⟩)
  | followed (first last : Assignment) (hfirst : s.log.head? = some first)
      (hlast : s.log.getLast? = some last) (hfollows : s.Follows (first.time / 2 ^ 32) last)
      (hordered : s.Nondecreasing)

theorem ordered_init (config : SrtConnConfig) : (init config).Ordered :=
  .empty rfl ⟨rfl, rfl⟩

theorem Ordered.nondecreasing (h : s.Ordered) : s.Nondecreasing := by
  cases h with
  | empty hlog _ =>
    unfold Nondecreasing
    rw [hlog]
    exact List.Pairwise.nil
  | followed _ _ _ _ _ hordered => exact hordered

/-- The times go up after one more packet when they did before and its time is not below that of
the last one. -/
theorem nondecreasing_concat {c : Connection} {a last : Assignment}
    (hlast : s.log.getLast? = some last) :
    Nondecreasing ⟨c, s.log ++ [a]⟩ ↔ s.Nondecreasing ∧ last.pktTsbpdTime ≤ a.pktTsbpdTime := by
  have : Trans (α := UInt64) (· ≤ ·) (· ≤ ·) (· ≤ ·) := ⟨UInt64.le_trans⟩
  unfold Nondecreasing
  rw [← List.isChain_iff_pairwise, ← List.isChain_iff_pairwise, List.map_append,
    List.isChain_append, List.getLast?_map, hlast]
  simp

/-- The frame of a step without a data packet. -/
theorem Ordered.other {c' : Connection} (h : s.Ordered) (hclock : s.connection.SameClock c') :
    Ordered ⟨c', s.log⟩ := by
  cases h with
  | empty hlog hsim => exact .empty hlog (hclock.simulates hsim)
  | followed first last hfirst hlast hfollows hordered =>
    refine .followed first last hfirst hlast
      ⟨hclock.simulates hfollows.simulates, hfollows.first_le, ?_, ?_⟩ hordered
    · show _ = c'.conn.tsbpdTimeBase.toNat + _ + _ + c'.tsbpdDrift.toNat
      rw [hclock.tsbpdTimeBase, hclock.tsbpdDrift]
      exact hfollows.toNat_pktTsbpdTime
    · rcases hclock.tsbpdDelay with hsame | hset
      · show c'.conn.tsbpdDelay = _ ∨ c'.conn.tsbpdDelay.toNat ≤ _
        rw [hsame]
        exact hfollows.tsbpdDelay
      · exact .inr hset

/-- A data packet that the detector keeps up with. -/
theorem follows_data {c' : Connection} {d : WrapDetector} {first t : Nat}
    (hsim : s.connection.Simulates d)
    (hobserve : d.observe (2 ^ 32) 30000000 (t % 2 ^ 32)
      = .tracking (2 ^ 32) 30000000 first (t / 2 ^ 32) (t % 2 ^ 32))
    (hfirst : first ≤ t / 2 ^ 32) (htimestamp : (timestamp e).toNat = t % 2 ^ 32)
    (hfits : s.connection.conn.tsbpdTimeBase.toNat + t + s.connection.conn.tsbpdDelay.toNat +
      s.connection.tsbpdDrift.toNat < 2 ^ 64)
    (hclock : (s.connection.updateWrapPeriod (timestamp e)).SameClock c')
    (hconn : c'.conn = s.connection.conn) :
    Follows ⟨c', s.log ++ [assignment s.connection (timestamp e) t]⟩ first
      (assignment s.connection (timestamp e) t) := by
  refine ⟨?_, hfirst, ?_, .inl (congrArg SrtConn.tsbpdDelay hconn)⟩
  · show c'.Simulates (.tracking _ _ first (t / 2 ^ 32) (t % 2 ^ 32))
    rw [← hobserve, ← htimestamp]
    exact hclock.simulates (hsim.updateWrapPeriod _)
  · have hclassify := classify_tracking first t
    rw [← hobserve] at hclassify
    show _ = c'.conn.tsbpdTimeBase.toNat + _ + _ + c'.tsbpdDrift.toNat
    rw [hconn, hclock.tsbpdDrift, (s.connection.updateWrapPeriod_fields _).2]
    exact toNat_assignment hsim htimestamp hclassify (Nat.sub_le _ _) hfits

/-- The packet after the last one gets a time that is not below exactly when it shows the wrap and
the delay has not become smaller by more than the two packets are apart. -/
theorem Follows.le_assignment_iff {first t : Nat} {last : Assignment} {timestamp : UInt32}
    (h : s.Follows first last) (htimestamp : timestamp.toNat = t % 2 ^ 32)
    (hfits : s.connection.conn.tsbpdTimeBase.toNat + t + s.connection.conn.tsbpdDelay.toNat +
      s.connection.tsbpdDrift.toNat < 2 ^ 64)
    (hle : last.time ≤ t) (hgap : t < last.time + 2 ^ 31) :
    last.pktTsbpdTime ≤ (assignment s.connection timestamp t).pktTsbpdTime ↔
      InSight first last.time t ∧
        last.time + last.delay.toNat ≤ t + s.connection.conn.tsbpdDelay.toNat := by
  rw [UInt64.le_iff_toNat_le, h.toNat_pktTsbpdTime]
  have hfirst := h.first_le
  by_cases hsight : InSight first last.time t
  · -- The detector gives both packets their true epochs.
    have hclassify := classify_tracking first t
    rw [← observe_of_inSight hfirst hle hgap hsight] at hclassify
    rw [toNat_assignment h.simulates htimestamp hclassify (Nat.sub_le _ _) hfits]
    simp only [hsight, true_and]
    omega
  · -- One epoch is more than the packets can be apart and the delay can have grown.
    have hclassify := classify_of_not_inSight hfirst hle hgap hsight
    have hgrown : s.connection.conn.tsbpdDelay.toNat < last.delay.toNat + 2 ^ 31 := by
      rcases h.tsbpdDelay with hsame | hset
      · rw [hsame]
        omega
      · omega
    rw [toNat_assignment h.simulates htimestamp rfl (by omega) hfits]
    simp only [hsight, false_and, iff_false, Nat.not_le]
    omega

/-- The step lemma of a data packet, in both directions. -/
theorem Ordered.data {c' : Connection} {t : Nat} (h : s.Ordered) (hinOrder : s.InOrder e)
    (ht : dataTime? e = some t)
    (hclock : (s.connection.updateWrapPeriod (timestamp e)).SameClock c')
    (hconn : c'.conn = s.connection.conn) :
    (s.Advances e → Ordered ⟨c', s.log ++ [assignment s.connection (timestamp e) t]⟩) ∧
      (Nondecreasing ⟨c', s.log ++ [assignment s.connection (timestamp e) t]⟩ →
        s.Advances e) := by
  unfold InOrder at hinOrder
  unfold Advances
  rw [ht] at hinOrder ⊢
  obtain ⟨htimestamp, hfits, hnext⟩ := hinOrder
  cases h with
  | empty hlog hsim =>
    rw [hlog]
    refine ⟨fun _ => ?_, fun _ => trivial⟩
    have hfollows := follows_data hsim (WrapDetector.observe_init _) le_rfl htimestamp hfits
      hclock hconn
    rw [hlog] at hfollows
    exact .followed _ _ rfl rfl hfollows (List.pairwise_singleton _ _)
  | followed first last hfirst hlast hfollows hordered =>
    rw [hlast] at hnext
    obtain ⟨hle, hgap⟩ := hnext
    rw [hfirst, hlast]
    have hiff := hfollows.le_assignment_iff htimestamp hfits hle hgap
    constructor
    · rintro ⟨hsight, hdelay⟩
      have hobserve := observe_of_inSight hfollows.first_le hle hgap hsight
      have hepoch : first.time / 2 ^ 32 ≤ t / 2 ^ 32 :=
        hfollows.first_le.trans (Nat.div_le_div_right hle)
      refine .followed first _ ?_ List.getLast?_concat
        (follows_data hfollows.simulates hobserve hepoch htimestamp hfits hclock hconn)
        ((nondecreasing_concat hlast).mpr ⟨hordered, hiff.mpr ⟨hsight, hdelay⟩⟩)
      rw [List.head?_append, hfirst]
      rfl
    · intro hgood
      exact hiff.mp ((nondecreasing_concat hlast).mp hgood).2

/-- A packet that advances keeps the times in order. -/
theorem Ordered.step (hinOrder : s.InOrder e) (hadvances : s.Advances e) (h : s.Ordered)
    (hs : Timing.step prim sort s e = some s') : s'.Ordered := by
  cases step_cases prim sort hs with
  | other _ c' hclock => exact h.other hclock
  | data t ht c' hclock hconn => exact (h.data hinOrder ht hclock hconn).1 hadvances

/-- Times in order show that the packet advanced. -/
theorem Ordered.advances (hinOrder : s.InOrder e) (h : s.Ordered)
    (hs : Timing.step prim sort s e = some s') (hgood : s'.Nondecreasing) : s.Advances e := by
  cases step_cases prim sort hs with
  | other ht =>
    unfold Advances
    rw [ht]
    trivial
  | data t ht c' hclock hconn => exact (h.data hinOrder ht hclock hconn).2 hgood

/-- The log only grows. -/
theorem nondecreasing_of_step (hs : Timing.step prim sort s e = some s')
    (hgood : s'.Nondecreasing) : s.Nondecreasing := by
  cases step_cases prim sort hs with
  | other => exact hgood
  | data =>
    unfold Nondecreasing at hgood
    rw [List.map_append] at hgood
    exact (List.pairwise_append.mp hgood).1

end

/-- In a stream in order, the times of the packets do not go down exactly when every packet shows
the wrap of the timestamp before it, and comes late enough after a delay that was made smaller. -/
theorem nondecreasing_iff (prim : Primitives) (sort : SortSlice) (config : SrtConnConfig)
    (events : List Event)
    (hinOrder : RunMeets (step prim sort) InOrder (init config) events) :
    ∃ s, run (step prim sort) (init config) events = some s ∧
      s.log.map Assignment.time = events.filterMap dataTime? ∧
      (RunMeets (step prim sort) Advances (init config) events ↔ s.Nondecreasing) := by
  obtain ⟨s, hrun⟩ := exists_run (exists_step prim sort) (init config) events
  refine ⟨s, hrun, times_run prim sort hrun, ?_⟩
  exact runMeets_iff_of (fun _ _ _ hinOrder hadvances h hs => h.step hinOrder hadvances hs)
    (fun _ h => h.nondecreasing)
    (fun _ _ _ hinOrder h hs hgood => h.advances hinOrder hs hgood)
    (fun _ _ _ hs hgood => nondecreasing_of_step hs hgood) hinOrder (ordered_init config) hrun

/-- A pause before the wrap and one after it. The packets next to the wrap show it. -/
def pauses : List Nat :=
  [0, 2 ^ 31 - 1, 2 ^ 32 - 30000000, 2 ^ 32 + 60000000, 2 ^ 32 + 2 ^ 31]

/-- After pauses of half a period the times still go up. -/
theorem nondecreasing_pauses :
    RunMeets (step Sample.primitives SortSlice.insertion) InOrder (init (Sample.connConfig 4 1))
        (pauses.map sampleEvent) ∧
      ∃ s, run (step Sample.primitives SortSlice.insertion) (init (Sample.connConfig 4 1))
          (pauses.map sampleEvent) = some s ∧ s.Nondecreasing := by
  obtain ⟨s, hrun, -, hiff⟩ := nondecreasing_iff Sample.primitives SortSlice.insertion
    (Sample.connConfig 4 1) (pauses.map sampleEvent) (by decide +kernel)
  exact ⟨by decide +kernel, s, hrun, hiff.mp (by decide +kernel)⟩

/-- The last packet before the wrap is one microsecond too early to show it. -/
def unseenWrap : List Nat := [0, 2 ^ 31 - 1, 2 ^ 32 - 30000001, 2 ^ 32 + 100]

/-- The packet after the wrap gets a time that is more than 71 minutes too early. -/
theorem not_nondecreasing_unseenWrap :
    RunMeets (step Sample.primitives SortSlice.insertion) InOrder (init (Sample.connConfig 4 1))
        (unseenWrap.map sampleEvent) ∧
      run (step Sample.primitives SortSlice.insertion) (init (Sample.connConfig 4 1))
        (unseenWrap.map sampleEvent) = some (sampleEnd unseenWrap) ∧
      (sampleEnd unseenWrap).log.map Assignment.time = unseenWrap ∧
      (sampleEnd unseenWrap).log.map Assignment.pktTsbpdTime
        = [120000, 2147603647, 4265087295, 120100] ∧
      ¬(sampleEnd unseenWrap).Nondecreasing :=
  ⟨by decide +kernel, run_eq_some_runD (by decide +kernel), by decide +kernel⟩

end Timing

end Gosrt
