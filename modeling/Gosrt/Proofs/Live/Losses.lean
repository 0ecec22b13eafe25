import Mathlib.Data.List.Nodup
import Gosrt.Proofs.Live.Receiving
import Gosrt.Spec.Live.Reports

/-!
# `Gosrt.Proofs.Live.Losses`: how the live receiver counts losses

A loss is counted twice: as `PktLoss` when a packet arrives after a gap, which is reported at once,
and as `PktLost` when delivery goes over a number that never came. Each count is a `Distance` less
one. `Distance` of a number and a later one is the number of steps between them
(`IsSequenceNumber.distance_of_before`), so both counts add up along the numbers that have been
passed.

All offsets here are from the number before the initial one, where a new receiver starts. A packet
can be `2 ^ 30 - 1` steps after it, one more than the comparisons allow. Such a packet may be taken
for an old one, but a packet that is kept is after its neighbour (`offset_lt_of_before`), and this
is all that the sums need.
-/

set_option autoImplicit false

namespace Gosrt

open Lib Number

/-- The `m` numbers from `a` on. -/
def Number.interval (a : Number) (m : Nat) : List Number := (List.range m).map a.plus

@[simp] theorem Number.length_interval (a : Number) (m : Nat) : (a.interval m).length = m := by
  simp [interval]

theorem Number.interval_add (a : Number) (m n : Nat) :
    a.interval (m + n) = a.interval m ++ (a.plus m).interval n := by
  simp only [interval, List.range_add, List.map_append, List.map_map]
  refine congrArg (_ ++ ·) (List.map_congr_left fun i _ => ?_)
  exact (plus_plus a m i).symm

theorem Number.interval_one {a : Number} (h : a.Wf) : a.interval 1 = [a] := by
  show [a.plus 0] = [a]
  rw [plus_zero h]

/-- Less than a turn has no number twice. -/
theorem Number.nodup_interval {a : Number} (h : a.Wf) {m : Nat} (hm : m ≤ a.max.toNat + 1) :
    (a.interval m).Nodup := by
  refine List.Nodup.map_on ?_ List.nodup_range
  intro i hi j hj he
  have hi' := List.mem_range.mp hi
  have hj' := List.mem_range.mp hj
  rw [← offset_plus h (i := i) (by omega), he, offset_plus h (by omega)]

namespace Receiver

section
variable {b : Number}

/-- What the removal loop counts as lost, and the packets it removes, are the steps that the number
delivered last goes. -/
theorem lostBetween_add_length (hb : b.IsSequenceNumber) (ps : List Packet) :
    ∀ last : Number, b.InWindow (2 ^ 30 - 1) last →
      (∀ p ∈ ps, b.InWindow (2 ^ 30 - 1) p.seq ∧ 0 < b.offset p.seq) →
      (last :: ps.map Packet.seq).IsChain Before →
      (lostBetween last ps).toNat + ps.length + b.offset last
        = b.offset ((ps.getLast?.map Packet.seq).getD last) := by
  induction ps with
  | nil =>
    intro last _ _ _
    exact Nat.zero_add _
  | cons p rest ih =>
    intro last hlast hps hchain
    obtain ⟨hbefore, htail⟩ := List.isChain_cons_cons.mp hchain
    obtain ⟨hp, hpos⟩ := hps p List.mem_cons_self
    have hrest := ih p.seq hp (fun q hq => hps q (List.mem_cons_of_mem _ hq)) htail
    have hlt := hb.offset_lt_of_before hlast hp hpos hbefore
    have hpk := hp.2
    have hdistance : (last.distance p.seq).toNat = b.offset p.seq - b.offset last := by
      rw [(hb.of_inWindow hlast).distance_of_before (hb.of_inWindow hp) hbefore,
        ← offset_plus_plus hb.wf (Nat.le_of_lt hlt) (by rw [hb.max_toNat]; omega), ← hlast.1,
        ← hp.1]
    have hend : b.offset ((rest.getLast?.map Packet.seq).getD p.seq) ≤ 2 ^ 30 - 1 := by
      cases hl : rest.getLast? with
      | none => exact hpk
      | some q => exact (hps q (List.mem_cons_of_mem _ (List.mem_of_getLast? hl))).1.2
    rw [getLast?_cons_getD, ← hrest]
    -- The source adds nothing where the packet is the next one.
    have hgap : (if last.distance p.seq > 1 then (last.distance p.seq - 1).toUInt64 else 0).toNat
        = b.offset p.seq - b.offset last - 1 := by
      by_cases hone : last.distance p.seq > 1
      · have hle : (1 : UInt32) ≤ last.distance p.seq := UInt32.le_of_lt hone
        rw [if_pos hone, UInt32.toNat_toUInt64, UInt32.toNat_sub_of_le _ _ hle, hdistance]
        rfl
      · rw [if_neg hone]
        rw [gt_iff_lt, UInt32.lt_iff_toNat_lt, hdistance] at hone
        have hone' : ¬1 < b.offset p.seq - b.offset last := hone
        show 0 = _
        omega
    -- The sum is not more than the window, so the counter does not wrap.
    show (_ + lostBetween p.seq rest : UInt64).toNat + (p :: rest).length + b.offset last = _
    rw [UInt64.toNat_add, hgap, Nat.mod_eq_of_lt (by omega), List.length_cons]
    omega

end

/-- What `Push` does to the greatest number, the count of lost packets, and what it reports. -/
inductive Arrival (r : Receiver) (pkt : Packet) : Receiver × Option (List Number) → Prop where
  /-- The packet is not the newest. -/
  | old (r' : Receiver) (hmax : r'.maxSeenSequenceNumber = r.maxSeenSequenceNumber)
      (hloss : r'.statistics.pktLoss = r.statistics.pktLoss) : Arrival r pkt (r', none)
  /-- It is the next one. -/
  | next (r' : Receiver) (hnext : pkt.seq = r.maxSeenSequenceNumber.inc)
      (hmax : r'.maxSeenSequenceNumber = pkt.seq)
      (hloss : r'.statistics.pktLoss = r.statistics.pktLoss) : Arrival r pkt (r', none)
  /-- There is a gap before it. -/
  | ahead (r' : Receiver) (hbefore : r.maxSeenSequenceNumber.Before pkt.seq)
      (hgap : pkt.seq ≠ r.maxSeenSequenceNumber.inc) (hmax : r'.maxSeenSequenceNumber = pkt.seq)
      (hloss : r'.statistics.pktLoss
        = r.statistics.pktLoss + ((pkt.seq.distance r.maxSeenSequenceNumber).toUInt64 - 1)) :
      Arrival r pkt (r', some [r.maxSeenSequenceNumber.inc, pkt.seq.dec])

/-- What a pushed packet does to the ranges of lost numbers. -/
theorem arrival_push {r : Receiver} {pkt : Packet} (h : r.Chained)
    (hp : pkt.seq.IsSequenceNumber) : Arrival r pkt (r.push pkt) := by
  unfold push
  dsimp only
  split
  · exact .old _ rfl rfl
  split
  · exact .old _ rfl rfl
  split
  · rename_i hnext
    exact .next _ ((hp.equals_iff h.maxSeen.inc).mp hnext) rfl rfl
  rename_i hgap
  split
  · rw [show (r.countPush pkt).packetList = r.packetList from rfl]
    cases place pkt r.packetList with
    | duplicate => exact .old _ rfl rfl
    | inserted packets => exact .old _ rfl rfl
    | skipped => exact .old _ rfl rfl
  · rename_i hgt
    exact .ahead _ (hp.before_of_not_lte h.maxSeen hgt)
      (fun he => hgap ((hp.equals_iff h.maxSeen.inc).mpr he)) rfl rfl

theorem push_pktLost (r : Receiver) (pkt : Packet) :
    (r.push pkt).1.statistics.pktLost = r.statistics.pktLost := by
  unfold push
  dsimp only
  repeat' split
  all_goals rfl

end Receiver

namespace Reporting

open Receiving (Event pushed?)

/-- The numbers of a range. -/
def rangeNumbers (range : Number × Number) : List Number :=
  range.1.interval (range.1.offset range.2 + 1)

/-- The losses that the receiver has counted and reported add up. -/
structure LossesAccounted (initial : Number) (s : Reporting) : Prop where
  /-- `PktLost` and the delivered packets are all numbers up to the one delivered last. -/
  pktLost : s.receiving.receiver.statistics.pktLost.toNat + s.receiving.delivered.length
    = initial.dec.offset s.receiving.receiver.lastDeliveredSequenceNumber
  /-- No range is empty. -/
  nonempty : ∀ range ∈ s.ranges, range.1.lte range.2 = true
  disjoint : s.ranges.Pairwise fun x y => (rangeNumbers x).Disjoint (rangeNumbers y)
  /-- Each number from the initial one to the greatest one is in one of the ranges, or its arrival
  advanced the greatest number. It is in one place only. -/
  partition : (s.ranges.flatMap rangeNumbers ++ s.newest).Perm
    (initial.interval (initial.dec.offset s.receiving.receiver.maxSeenSequenceNumber))
  /-- `PktLoss` is the size of all ranges. -/
  pktLoss : s.receiving.receiver.statistics.pktLoss.toNat
    = (s.ranges.map fun range => (rangeNumbers range).length).sum

/-- The invariant, in offsets from `b`, the number before the initial one. The history of the
reports is fixed, so that the parts of a run without a `Push` keep it. -/
structure Tracked (b : Number) (ranges : List (Number × Number)) (newest : List Number)
    (t : Receiving) : Prop where
  inv : t.Inv b
  window : ∀ p ∈ t.receiver.packetList,
    b.InWindow (2 ^ 30 - 1) p.seq ∧ 0 < b.offset p.seq
  delivered : b.InWindow (2 ^ 30 - 1) t.receiver.lastDeliveredSequenceNumber
  pktLost : t.receiver.statistics.pktLost.toNat + t.delivered.length
    = b.offset t.receiver.lastDeliveredSequenceNumber
  nonempty : ∀ range ∈ ranges, range.1.lte range.2 = true
  partition : (ranges.flatMap rangeNumbers ++ newest).Perm
    ((b.plus 1).interval (b.offset t.receiver.maxSeenSequenceNumber))
  pktLoss : t.receiver.statistics.pktLoss.toNat
    = (ranges.map fun range => (rangeNumbers range).length).sum

section
variable {b : Number} {ranges : List (Number × Number)} {newest : List Number} {t : Receiving}

theorem tracked_init {config : ReceiveConfig}
    (h : config.initialSequenceNumber.IsSequenceNumber) :
    Tracked config.initialSequenceNumber.dec [] [] (Receiving.init config) := by
  have hwf := h.dec.wf
  have hzero : config.initialSequenceNumber.dec.offset config.initialSequenceNumber.dec = 0 := by
    have ho := offset_plus hwf (Nat.zero_le _)
    rwa [plus_zero hwf] at ho
  exact
    { inv := Receiving.inv_init h
      window := by
        intro p hp
        cases hp
      delivered := by
        show config.initialSequenceNumber.dec.InWindow _ config.initialSequenceNumber.dec
        exact ⟨by rw [hzero, plus_zero hwf], by rw [hzero]; exact Nat.zero_le _⟩
      pktLost := hzero.symm
      nonempty := by
        intro range hrange
        cases hrange
      partition := by
        show List.Perm [] (interval _ (config.initialSequenceNumber.dec.offset
          config.initialSequenceNumber.dec))
        rw [hzero]
        exact List.Perm.refl _
      pktLoss := rfl }

/-- The greatest number seen is in the window. -/
theorem Tracked.maxSeen (h : Tracked b ranges newest t) :
    b.InWindow (2 ^ 30 - 1) t.receiver.maxSeenSequenceNumber := by
  rcases List.mem_cons.mp (List.mem_of_getLast? h.inv.chained.top) with he | hmem
  · rw [he]
    exact h.delivered
  · obtain ⟨p, hp, he⟩ := List.mem_map.mp hmem
    rw [← he]
    exact (h.window p hp).1

theorem Tracked.of_sameBuffer (h : Tracked b ranges newest t) {r : Receiver}
    (hr : t.receiver.SameBuffer r) :
    Tracked b ranges newest { t with receiver := r } := by
  obtain ⟨msBuf, hstatistics⟩ := hr.statistics
  exact
    { inv := h.inv.of_sameBuffer hr
      window := by
        show ∀ p ∈ r.packetList, _
        rw [hr.packetList]
        exact h.window
      delivered := by
        show b.InWindow _ r.lastDeliveredSequenceNumber
        rw [hr.lastDelivered]
        exact h.delivered
      pktLost := by
        show r.statistics.pktLost.toNat + _ = b.offset r.lastDeliveredSequenceNumber
        rw [hr.lastDelivered, hstatistics]
        exact h.pktLost
      nonempty := h.nonempty
      partition := by
        show List.Perm _ (interval _ (b.offset r.maxSeenSequenceNumber))
        rw [hr.maxSeen]
        exact h.partition
      pktLoss := by
        show r.statistics.pktLoss.toNat = _
        rw [hstatistics]
        exact h.pktLoss }

/-- Delivery counts what it goes over. -/
theorem Tracked.tickDeliver (h : Tracked b ranges newest t) (hb : b.IsSequenceNumber)
    (now : UInt64) : Tracked b ranges newest (t.tickDeliver now) := by
  have hsplit : t.receiver.packetList
      = (t.receiver.tickDeliver now).2 ++ (t.receiver.tickDeliver now).1.packetList :=
    List.takeWhile_append_dropWhile.symm
  have hremoved : ∀ p ∈ (t.receiver.tickDeliver now).2,
      b.InWindow (2 ^ 30 - 1) p.seq ∧ 0 < b.offset p.seq := by
    intro p hp
    refine h.window p ?_
    rw [hsplit]
    exact List.mem_append_left _ hp
  have hdelivered : b.InWindow (2 ^ 30 - 1)
      (t.receiver.tickDeliver now).1.lastDeliveredSequenceNumber := by
    show b.InWindow _ (((t.receiver.tickDeliver now).2.getLast?.map Packet.seq).getD
      t.receiver.lastDeliveredSequenceNumber)
    cases hl : (t.receiver.tickDeliver now).2.getLast? with
    | none => exact h.delivered
    | some p => exact (hremoved p (List.mem_of_getLast? hl)).1
  have hsum := Receiver.lostBetween_add_length hb (t.receiver.tickDeliver now).2
    t.receiver.lastDeliveredSequenceNumber h.delivered hremoved (h.inv.chained.tickDeliver now).2.1
  exact
    { inv := h.inv.tickDeliver now
      window := by
        intro p hp
        refine h.window p ?_
        rw [hsplit]
        exact List.mem_append_right _ hp
      delivered := hdelivered
      pktLost := by
        have hbound := hdelivered.2
        have hold := h.pktLost
        have hlast : b.offset (t.receiver.tickDeliver now).1.lastDeliveredSequenceNumber
            = b.offset (((t.receiver.tickDeliver now).2.getLast?.map Packet.seq).getD
              t.receiver.lastDeliveredSequenceNumber) := rfl
        show (t.receiver.statistics.pktLost + Receiver.lostBetween
            t.receiver.lastDeliveredSequenceNumber (t.receiver.tickDeliver now).2).toNat
          + (t.delivered ++ (t.receiver.tickDeliver now).2).length
          = b.offset (t.receiver.tickDeliver now).1.lastDeliveredSequenceNumber
        rw [UInt64.toNat_add, List.length_append, Nat.mod_eq_of_lt (by omega)]
        omega
      nonempty := h.nonempty
      partition := h.partition
      pktLoss := h.pktLoss }

/-- The numbers of a gap between two numbers of the window. -/
theorem rangeNumbers_gap (hb : b.IsSequenceNumber) {m n : Number}
    (hm : b.InWindow (2 ^ 30 - 1) m) (hn : b.InWindow (2 ^ 30 - 1) n)
    (hgap : b.offset m + 1 < b.offset n) :
    m.inc.lte n.dec = true ∧
      rangeNumbers (m.inc, n.dec)
        = ((b.plus 1).plus (b.offset m)).interval (b.offset n - 1 - b.offset m) := by
  have hthreshold := hb.threshold_toNat
  have hmax := hb.max_toNat
  have hnk := hn.2
  have hlo : m.inc = b.plus (b.offset m + 1) := by
    conv_lhs => rw [hm.1]
    exact inc_plus hb.wf _
  have hhi : n.dec = b.plus (b.offset n - 1) := by
    conv_lhs => rw [hn.1, show b.offset n = b.offset n - 1 + 1 by omega]
    exact dec_plus_succ hb.wf _
  unfold rangeNumbers
  rw [hlo, hhi]
  constructor
  · rw [plus_lte_plus hb.wf (by omega) (by omega), decide_eq_true_iff]
    omega
  · dsimp only
    rw [offset_plus_plus hb.wf (by omega) (by omega), plus_plus, Nat.add_comm 1]
    congr 1
    omega

/-- A gap and the packet after it are what comes after the old greatest number. -/
theorem Tracked.partition_gap (h : Tracked b ranges newest t) (hb : b.IsSequenceNumber) {p : Packet}
    (hp : b.InWindow (2 ^ 30 - 1) p.seq)
    (hgap : b.offset t.receiver.maxSeenSequenceNumber + 1 < b.offset p.seq) :
    ((ranges ++ [(t.receiver.maxSeenSequenceNumber.inc, p.seq.dec)]).flatMap rangeNumbers ++
      (newest ++ [p.seq])).Perm ((b.plus 1).interval (b.offset p.seq)) := by
  obtain ⟨-, hnumbers⟩ := rangeNumbers_gap hb h.maxSeen hp hgap
  -- Up to the old greatest number, then the gap, then the packet.
  have hall : b.offset p.seq = b.offset t.receiver.maxSeenSequenceNumber
      + ((b.offset p.seq - 1 - b.offset t.receiver.maxSeenSequenceNumber) + 1) := by omega
  have hlast : ((b.plus 1).plus (b.offset t.receiver.maxSeenSequenceNumber)).plus
      (b.offset p.seq - 1 - b.offset t.receiver.maxSeenSequenceNumber) = p.seq := by
    rw [plus_plus, Nat.add_sub_cancel' (by omega), plus_plus,
      show 1 + (b.offset p.seq - 1) = b.offset p.seq by omega, ← hp.1]
  rw [hall, interval_add, interval_add, List.flatMap_append, List.flatMap_singleton, hnumbers,
    interval_one (((hb.wf.plus 1).plus _).plus _), hlast, List.append_assoc]
  refine List.Perm.trans ?_ (h.partition.append_right _)
  rw [List.append_assoc]
  exact (List.perm_append_comm_assoc _ _ _).append_left _

/-- The counter grows by the size of a gap. -/
theorem Tracked.pktLoss_gap (h : Tracked b ranges newest t) (hb : b.IsSequenceNumber) {p : Packet}
    (hp : b.InWindow (2 ^ 30 - 1) p.seq)
    (hbefore : t.receiver.maxSeenSequenceNumber.Before p.seq)
    (hgap : b.offset t.receiver.maxSeenSequenceNumber + 1 < b.offset p.seq) :
    (t.receiver.statistics.pktLoss +
        ((p.seq.distance t.receiver.maxSeenSequenceNumber).toUInt64 - 1)).toNat
      = ((ranges ++ [(t.receiver.maxSeenSequenceNumber.inc, p.seq.dec)]).map
          fun range => (rangeNumbers range).length).sum := by
  have hmax := h.maxSeen
  have hpk := hp.2
  have hpn : p.seq.IsSequenceNumber := hb.of_inWindow hp
  have hdistance : (p.seq.distance t.receiver.maxSeenSequenceNumber).toNat
      = b.offset p.seq - b.offset t.receiver.maxSeenSequenceNumber := by
    rw [hpn.distance_comm h.inv.chained.maxSeen,
      h.inv.chained.maxSeen.distance_of_before hpn hbefore,
      ← offset_plus_plus hb.wf (by omega) (by rw [hb.max_toNat]; omega), ← hmax.1, ← hp.1]
  have hlost : ((p.seq.distance t.receiver.maxSeenSequenceNumber).toUInt64 - 1).toNat
      = b.offset p.seq - b.offset t.receiver.maxSeenSequenceNumber - 1 := by
    rw [UInt64.toNat_sub_of_le, UInt32.toNat_toUInt64, hdistance]
    · rfl
    · rw [UInt64.le_iff_toNat_le, UInt32.toNat_toUInt64, hdistance]
      show 1 ≤ _
      omega
  -- The ranges so far have no more numbers than there are up to the greatest one.
  have hsum := h.partition.length_eq
  rw [List.length_append, List.length_flatMap, length_interval, ← h.pktLoss] at hsum
  rw [UInt64.toNat_add, hlost, Nat.mod_eq_of_lt (by omega), h.pktLoss, List.map_append,
    List.sum_append, List.map_singleton, List.sum_singleton, (rangeNumbers_gap hb hmax hp hgap).2,
    length_interval]
  omega

/-- What an arrival adds to the reports is what the greatest number goes over. -/
theorem Tracked.arrival (h : Tracked b ranges newest t) (hb : b.IsSequenceNumber) {p : Packet}
    (hp : b.InWindow (2 ^ 30 - 1) p.seq) (hpos : 0 < b.offset p.seq)
    {out : Receiver × Option (List Number)} (ha : Receiver.Arrival t.receiver p out)
    {ranges' : List (Number × Number)} (hranges : ranges' = ranges ++ (out.2.bind range?).toList)
    {newest' : List Number}
    (hnewest : newest' = if out.1.maxSeenSequenceNumber = t.receiver.maxSeenSequenceNumber
      then newest else newest ++ [p.seq]) :
    (∀ range ∈ ranges', range.1.lte range.2 = true) ∧
    (ranges'.flatMap rangeNumbers ++ newest').Perm
      ((b.plus 1).interval (b.offset out.1.maxSeenSequenceNumber)) ∧
    out.1.statistics.pktLoss.toNat
      = (ranges'.map fun range => (rangeNumbers range).length).sum := by
  have hmax := h.maxSeen
  have hmk := hmax.2
  -- The history tells a new greatest number from the old one by comparing them.
  have hne : ∀ {r' : Receiver}, r'.maxSeenSequenceNumber = p.seq →
      t.receiver.maxSeenSequenceNumber.Before p.seq →
      ¬r'.maxSeenSequenceNumber = t.receiver.maxSeenSequenceNumber := by
    intro r' hnew hbefore he
    rw [← hnew, he] at hbefore
    exact not_before_self _ hbefore
  cases ha with
  | old r' hsame hloss =>
    rw [show (none : Option (List Number)).bind range? = none from rfl, Option.toList_none,
      List.append_nil] at hranges
    rw [if_pos hsame] at hnewest
    subst hranges hnewest
    refine ⟨h.nonempty, ?_, ?_⟩
    · rw [hsame]
      exact h.partition
    · rw [hloss]
      exact h.pktLoss
  | next r' hnext hnew hloss =>
    have hbefore := h.inv.chained.maxSeen.before_inc
    rw [← hnext] at hbefore
    have hoffset : b.offset p.seq = b.offset t.receiver.maxSeenSequenceNumber + 1 := by
      rw [hnext, hmax.1, inc_plus hb.wf, offset_plus hb.wf (by rw [hb.max_toNat]; omega),
        ← hmax.1]
    rw [show (none : Option (List Number)).bind range? = none from rfl, Option.toList_none,
      List.append_nil] at hranges
    rw [if_neg (hne hnew hbefore)] at hnewest
    subst hranges hnewest
    refine ⟨h.nonempty, ?_, ?_⟩
    · rw [hnew, hoffset, interval_add, ← List.append_assoc]
      refine h.partition.append (List.Perm.of_eq ?_)
      rw [interval_one ((hb.wf.plus 1).plus _), plus_plus, Nat.add_comm 1, ← hoffset, ← hp.1]
    · rw [hloss]
      exact h.pktLoss
  | ahead r' hbefore hgap hnew hloss =>
    -- After the greatest number and not the next one, so there is a number in between.
    have hlt := hb.offset_lt_of_before hmax hp hpos hbefore
    have hskip : b.offset t.receiver.maxSeenSequenceNumber + 1 < b.offset p.seq := by
      refine Nat.lt_of_le_of_ne hlt fun he => hgap ?_
      rw [hp.1, ← he, ← inc_plus hb.wf, ← hmax.1]
    rw [show (some [t.receiver.maxSeenSequenceNumber.inc, p.seq.dec] : Option (List Number)).bind
      range? = some (t.receiver.maxSeenSequenceNumber.inc, p.seq.dec) from rfl,
      Option.toList_some] at hranges
    rw [if_neg (hne hnew hbefore)] at hnewest
    subst hranges hnewest
    refine ⟨?_, ?_, ?_⟩
    · intro range hmem
      rcases List.mem_append.mp hmem with hmem | hmem
      · exact h.nonempty range hmem
      · rw [List.mem_singleton.mp hmem]
        exact (rangeNumbers_gap hb hmax hp hskip).1
    · rw [hnew]
      exact h.partition_gap hb hp hskip
    · rw [hloss]
      exact h.pktLoss_gap hb hp hbefore hskip

/-- `Push` of a packet of the window. -/
theorem Tracked.push {s : Reporting} (h : Tracked b s.ranges s.newest s.receiving)
    (hb : b.IsSequenceNumber) {p : Packet} (hn : p.seq.IsSequenceNumber)
    (hp : b.InWindow (2 ^ 30 - 1) p.seq) (hpos : 0 < b.offset p.seq) :
    Tracked b (s.notePush p).ranges (s.notePush p).newest
      { s.receiving with receiver := (s.receiving.receiver.push p).1 } := by
  obtain ⟨hnonempty, hpartition, hloss⟩ := h.arrival hb hp hpos
    (Receiver.arrival_push h.inv.chained hn) rfl rfl
  exact
    { inv := h.inv.push hn
      window := by
        intro q hq
        rcases (Receiver.pushed_push s.receiving.receiver p).mem hq with rfl | hq
        · exact ⟨hp, hpos⟩
        · exact h.window q hq
      delivered := by
        show b.InWindow _ (s.receiving.receiver.push p).1.lastDeliveredSequenceNumber
        rw [Receiver.push_lastDeliveredSequenceNumber]
        exact h.delivered
      pktLost := by
        show (s.receiving.receiver.push p).1.statistics.pktLost.toNat + _
          = b.offset (s.receiving.receiver.push p).1.lastDeliveredSequenceNumber
        rw [Receiver.push_lastDeliveredSequenceNumber, Receiver.push_pktLost]
        exact h.pktLost
      nonempty := hnonempty
      partition := hpartition
      pktLoss := hloss }

/-- An acknowledgement is no loss report. -/
theorem noteACK_ranges (s : Reporting) (now : UInt64) :
    (s.noteACK now).ranges = s.ranges ∧ (s.noteACK now).newest = s.newest := by
  unfold noteACK
  split
  · exact ⟨rfl, rfl⟩
  · exact ⟨rfl, rfl⟩
  · exact ⟨rfl, rfl⟩

/-- One event whose packet, if it has one, is in the window. -/
theorem Tracked.step {s s' : Reporting} (h : Tracked b s.ranges s.newest s.receiving)
    (hb : b.IsSequenceNumber) {e : Event}
    (hpushed : ∀ p ∈ pushed? e, b.InWindow (2 ^ 30 - 1) p.seq ∧ 0 < b.offset p.seq)
    (hs : s.step e = some s') : Tracked b s'.ranges s'.newest s'.receiving := by
  obtain ⟨receiving, hreceiving, hs'⟩ := Option.bind_eq_some_iff.mp hs
  cases hs'
  -- Every other event leaves the reports alone, so their history is fixed for it.
  have hother : pushed? e = none → Tracked b s.ranges s.newest receiving := by
    intro hnone
    have hparts := Receiving.step_parts
      (P := fun ps t => ps = [] → Tracked b s.ranges s.newest t)
      (fun ps t p _ _ hnil => absurd hnil (List.append_ne_nil_of_right_ne_nil _ (by simp)))
      (fun ps t r hr ht hnil => (ht hnil).of_sameBuffer hr)
      (fun ps t now ht hnil => (ht hnil).tickDeliver hb now) (l := []) (fun _ => h) hreceiving
    rw [hnone] at hparts
    exact hparts rfl
  cases e with
  | push p =>
    obtain ⟨hp, hpos⟩ := hpushed p rfl
    simp only [Receiving.step] at hreceiving
    split at hreceiving
    · rename_i hn
      cases hreceiving
      exact h.push hb hn hp hpos
    · cases hreceiving
  | tickACK now =>
    show Tracked b (s.noteACK now).ranges (s.noteACK now).newest receiving
    rw [(s.noteACK_ranges now).1, (s.noteACK_ranges now).2]
    exact hother rfl
  | tickNAK now => exact hother rfl
  | tickDeliver now => exact hother rfl
  | tickRate now => exact hother rfl
  | tick now =>
    show Tracked b (s.noteACK now).ranges (s.noteACK now).newest receiving
    rw [(s.noteACK_ranges now).1, (s.noteACK_ranges now).2]
    exact hother rfl

end

/-- A window from a number on, seen from the number before it. -/
theorem inWindow_dec {a n : Number} (ha : a.IsSequenceNumber) {k : Nat} (hk : k < 2 ^ 30 - 1)
    (hn : a.InWindow k n) : a.dec.InWindow (2 ^ 30 - 1) n ∧ 0 < a.dec.offset n := by
  have hmax := ha.dec.max_toNat
  have hnk := hn.2
  have hplus : n = a.dec.plus (1 + a.offset n) := by
    rw [← plus_plus, dec_plus_one ha.wf]
    exact hn.1
  have hoffset : a.dec.offset n = 1 + a.offset n := by
    conv_lhs => rw [hplus]
    exact offset_plus ha.dec.wf (by omega)
  exact ⟨⟨by rw [hoffset]; exact hplus, by omega⟩, by omega⟩

/-- The accounting of losses, from every initial sequence number and in every run whose packets are
in a window from there on. -/
theorem losses_accounted (config : ReceiveConfig)
    (hinit : config.initialSequenceNumber.IsSequenceNumber) (k : Nat) (hk : k < 2 ^ 30 - 1)
    (events : List Event)
    (hpushed : ∀ p ∈ events.filterMap pushed?, config.initialSequenceNumber.InWindow k p.seq)
    (s : Reporting) (hrun : run step (init config) events = some s) :
    s.LossesAccounted config.initialSequenceNumber := by
  have hmeets : RunMeets step
      (fun _ e => ∀ p ∈ pushed? e, config.initialSequenceNumber.InWindow k p.seq) (init config)
      events := by
    refine runMeets_of_forall (fun e he _ p hp => ?_) _
    exact hpushed p (List.mem_filterMap.mpr ⟨e, he, hp⟩)
  have h : Tracked config.initialSequenceNumber.dec s.ranges s.newest s.receiving :=
    run_induct_of
      (fun t : Reporting =>
        Tracked config.initialSequenceNumber.dec t.ranges t.newest t.receiving)
      (fun t e t' hp ht hs =>
        ht.step hinit.dec (fun p hmem => inWindow_dec hinit hk (hp p hmem)) hs)
      hmeets (tracked_init hinit) hrun
  have hpartition := h.partition
  rw [dec_plus_one hinit.wf] at hpartition
  -- The ranges are parts of an interval that has no number twice.
  have hnodup : (s.ranges.flatMap rangeNumbers ++ s.newest).Nodup := by
    have hbound := h.maxSeen.2
    refine hpartition.nodup_iff.mpr (nodup_interval hinit.wf ?_)
    rw [hinit.max_toNat]
    omega
  exact
    { pktLost := h.pktLost
      nonempty := h.nonempty
      disjoint := (List.nodup_flatMap.mp (List.Nodup.of_append_left hnodup)).2
      partition := hpartition
      pktLoss := h.pktLoss }

/-- Two gaps, one of them filled in part, and a delivery that goes over the other part. -/
def lossesRun : List Event :=
  [.push (Receiving.samplePacket 5 10), .push (Receiving.samplePacket 8 20),
   .push (Receiving.samplePacket 7 20), .push (Receiving.samplePacket 11 500), .tick 30]

def lossesEnd : Reporting := runD step (init Receiving.sampleConfig) lossesRun

/-- Of the four reported numbers one came late, the delivery went over one, and two are still
missing. -/
theorem losses_accounted_lossesEnd :
    lossesEnd.ranges.map (fun range => (range.1.val, range.2.val)) = [(6, 7), (9, 10)] ∧
    lossesEnd.receiving.receiver.statistics.pktLoss = 4 ∧
    lossesEnd.receiving.receiver.statistics.pktLost = 1 ∧
    lossesEnd.LossesAccounted Receiving.sampleConfig.initialSequenceNumber :=
  ⟨by decide +kernel, by decide +kernel, by decide +kernel,
    losses_accounted Receiving.sampleConfig (by decide) 100 (by decide) lossesRun
      (by decide +kernel) lossesEnd (run_eq_some_runD (by decide +kernel))⟩

end Reporting

end Gosrt
