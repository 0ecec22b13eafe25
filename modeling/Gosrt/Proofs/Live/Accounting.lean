import Gosrt.Proofs.Live.Receiving
import Gosrt.Proofs.Live.Sending

/-!
# `Gosrt.Proofs.Live.Accounting`: the counters of the receiver

`Push` has five exits, and each updates other counters. The proof keeps a ledger of the packets
themselves: every pushed packet was kept or dropped, and every packet that was kept is delivered
or in the buffer (`Ledger`). Each pair of counters counts one of the lists.

One exit of `Push` updates no counter: the insertion loop comes to the end of the list. There the
packet would be in none of the lists. It is never taken, since the buffer ends at the greatest
number seen (`Chained.place_ne_skipped`).
-/

set_option autoImplicit false

namespace Gosrt

open Lib

open Sending (payloadBytes payloadBytes_append payloadBytes_perm)

/-! ### A pair of counters -/

/-- The two counters count the packets of a list and their payload bytes. -/
structure Counts (pkt byte : UInt64) (ps : List Packet) : Prop where
  pkt : pkt = UInt64.ofNat ps.length
  byte : byte = UInt64.ofNat (payloadBytes ps)

namespace Counts

variable {pkt byte : UInt64} {ps qs : List Packet}

theorem nil : Counts 0 0 [] := ⟨rfl, rfl⟩

theorem cons (h : Counts pkt byte ps) (p : Packet) :
    Counts (pkt + 1) (byte + p.len) (p :: ps) where
  pkt := by
    rw [h.pkt, List.length_cons, UInt64.ofNat_add]
    rfl
  byte := by
    rw [h.byte, ← List.singleton_append, payloadBytes_append, UInt64.ofNat_add,
      UInt64.add_comm]
    simp [payloadBytes, Packet.len]

theorem of_perm (h : Counts pkt byte ps) (hperm : ps.Perm qs) : Counts pkt byte qs where
  pkt := by rw [h.pkt, hperm.length_eq]
  byte := by rw [h.byte, payloadBytes_perm hperm]

theorem concat (h : Counts pkt byte ps) (p : Packet) :
    Counts (pkt + 1) (byte + p.len) (ps ++ [p]) :=
  (h.cons p).of_perm (List.perm_append_singleton p ps).symm

/-- The loop of `Tick` counts the packets down that it delivers. -/
theorem remove (h : Counts pkt byte (ps ++ qs)) :
    Counts (pkt - UInt64.ofNat ps.length) (ps.foldl (fun acc p => acc - p.len) byte) qs := by
  have hloop : ∀ (ps : List Packet) (acc : UInt64),
      ps.foldl (fun acc p => acc - p.len) acc = acc - UInt64.ofNat (payloadBytes ps) := by
    intro ps
    induction ps with
    | nil =>
      intro acc
      exact (UInt64.sub_zero acc).symm
    | cons p rest ih =>
      intro acc
      rw [List.foldl_cons, ih, ← List.singleton_append, payloadBytes_append, UInt64.ofNat_add,
        ← sub_sub]
      rfl
  constructor
  · rw [h.pkt, List.length_append, UInt64.ofNat_add, add_sub_cancel_left]
  · rw [hloop, h.byte, payloadBytes_append, UInt64.ofNat_add, add_sub_cancel_left]

/-- The counters of a list that was split. -/
theorem split (h : Counts pkt byte (ps ++ qs)) :
    pkt = UInt64.ofNat ps.length + UInt64.ofNat qs.length ∧
      byte = UInt64.ofNat (payloadBytes ps) + UInt64.ofNat (payloadBytes qs) := by
  rw [h.pkt, h.byte, List.length_append, payloadBytes_append, UInt64.ofNat_add, UInt64.ofNat_add]
  exact ⟨rfl, rfl⟩

theorem pkt_toNat (h : Counts pkt byte ps) (hlt : ps.length < 2 ^ 64) : pkt.toNat = ps.length := by
  rw [h.pkt]
  exact UInt64.toNat_ofNat_of_lt' hlt

theorem byte_toNat (h : Counts pkt byte ps) (hlt : payloadBytes ps < 2 ^ 64) :
    byte.toNat = payloadBytes ps := by
  rw [h.byte]
  exact UInt64.toNat_ofNat_of_lt' hlt

/-- The packets of a part of a list are not more, as long as the counters do not wrap. -/
theorem pkt_le {pkt' byte' : UInt64} (h : Counts pkt byte ps) (h' : Counts pkt' byte' qs)
    (hsub : ps.Sublist qs) (hlt : qs.length < 2 ^ 64) : pkt ≤ pkt' := by
  have hle := hsub.length_le
  rw [UInt64.le_iff_toNat_le, h.pkt_toNat (by omega), h'.pkt_toNat hlt]
  exact hle

end Counts

namespace Receiving

/-! ### The ledger -/

/-- Where the pushed packets went, and what the counters count. -/
structure Ledger (pushed : List Packet) (s : Receiving)
    (kept dropped belated late : List Packet) : Prop where
  all : pushed.Perm (kept ++ dropped)
  held : kept.Perm (s.delivered ++ s.receiver.packetList)
  belated_dropped : belated.Sublist dropped
  late_kept : late.Sublist kept
  pushed : Counts s.receiver.statistics.pkt s.receiver.statistics.byte pushed
  kept : Counts s.receiver.statistics.pktUnique s.receiver.statistics.byteUnique kept
  dropped : Counts s.receiver.statistics.pktDrop s.receiver.statistics.byteDrop dropped
  buffered : Counts s.receiver.statistics.pktBuf s.receiver.statistics.byteBuf
    s.receiver.packetList
  belated : Counts s.receiver.statistics.pktBelated s.receiver.statistics.byteBelated belated
  late : Counts s.receiver.statistics.pktLate s.receiver.statistics.byteLate late

/-- There is a ledger for these packets. -/
def HasLedger (pushed : List Packet) (s : Receiving) : Prop :=
  ∃ kept dropped belated late, Ledger pushed s kept dropped belated late

theorem hasLedger_init (config : ReceiveConfig) : HasLedger [] (init config) :=
  ⟨[], [], [], [], List.Perm.refl _, List.Perm.refl _, List.Sublist.refl _, List.Sublist.refl _,
    .nil, .nil, .nil, .nil, .nil, .nil⟩

section
variable {pushed : List Packet} {s : Receiving}

/-- A packet that is kept is one more of the packets that were kept. -/
theorem perm_keep {pushed kept dropped : List Packet} (h : pushed.Perm (kept ++ dropped))
    (p : Packet) : (pushed ++ [p]).Perm (p :: kept ++ dropped) :=
  (List.perm_append_singleton p pushed).trans (h.cons p)

theorem perm_drop {pushed kept dropped : List Packet} (h : pushed.Perm (kept ++ dropped))
    (p : Packet) : (pushed ++ [p]).Perm (kept ++ p :: dropped) :=
  (perm_keep h p).trans List.perm_middle.symm

/-- `Push`, for a packet that finds its place. -/
theorem HasLedger.push (h : HasLedger pushed s) {p : Packet} {r : Receiver}
    (hpush : Receiver.Pushed s.receiver p r)
    (hplace : ¬p.seq.lte s.receiver.lastDeliveredSequenceNumber = true →
      p.seq.lte s.receiver.maxSeenSequenceNumber = true →
      Receiver.place p s.receiver.packetList ≠ .skipped) :
    HasLedger (pushed ++ [p]) { s with receiver := r } := by
  obtain ⟨kept, dropped, belated, late, h⟩ := h
  cases hpush with
  | belated =>
    exact ⟨kept, p :: dropped, p :: belated, late,
      { h with
        all := perm_drop h.all p
        belated_dropped := h.belated_dropped.cons_cons p
        pushed := h.pushed.concat p
        dropped := h.dropped.cons p
        belated := h.belated.cons p }⟩
  | dropped =>
    exact ⟨kept, p :: dropped, belated, late,
      { h with
        all := perm_drop h.all p
        belated_dropped := h.belated_dropped.cons p
        pushed := h.pushed.concat p
        dropped := h.dropped.cons p }⟩
  | inserted packets hperm =>
    -- The packet is in the buffer, somewhere.
    have hheld : (p :: kept).Perm (s.delivered ++ packets) :=
      (h.held.cons p).trans (List.perm_middle.symm.trans (hperm.symm.append_left _))
    exact ⟨p :: kept, dropped, belated, p :: late,
      { h with
        all := perm_keep h.all p
        held := hheld
        late_kept := h.late_kept.cons_cons p
        pushed := h.pushed.concat p
        kept := h.kept.cons p
        buffered := (h.buffered.cons p).of_perm hperm.symm
        late := h.late.cons p }⟩
  | appended pktLoss =>
    have hheld : (p :: kept).Perm (s.delivered ++ (s.receiver.packetList ++ [p])) := by
      rw [← List.append_assoc]
      exact (h.held.cons p).trans (List.perm_append_singleton p _).symm
    exact ⟨p :: kept, dropped, belated, late,
      { h with
        all := perm_keep h.all p
        held := hheld
        late_kept := h.late_kept.cons p
        pushed := h.pushed.concat p
        kept := h.kept.cons p
        buffered := h.buffered.concat p }⟩
  | skipped hnew hlte hskipped => exact absurd hskipped (hplace hnew hlte)

theorem HasLedger.of_sameBuffer (h : HasLedger pushed s) {r : Receiver}
    (hr : s.receiver.SameBuffer r) : HasLedger pushed { s with receiver := r } := by
  obtain ⟨kept, dropped, belated, late, h⟩ := h
  obtain ⟨hlist, -, -, msBuf, hstatistics⟩ := hr
  cases r
  cases hlist
  cases hstatistics
  exact ⟨kept, dropped, belated, late, { h with }⟩

/-- The delivered packets are in the ledger as before. -/
theorem HasLedger.tickDeliver (h : HasLedger pushed s) (now : UInt64) :
    HasLedger pushed (s.tickDeliver now) := by
  obtain ⟨kept, dropped, belated, late, h⟩ := h
  have hsplit : s.receiver.packetList
      = s.receiver.packetList.takeWhile (s.receiver.due now)
        ++ s.receiver.packetList.dropWhile (s.receiver.due now) :=
    List.takeWhile_append_dropWhile.symm
  have hheld := h.held
  have hbuffered := h.buffered
  rw [hsplit, ← List.append_assoc] at hheld
  rw [hsplit] at hbuffered
  exact ⟨kept, dropped, belated, late,
    { h with
      held := hheld
      buffered := hbuffered.remove }⟩

/-- The ledger gives every equation between the counters. -/
theorem Ledger.accounted {kept dropped belated late : List Packet}
    (h : Ledger pushed s kept dropped belated late) : s.Accounted pushed := by
  obtain ⟨hpkt, hbyte⟩ := (h.pushed.of_perm h.all).split
  obtain ⟨hpktUnique, hbyteUnique⟩ := (h.kept.of_perm h.held).split
  have hlength := h.all.length_eq
  have hheld := h.held.length_eq
  have hbytes := payloadBytes_perm h.all
  have hheldBytes := payloadBytes_perm h.held
  rw [List.length_append] at hlength hheld
  rw [payloadBytes_append] at hbytes hheldBytes
  exact
    { pkt := by rw [hpkt, h.kept.pkt, h.dropped.pkt]
      byte := by rw [hbyte, h.kept.byte, h.dropped.byte]
      pktUnique := by rw [hpktUnique, h.buffered.pkt]
      byteUnique := by rw [hbyteUnique, h.buffered.byte]
      pktBuf := h.buffered.pkt
      byteBuf := h.buffered.byte
      pktExact := by
        intro hlt
        refine ⟨?_, ?_, h.buffered.pkt_toNat (by omega),
          h.belated.pkt_le h.dropped h.belated_dropped (by omega),
          h.late.pkt_le h.kept h.late_kept (by omega)⟩
        · rw [h.pushed.pkt_toNat hlt, h.kept.pkt_toNat (by omega), h.dropped.pkt_toNat (by omega),
            hlength]
        · rw [h.kept.pkt_toNat (by omega), h.buffered.pkt_toNat (by omega), hheld]
      byteExact := by
        intro hlt
        refine ⟨?_, ?_, h.buffered.byte_toNat (by omega)⟩
        · rw [h.pushed.byte_toNat hlt, h.kept.byte_toNat (by omega),
            h.dropped.byte_toNat (by omega), hbytes]
        · rw [h.kept.byte_toNat (by omega), h.buffered.byte_toNat (by omega), hheldBytes] }

end

/-- The counters add up in every run, whatever packets the peer sends. -/
theorem accounted_of_run {config : ReceiveConfig}
    (hinit : config.initialSequenceNumber.IsSequenceNumber) {events : List Event} {s : Receiving}
    (hrun : run step (init config) events = some s) :
    s.Accounted (events.filterMap pushed?) := by
  have hinv : s.Inv config.initialSequenceNumber.dec ∧
      HasLedger ([] ++ events.filterMap pushed?) s := by
    refine run_parts (P := fun pushed t =>
      t.Inv config.initialSequenceNumber.dec ∧ HasLedger pushed t) ?_ ?_ ?_
      ⟨inv_init hinit, hasLedger_init config⟩ hrun
    · rintro pushed t p hp ⟨hinv, hledger⟩
      exact ⟨hinv.push hp, hledger.push (Receiver.pushed_push _ p)
        (hinv.chained.place_ne_skipped hp)⟩
    · rintro pushed t r hr ⟨hinv, hledger⟩
      exact ⟨hinv.of_sameBuffer hr, hledger.of_sameBuffer hr⟩
    · rintro pushed t now ⟨hinv, hledger⟩
      exact ⟨hinv.tickDeliver now, hledger.tickDeliver now⟩
  obtain ⟨kept, dropped, belated, late, h⟩ := hinv.2
  exact h.accounted

/-- Each counter of the sample run has its packet, and they add up. -/
theorem accounted_sampleEnd :
    sampleEnd.receiver.statistics.pktBuf = 2 ∧ sampleEnd.receiver.statistics.pktLate = 1 ∧
      sampleEnd.receiver.statistics.pktBelated = 1 ∧ sampleEnd.receiver.statistics.pktDrop = 2 ∧
      sampleEnd.Accounted (sampleRun.filterMap pushed?) :=
  ⟨by decide +kernel, by decide +kernel, by decide +kernel, by decide +kernel,
    accounted_of_run (by decide) (run_eq_some_runD (by decide +kernel))⟩

/-! ### Counters that wrap -/

/-- A belated packet, over and over. -/
theorem run_belated {p : Packet} (hp : p.seq.IsSequenceNumber) (n : Nat) :
    ∀ {s : Receiving}, p.seq.lte s.receiver.lastDeliveredSequenceNumber = true →
      ∃ s', run step s (List.replicate n (.push p)) = some s' ∧
        s'.receiver.statistics.pktBelated
          = s.receiver.statistics.pktBelated + UInt64.ofNat n ∧
        s'.receiver.statistics.pktDrop = s.receiver.statistics.pktDrop + UInt64.ofNat n := by
  induction n with
  | zero =>
    intro s _
    exact ⟨s, rfl, (UInt64.add_zero _).symm, (UInt64.add_zero _).symm⟩
  | succ n ih =>
    intro s hold
    have hpush : (s.receiver.push p).1
        = ((s.receiver.countPush p).countBelated p).countDrop p := by
      unfold Receiver.push
      dsimp only
      rw [if_pos (show p.seq.lte (s.receiver.countPush p).lastDeliveredSequenceNumber = true
        from hold)]
    obtain ⟨s', hrun, hbelated, hdrop⟩ := ih (s := { s with receiver := (s.receiver.push p).1 }) (by
      rw [Receiver.push_lastDeliveredSequenceNumber]
      exact hold)
    refine ⟨s', ?_, ?_, ?_⟩
    · rw [List.replicate_succ, run_cons, step, if_pos hp]
      exact hrun
    · rw [hbelated, hpush, UInt64.ofNat_add, UInt64.add_comm (UInt64.ofNat n), ← UInt64.add_assoc]
      rfl
    · rw [hdrop, hpush, UInt64.ofNat_add, UInt64.add_comm (UInt64.ofNat n), ← UInt64.add_assoc]
      rfl

/-- One packet is delivered, two are acknowledged, and one of these comes again. -/
def droppedRun : List Event :=
  [.push (samplePacket 5 10), .push (samplePacket 6 40), .push (samplePacket 7 50), .tick 30,
   .push (samplePacket 6 40)]

/-- Both counters go up with every belated packet. -/
theorem run_droppedRun (n : Nat) :
    ∃ s, run step (init sampleConfig)
        (droppedRun ++ List.replicate n (.push (samplePacket 5 10))) = some s ∧
      s.receiver.statistics.pktBelated = UInt64.ofNat n ∧
      s.receiver.statistics.pktDrop = 1 + UInt64.ofNat n := by
  have hstart : run step (init sampleConfig) droppedRun
      = some (runD step (init sampleConfig) droppedRun) := run_eq_some_runD (by decide +kernel)
  obtain ⟨s, hrun, hbelated, hdrop⟩ := run_belated (p := samplePacket 5 10) (by decide) n
    (s := runD step (init sampleConfig) droppedRun) (by decide +kernel)
  refine ⟨s, ?_, hbelated.trans ?_, hdrop.trans ?_⟩
  · rw [run_append, hstart, Option.bind_some]
    exact hrun
  · rw [show (runD step (init sampleConfig) droppedRun).receiver.statistics.pktBelated = 0 by
      decide +kernel, UInt64.zero_add]
  · rw [show (runD step (init sampleConfig) droppedRun).receiver.statistics.pktDrop = 1 by
      decide +kernel]

/-- After `2 ^ 64` dropped packets `PktDrop` is zero again. If one of them was not belated,
`PktBelated` is greater. -/
theorem pktDrop_wraps :
    ∃ s, run step (init sampleConfig)
        (droppedRun ++ List.replicate (2 ^ 64 - 1) (.push (samplePacket 5 10))) = some s ∧
      s.receiver.statistics.pktBelated = 0xFFFFFFFFFFFFFFFF ∧
      s.receiver.statistics.pktDrop = 0 ∧
      ¬s.receiver.statistics.pktBelated ≤ s.receiver.statistics.pktDrop := by
  obtain ⟨s, hrun, hbelated, hdrop⟩ := run_droppedRun (2 ^ 64 - 1)
  have hall : UInt64.ofNat (2 ^ 64 - 1) = 0xFFFFFFFFFFFFFFFF := by decide +kernel
  rw [hall] at hbelated hdrop
  refine ⟨s, hrun, hbelated, hdrop, ?_⟩
  rw [hbelated, hdrop]
  decide

end Receiving

end Gosrt
