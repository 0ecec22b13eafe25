import Gosrt.Proofs.Live.Receiving
import Gosrt.Proofs.Live.Send
import Gosrt.Proofs.Wire

/-!
# `Gosrt.Proofs.Live.NakPath`: a loss report from the receiver to the sender

`periodicNAK` scans the buffer for gaps, `Marshal` writes them as ranges until the packet is
full, `Unmarshal` flattens the ranges and sorts all their ends, and `NAK` goes through the loss
list backwards. All four agree in a window of the circular order.

`Gaps` is what they have in common: the ranges are not empty, and each one starts after the end
of the one before. The scan makes such ranges and they cover what is missing (`gaps_nakLoop`,
`covers_nakLoop_iff`). A part of them that `Marshal` writes is of the same kind, the sort finds
nothing to do (`Gaps.sort_eq`), and no packet is in two of them (`Gaps.rangeHits_eq`).
-/

set_option autoImplicit false

namespace Gosrt

open Lib Number

/-! ### Sorting in a window -/

namespace Window

variable {b : Number} {k : Nat} {ns : List Number}

/-- On the numbers of a window the circular comparison is the one of their offsets, so it is a
strict weak order there. On all numbers it is none. -/
theorem strictWeakOn (hw : Window b k) (hns : ∀ n ∈ ns, b.InWindow k n) :
    StrictWeakOn Number.lt ns := by
  have hlt : ∀ m ∈ ns, ∀ n ∈ ns, m.lt n = decide (b.offset m < b.offset n) := fun m hm n hn =>
    (hns m hm).lt_eq hw.wf hw.narrow (hns n hn)
  refine ⟨?_, ?_, ?_⟩
  · intro m hm
    rw [hlt m hm m hm]
    exact decide_eq_false (Nat.lt_irrefl _)
  · intro l hl m hm n hn
    rw [hlt l hl m hm, hlt m hm n hn, hlt l hl n hn, decide_eq_true_iff, decide_eq_true_iff,
      decide_eq_true_iff]
    exact Nat.lt_trans
  · intro l hl m hm n hn
    rw [hlt l hl m hm, hlt m hm n hn, hlt l hl n hn, decide_eq_false_iff_not,
      decide_eq_false_iff_not, decide_eq_false_iff_not]
    omega

/-- To be in order is to have the offsets in order. -/
theorem pairwise_iff (hw : Window b k) (hns : ∀ n ∈ ns, b.InWindow k n) :
    ns.Pairwise (fun m n => n.lt m = false) ↔
      ns.Pairwise fun m n => b.offset m ≤ b.offset n := by
  refine List.Pairwise.iff_of_mem ?_
  intro m n hm hn
  rw [(hns n hn).lt_eq hw.wf hw.narrow (hns m hm), decide_eq_false_iff_not, Nat.not_lt]

/-- Sorting numbers that are in order does nothing. -/
theorem sort_of_sorted (hw : Window b k) (hns : ∀ n ∈ ns, b.InWindow k n)
    (hsorted : ns.Pairwise fun m n => b.offset m ≤ b.offset n) (sort : SortSlice) :
    sort.sort Number.lt ns = ns := by
  refine sort.sort_of_sorted (hw.strictWeakOn hns) ?_ ((hw.pairwise_iff hns).mpr hsorted)
  intro m hm n hn
  rw [(hns m hm).lt_eq hw.wf hw.narrow (hns n hn), (hns n hn).lt_eq hw.wf hw.narrow (hns m hm),
    decide_eq_false_iff_not, decide_eq_false_iff_not, (hns m hm).eq_iff (hns n hn)]
  omega

end Window

/-! ### Ranges in a window -/

/-- Ranges in a window that are not empty, each one after the one before. The first one starts
after the offset `a`. -/
def Gaps (b : Number) (k : Nat) : Nat → List Number → Prop
  | a, lo :: hi :: rest =>
    b.InWindow k lo ∧ b.InWindow k hi ∧ a < b.offset lo ∧ b.offset lo ≤ b.offset hi ∧
      Gaps b k (b.offset hi) rest
  | _, [_] => False
  | _, [] => True

namespace Gaps

variable {b : Number} {k : Nat} {ns : List Number}

theorem mono {a a' : Nat} (h : Gaps b k a ns) (hle : a' ≤ a) : Gaps b k a' ns := by
  match ns, h with
  | [], _ => trivial
  | [_], h => exact h.elim
  | lo :: hi :: rest, ⟨hlo, hhi, hafter, hrange, hrest⟩ =>
    exact ⟨hlo, hhi, Nat.lt_of_le_of_lt hle hafter, hrange, hrest⟩

theorem even : ∀ {a : Nat}, Gaps b k a ns → ns.length % 2 = 0 := by
  induction ns using CIFNAK.rangeInduct with
  | nil => exact fun _ => rfl
  | single n => exact fun h => h.elim
  | range lo hi rest ih =>
    intro a h
    have hrest := ih h.2.2.2.2
    rw [List.length_cons, List.length_cons]
    omega

/-- All numbers are in the window and after the start. -/
theorem mem : ∀ {a : Nat}, Gaps b k a ns → ∀ n ∈ ns, b.InWindow k n ∧ a < b.offset n := by
  induction ns using CIFNAK.rangeInduct with
  | nil => exact fun _ _ hn => nomatch hn
  | single n => exact fun h => h.elim
  | range lo hi rest ih =>
    rintro a ⟨hlo, hhi, hafter, hrange, hrest⟩ n hn
    rcases List.mem_cons.mp hn with rfl | hn
    · exact ⟨hlo, hafter⟩
    rcases List.mem_cons.mp hn with rfl | hn
    · exact ⟨hhi, by omega⟩
    · have hmem := ih hrest n hn
      exact ⟨hmem.1, by omega⟩

/-- The ends of the ranges are in order. -/
theorem sorted : ∀ {a : Nat}, Gaps b k a ns →
    ns.Pairwise fun m n => b.offset m ≤ b.offset n := by
  induction ns using CIFNAK.rangeInduct with
  | nil => exact fun _ => List.Pairwise.nil
  | single n => exact fun h => h.elim
  | range lo hi rest ih =>
    rintro a ⟨hlo, hhi, hafter, hrange, hrest⟩
    have hlater : ∀ n ∈ rest, b.offset hi < b.offset n := fun n hn => (hrest.mem n hn).2
    refine List.Pairwise.cons ?_ (List.Pairwise.cons ?_ (ih hrest))
    · intro n hn
      rcases List.mem_cons.mp hn with rfl | hn
      · exact hrange
      · exact Nat.le_trans hrange (Nat.le_of_lt (hlater n hn))
    · exact fun n hn => Nat.le_of_lt (hlater n hn)

/-- A part that `Marshal` writes. -/
theorem written : ∀ {a : Nat} (bytesWritten : Nat), Gaps b k a ns →
    Gaps b k a (CIFNAK.written bytesWritten ns) := by
  induction ns using CIFNAK.rangeInduct with
  | nil => exact fun _ _ => trivial
  | single n => exact fun _ h => h.elim
  | range lo hi rest ih =>
    rintro a bytesWritten ⟨hlo, hhi, hafter, hrange, hrest⟩
    unfold CIFNAK.written
    dsimp only
    -- The packet is full after this range, or there is more.
    split
    · exact ⟨hlo, hhi, hafter, hrange, trivial⟩
    · exact ⟨hlo, hhi, hafter, hrange, ih _ hrest⟩

/-- Sorting ranges that are in order does nothing. -/
theorem sort_eq (hw : Window b k) {a : Nat} (h : Gaps b k a ns) (sort : SortSlice) :
    sort.sort Number.lt ns = ns :=
  hw.sort_of_sorted (fun n hn => (h.mem n hn).1) h.sorted sort

/-- The inclusive bounds of a range, in offsets. -/
theorem inRange_iff (hw : Window b k) {lo hi n : Number} (hlo : b.InWindow k lo)
    (hhi : b.InWindow k hi) (hn : b.InWindow k n) :
    (n.gte lo && n.lte hi) = true ↔ b.offset lo ≤ b.offset n ∧ b.offset n ≤ b.offset hi := by
  rw [Bool.and_eq_true, hn.gte_eq hw.wf hw.narrow hlo, hn.lte_eq hw.wf hw.narrow hhi,
    decide_eq_true_iff, decide_eq_true_iff]

/-- What the ranges cover is after the start. -/
theorem lt_of_covers (hw : Window b k) {n : Number} (hn : b.InWindow k n) :
    ∀ {a : Nat}, Gaps b k a ns → CIFNAK.covers n ns = true → a < b.offset n := by
  induction ns using CIFNAK.rangeInduct with
  | nil => exact fun _ h => nomatch h
  | single n => exact fun h => h.elim
  | range lo hi rest ih =>
    rintro a ⟨hlo, hhi, hafter, hrange, hrest⟩ hcovers
    unfold CIFNAK.covers at hcovers
    rw [Bool.or_eq_true, inRange_iff hw hlo hhi hn] at hcovers
    -- It is in the first range, or in one that starts after that.
    rcases hcovers with hin | hlater
    · omega
    · have := ih hrest hlater
      omega

/-- A number is in at most one of the ranges. -/
theorem rangeHits_eq (hw : Window b k) {n : Number} (hn : b.InWindow k n) :
    ∀ {a : Nat}, Gaps b k a ns →
      Sender.rangeHits n ns = if CIFNAK.covers n ns then 1 else 0 := by
  induction ns using CIFNAK.rangeInduct with
  | nil => exact fun _ => rfl
  | single n => exact fun h => h.elim
  | range lo hi rest ih =>
    rintro a ⟨hlo, hhi, hafter, hrange, hrest⟩
    unfold Sender.rangeHits CIFNAK.covers
    rw [ih hrest]
    by_cases hin : (n.gte lo && n.lte hi) = true
    · -- A later range starts after the end of this one.
      have hnot : ¬CIFNAK.covers n rest = true := by
        intro hcovers
        have hafter' := lt_of_covers hw hn hrest hcovers
        have hle := ((inRange_iff hw hlo hhi hn).mp hin).2
        omega
      rw [hin, Bool.true_or, if_neg hnot]
      rfl
    · rw [Bool.eq_false_of_not_eq_true hin, Bool.false_or]
      rfl

/-- A part covers less. -/
theorem covers_of_written {n : Number} :
    ∀ bytesWritten, CIFNAK.covers n (CIFNAK.written bytesWritten ns) = true →
      CIFNAK.covers n ns = true := by
  induction ns using CIFNAK.rangeInduct with
  | nil => exact fun _ h => h
  | single n => exact fun _ h => absurd h Bool.false_ne_true
  | range lo hi rest ih =>
    intro bytesWritten h
    unfold CIFNAK.written at h
    dsimp only at h
    unfold CIFNAK.covers
    split at h
    · unfold CIFNAK.covers at h
      rw [Bool.or_eq_true] at h ⊢
      exact Or.inl (h.resolve_right Bool.false_ne_true)
    · unfold CIFNAK.covers at h
      rw [Bool.or_eq_true] at h ⊢
      exact h.imp_right (ih _)

/-- Over the wire go the ranges that are written, and they arrive in their order. -/
theorem unmarshal_marshal (hw : Window b k) (hb : b.IsSequenceNumber) {a : Nat}
    (h : Gaps b k a ns) (sort : SortSlice) :
    ∃ data, CIFNAK.marshal { lostPacketSequenceNumber := ns } = .ok data ∧
      CIFNAK.unmarshal sort data = .ok { lostPacketSequenceNumber := CIFNAK.written 0 ns } := by
  have hwritten := h.written 0
  have hnumbers : ∀ n ∈ ns, n.IsSequenceNumber := fun n hn => hb.of_inWindow (h.mem n hn).1
  refine ⟨CIFNAK.marshalLoop 0 ns, ?_, ?_⟩
  · unfold CIFNAK.marshal
    rw [if_neg (not_not.mpr h.even)]
  · rw [CIFNAK.unmarshal_eq_ok sort (CIFNAK.length_marshalLoop ns 0)
      (CIFNAK.unmarshalLoop_marshalLoop ns 0 hnumbers) hwritten.even, hwritten.sort_eq hw]

/-- A packet is in one range or in none, so `NAK` hands it over once or not at all. -/
theorem resent_eq (hw : Window b k) {a : Nat} (h : Gaps b k a ns) {ps : List Packet}
    (hps : ∀ p ∈ ps, b.InWindow k p.seq) :
    Sender.resent ns ps
      = (ps.filter fun p => CIFNAK.covers p.seq ns).reverse.map Sender.retransmitted := by
  have hloop : ∀ l : List Packet, (∀ p ∈ l, b.InWindow k p.seq) →
      (l.flatMap fun p => List.replicate (Sender.rangeHits p.seq ns) (Sender.retransmitted p))
        = (l.filter fun p => CIFNAK.covers p.seq ns).map Sender.retransmitted := by
    intro l
    induction l with
    | nil => exact fun _ => rfl
    | cons p rest ih =>
      intro hl
      rw [List.flatMap_cons, ih fun q hq => hl q (List.mem_cons_of_mem _ hq),
        h.rangeHits_eq hw (hl p List.mem_cons_self), List.filter_cons]
      split
      · rfl
      · rfl
  unfold Sender.resent
  rw [hloop _ fun p hp => hps p (List.mem_reverse.mp hp), List.filter_reverse]

end Gaps

/-! ### The scan for gaps -/

namespace Receiver

variable {b : Number} {k : Nat}

/-- The ends of a gap between two numbers of the window. -/
theorem gap_ends (hw : Window b k) {ack n : Number} (hack : b.InWindow k ack)
    (hn : b.InWindow k n) (hlt : b.offset ack < b.offset n) :
    b.InWindow k ack.inc ∧ b.InWindow k n.dec ∧ b.offset ack.inc = b.offset ack + 1 ∧
      b.offset n.dec = b.offset n - 1 := by
  have hnk := hn.2
  obtain ⟨hinc, hincoff⟩ := hack.inc_of_lt hw.wf hw.lt_max (by omega)
  obtain ⟨hdec, hdecoff⟩ := hn.dec_of_pos hw.wf hw.lt_max (by omega)
  exact ⟨hinc, hdec, hincoff, hdecoff⟩

/-- The cases of the loop of `periodicNAK`, in offsets. -/
theorem nakLoop_cons (hw : Window b k) {ack : Number} {p : Packet} (hack : b.InWindow k ack)
    (hp : b.InWindow k p.seq) (rest : List Packet) :
    nakLoop ack (p :: rest) =
      if b.offset p.seq ≤ b.offset ack then nakLoop ack rest
      else if b.offset p.seq = b.offset ack + 1 then nakLoop p.seq rest
      else ack.inc :: p.seq.dec :: nakLoop p.seq rest := by
  conv_lhs => unfold nakLoop
  rw [hp.lte_eq hw.wf hw.narrow hack, hp.equals_inc_eq hw.wf hw.lt_max hack]
  simp only [decide_eq_true_eq]

/-- The loop of the periodic NAK writes disjoint ranges in order. -/
theorem gaps_nakLoop (hw : Window b k) (ps : List Packet) :
    ∀ ack : Number, b.InWindow k ack → (∀ p ∈ ps, b.InWindow k p.seq) →
      Gaps b k (b.offset ack) (nakLoop ack ps) := by
  induction ps with
  | nil => exact fun _ _ _ => trivial
  | cons p rest ih =>
    intro ack hack hps
    have hp := hps p List.mem_cons_self
    have hrest : ∀ q ∈ rest, b.InWindow k q.seq := fun q hq => hps q (List.mem_cons_of_mem _ hq)
    rw [nakLoop_cons hw hack hp]
    split
    · exact ih ack hack hrest
    rename_i hafter
    split
    · exact (ih p.seq hp hrest).mono (by omega)
    rename_i hgap
    obtain ⟨hinc, hdec, hincoff, hdecoff⟩ := gap_ends hw hack hp (by omega)
    exact ⟨hinc, hdec, by omega, by omega, (ih p.seq hp hrest).mono (by omega)⟩

/-- The gaps of a sorted buffer are the numbers after the acknowledged one that are not there,
up to the last one. -/
theorem covers_nakLoop_iff (hw : Window b k) {n : Number} (hn : b.InWindow k n)
    (ps : List Packet) :
    ∀ ack : Number, b.InWindow k ack → (∀ p ∈ ps, b.InWindow k p.seq) → Increasing b ps →
      (CIFNAK.covers n (nakLoop ack ps) = true ↔
        b.offset ack < b.offset n ∧ (∃ p ∈ ps, b.offset n < b.offset p.seq) ∧
          ∀ p ∈ ps, b.offset p.seq ≠ b.offset n) := by
  induction ps with
  | nil =>
    intro ack _ _ _
    constructor
    · exact fun h => nomatch h
    · rintro ⟨-, ⟨p, hp, -⟩, -⟩
      cases hp
  | cons p rest ih =>
    intro ack hack hps hsorted
    have hp := hps p List.mem_cons_self
    have hrest : ∀ q ∈ rest, b.InWindow k q.seq := fun q hq => hps q (List.mem_cons_of_mem _ hq)
    obtain ⟨hhead, htail⟩ := List.pairwise_cons.mp hsorted
    rw [nakLoop_cons hw hack hp]
    simp only [List.mem_cons, exists_eq_or_imp, forall_eq_or_imp]
    -- The three branches of the loop: an old packet, the next one, and one after a gap. In each
    -- of them the rest of the buffer is after this packet, so the induction hypothesis is about
    -- the numbers that are left.
    split
    · rw [ih ack hack hrest htail]
      grind
    rename_i hafter
    split
    · rw [ih p.seq hp hrest htail]
      grind
    rename_i hgap
    obtain ⟨hinc, hdec, hincoff, hdecoff⟩ := gap_ends hw hack hp (by omega)
    unfold CIFNAK.covers
    rw [Bool.or_eq_true, Gaps.inRange_iff hw hinc hdec hn, ih p.seq hp hrest htail, hincoff,
      hdecoff]
    grind

/-- What is missing, in offsets. -/
theorem missing_iff (hw : Window b k) {r : Receiver}
    (hack : b.InWindow k r.lastACKSequenceNumber) (hps : ∀ p ∈ r.packetList, b.InWindow k p.seq)
    (hsorted : Increasing b r.packetList) {n : Number} (hn : b.InWindow k n) :
    r.missing n = true ↔
      b.offset r.lastACKSequenceNumber < b.offset n ∧
        (∃ p ∈ r.packetList, b.offset n < b.offset p.seq) ∧
        ∀ p ∈ r.packetList, b.offset p.seq ≠ b.offset n := by
  have hlast : r.packetList.getLast?.any (fun p => n.lt p.seq) = true ↔
      ∃ p ∈ r.packetList, b.offset n < b.offset p.seq := by
    rw [Option.any_eq_true]
    constructor
    · rintro ⟨p, hp, hlt⟩
      have hmem := List.mem_of_getLast? hp
      rw [hn.lt_eq hw.wf hw.narrow (hps p hmem), decide_eq_true_iff] at hlt
      exact ⟨p, hmem, hlt⟩
    -- The last packet of a sorted buffer has the greatest number.
    · rintro ⟨p, hp, hlt⟩
      obtain ⟨q, hq⟩ : ∃ q, r.packetList.getLast? = some q :=
        List.getLast?_isSome.mpr (List.ne_nil_of_mem hp) |> Option.isSome_iff_exists.mp
      refine ⟨q, hq, ?_⟩
      rw [hn.lt_eq hw.wf hw.narrow (hps q (List.mem_of_getLast? hq)), decide_eq_true_iff]
      exact Nat.lt_of_lt_of_le hlt (hsorted.le_getLast hq p hp)
  have hnone : (!r.packetList.any fun p => p.seq = n) = true ↔
      ∀ p ∈ r.packetList, b.offset p.seq ≠ b.offset n := by
    rw [Bool.not_eq_true', List.any_eq_false]
    refine forall₂_congr fun p hp => ?_
    rw [decide_eq_true_iff, (hps p hp).eq_iff hn]
  unfold missing
  rw [Bool.and_eq_true, Bool.and_eq_true, hn.gt_eq hw.wf hw.narrow hack, decide_eq_true_iff, hlast,
    hnone, and_assoc]

end Receiver

/-! ### From end to end -/

namespace Receiving

/-- A loss report from end to end. Take any reachable receiver and any sender, with the numbers in
one window. The report that `periodicNAK` makes covers what is missing. After its way over the wire
the sender hands over, back to front and once each, the packets of its loss list that are missing
and covered by the part that `Marshal` wrote. -/
theorem nak_path (sort : SortSlice) (config : ReceiveConfig)
    (hinit : config.initialSequenceNumber.IsSequenceNumber) (events : List Event) (s : Receiving)
    (hrun : run step (init config) events = some s) (now : UInt64)
    (helapsed : ¬now - s.receiver.lastPeriodicNAK < s.receiver.periodicNAKInterval)
    (sender : Sender) (b : Number) (hb : b.IsSequenceNumber) (k : Nat) (hk : k < 2 ^ 30 - 1)
    (hack : b.InWindow k s.receiver.lastACKSequenceNumber)
    (hbuffer : ∀ p ∈ s.receiver.packetList, b.InWindow k p.seq)
    (hloss : ∀ p ∈ sender.lossList, b.InWindow k p.seq) :
    let report := (s.receiver.periodicNAK now).2
    (∀ n, b.InWindow k n → CIFNAK.covers n report = s.receiver.missing n) ∧
    ∃ data received sender',
      CIFNAK.marshal { lostPacketSequenceNumber := report } = .ok data ∧
      CIFNAK.unmarshal sort data = .ok { lostPacketSequenceNumber := received } ∧
      sender.nak received = some (sender',
        (sender.lossList.filter fun p => s.receiver.missing p.seq &&
          CIFNAK.covers p.seq (CIFNAK.written 0 report)).reverse.map Sender.retransmitted) := by
  have hw := window_of_isSequenceNumber hb hk
  have hsorted := increasing_of_chained hw (run_inv hinit hrun).chained hbuffer
  have hreport : (s.receiver.periodicNAK now).2
      = Receiver.nakLoop s.receiver.lastACKSequenceNumber s.receiver.packetList := by
    unfold Receiver.periodicNAK
    rw [if_neg helapsed]
  have hgaps := Receiver.gaps_nakLoop hw s.receiver.packetList _ hack hbuffer
  have hcovers : ∀ n, b.InWindow k n → CIFNAK.covers n
      (Receiver.nakLoop s.receiver.lastACKSequenceNumber s.receiver.packetList)
        = s.receiver.missing n := by
    intro n hn
    rw [Bool.eq_iff_iff, Receiver.covers_nakLoop_iff hw hn _ _ hack hbuffer hsorted,
      Receiver.missing_iff hw hack hbuffer hsorted hn]
  intro report
  rw [show report = _ from hreport]
  obtain ⟨data, hdata, hreceived⟩ := hgaps.unmarshal_marshal hw hb sort
  have hwritten := hgaps.written 0
  have hnak := Sender.nak_of_even hwritten.even sender
  -- What is covered by the written part is missing.
  have hfilter : (sender.lossList.filter fun p => s.receiver.missing p.seq &&
      CIFNAK.covers p.seq (CIFNAK.written 0
        (Receiver.nakLoop s.receiver.lastACKSequenceNumber s.receiver.packetList)))
        = sender.lossList.filter fun p => CIFNAK.covers p.seq (CIFNAK.written 0
          (Receiver.nakLoop s.receiver.lastACKSequenceNumber s.receiver.packetList)) := by
    refine List.filter_congr fun p hp => ?_
    rw [Bool.and_eq_right_iff_imp]
    intro hcovered
    rw [← hcovers p.seq (hloss p hp)]
    exact Gaps.covers_of_written 0 hcovered
  rw [hwritten.resent_eq hw hloss, ← hfilter] at hnak
  exact ⟨hcovers, data, _, _, hdata, hreceived, hnak⟩

/-- A buffer with two gaps. -/
def gapsRun : List Event :=
  [.push (samplePacket 5 100), .push (samplePacket 8 100), .push (samplePacket 12 100)]

def gapsEnd : Receiving := runD step (init sampleConfig) gapsRun

/-- A sender that still has five packets. -/
def gapsSender : Sender :=
  { newSender
      { initialSequenceNumber := Number.new 5 maxSequenceNumber, dropThreshold := 1000 } with
    lossList := [samplePacket 5 0, samplePacket 6 0, samplePacket 7 0, samplePacket 10 0,
      samplePacket 12 0] }

/-- The three packets in the gaps that the sender still has are sent again. -/
theorem nak_path_gapsEnd :
    (gapsEnd.receiver.periodicNAK 30).2.map (·.val) = [6, 7, 9, 11] ∧
    ∃ data received sender',
      CIFNAK.marshal { lostPacketSequenceNumber := (gapsEnd.receiver.periodicNAK 30).2 }
        = .ok data ∧
      CIFNAK.unmarshal SortSlice.insertion data
        = .ok { lostPacketSequenceNumber := received } ∧
      gapsSender.nak received = some (sender',
        [samplePacket 10 0, samplePacket 7 0, samplePacket 6 0].map Sender.retransmitted) := by
  refine ⟨by decide +kernel, ?_⟩
  obtain ⟨-, data, received, sender', hdata, hreceived, hnak⟩ :=
    nak_path SortSlice.insertion sampleConfig (by decide) gapsRun gapsEnd
      (run_eq_some_runD (by decide +kernel)) 30 (by decide +kernel) gapsSender
      (Number.new 0 maxSequenceNumber) (by decide) 100 (by decide) (by decide +kernel)
      (by decide +kernel) (by decide +kernel)
  refine ⟨data, received, sender', hdata, hreceived, hnak.trans ?_⟩
  have hsent : (gapsSender.lossList.filter fun p => gapsEnd.receiver.missing p.seq &&
      CIFNAK.covers p.seq (CIFNAK.written 0 (gapsEnd.receiver.periodicNAK 30).2)).reverse
        = [samplePacket 10 0, samplePacket 7 0, samplePacket 6 0] := by
    decide +kernel
  rw [hsent]

end Receiving

end Gosrt
