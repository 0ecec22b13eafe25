import Gosrt.Lib.Ranges
import Gosrt.Proofs.Live.NakPath
import Mathlib.Tactic.MkIffOfInductiveProp

/-!
# `Gosrt.Proofs.NakReport`: loss reports on the wire

`Unmarshal` reads the words of a report one after the other. A number that is not marked ends a
range if the one before was marked, and is a range of its own otherwise. At the end only the parity
of what was read is checked, and all the ends are sorted as one list.

For the ranges that a receiver reports this is a round trip, up to the range that fills the packet
(`marshal_cut`). Another peer may report ranges that overlap. Then the sort pairs ends of different
ranges, and what is in an even number of them is lost (`meaning_iff`). And two marks too many cancel
out (`grammar_iff`).
-/

set_option autoImplicit false

namespace Gosrt

open Lib Number

namespace CIFNAK

/-! ### Ranges in order -/

/-- The bytes of ranges. -/
def encoding (pairs : List (Number × Number)) : Bytes := pairs.flatMap fun r => entry r.1 r.2

@[simp] theorem encoding_nil : encoding [] = [] := rfl

@[simp] theorem encoding_cons (r : Number × Number) (pairs : List (Number × Number)) :
    encoding (r :: pairs) = entry r.1 r.2 ++ encoding pairs := rfl

/-- After `bytesWritten` bytes, `m` ranges go into the packet. The last one is the first that fills
it, or there are no more. -/
structure Cut (bytesWritten : Nat) (pairs : List (Number × Number)) (m : Nat) : Prop where
  le : m ≤ pairs.length
  room : ∀ j < m, bytesWritten + (encoding (pairs.take j)).length < maxPacketPayload - 4
  full : m = pairs.length ∨
    maxPacketPayload - 4 ≤ bytesWritten + (encoding (pairs.take m)).length

/-- The loop of `Marshal` ends at the cut. -/
theorem exists_cut (pairs : List (Number × Number)) :
    ∀ bytesWritten < maxPacketPayload - 4, ∃ m, Cut bytesWritten pairs m ∧
      marshalLoop bytesWritten (ends pairs) = encoding (pairs.take m) ∧
      written bytesWritten (ends pairs) = ends (pairs.take m) := by
  induction pairs with
  | nil =>
    intro bytesWritten _
    exact ⟨0, ⟨Nat.le_refl _, fun _ hj => absurd hj (Nat.not_lt_zero _), Or.inl rfl⟩, rfl, rfl⟩
  | cons r pairs ih =>
    intro bytesWritten hroom
    rw [ends_cons]
    unfold marshalLoop written
    dsimp only
    -- The check comes after the range is written, so the one that fills the packet is in it.
    by_cases hfull : bytesWritten + (entry r.1 r.2).length ≥ maxPacketPayload - 4
    · rw [if_pos hfull, if_pos hfull]
      refine ⟨1, ⟨by simp, ?_, Or.inr (by simpa using hfull)⟩, by simp, by simp⟩
      intro j hj
      obtain rfl : j = 0 := by omega
      simpa using hroom
    · rw [if_neg hfull, if_neg hfull]
      obtain ⟨m, hcut, hloop, hwritten⟩ := ih _ (Nat.lt_of_not_le hfull)
      refine ⟨m + 1, ⟨by simpa using hcut.le, ?_, ?_⟩, by simp [hloop], by simp [hwritten]⟩
      · intro j hj
        cases j with
        | zero => simpa using hroom
        | succ j =>
          have hj' := hcut.room j (by omega)
          simpa [Nat.add_assoc] using hj'
      · refine hcut.full.imp (by simp) ?_
        intro h
        simpa [Nat.add_assoc] using h

theorem length_encoding (pairs : List (Number × Number)) : (encoding pairs).length % 4 = 0 := by
  induction pairs with
  | nil => rfl
  | cons r pairs ih =>
    rw [encoding_cons, List.length_append, length_entry]
    split
    · omega
    · omega

/-- There is room for the range at the cut, as all lengths are multiples of four. -/
theorem Cut.length_le {pairs : List (Number × Number)} {m : Nat} (h : Cut 0 pairs m) :
    (encoding (pairs.take m)).length ≤ maxPacketPayload := by
  have hpayload : maxPacketPayload = 1456 := rfl
  cases m with
  | zero => simp
  | succ j =>
    have hroom := h.room j (Nat.lt_succ_self j)
    have hwords := length_encoding (pairs.take j)
    -- A range takes two words at the most, and before the last one there was room for two.
    have hlast : (encoding (pairs.take (j + 1))).length ≤ (encoding (pairs.take j)).length + 8 := by
      rw [List.take_succ_eq_append_getElem h.le]
      unfold encoding
      rw [List.flatMap_append, List.length_append, List.flatMap_singleton, length_entry]
      split
      · omega
      · omega
    omega

/-- The ends of ranges in order are in order. -/
theorem pairwise_ends {b : Number} {k : Nat} (hw : Window b k) {pairs : List (Number × Number)}
    (hwindow : ∀ r ∈ pairs, b.InWindow k r.1 ∧ b.InWindow k r.2)
    (hrange : ∀ r ∈ pairs, r.1.lte r.2 = true)
    (hchain : pairs.IsChain fun r s => r.2.lt s.1 = true) :
    (ends pairs).Pairwise fun m n => b.offset m ≤ b.offset n := by
  rw [← List.pairwise_map (f := b.offset) (R := (· ≤ ·)), ← ends_map]
  refine Lib.pairwise_ends ?_ ?_
  · rintro r hr
    obtain ⟨s, hs, rfl⟩ := List.mem_map.mp hr
    have hle := hrange s hs
    rw [(hwindow s hs).1.lte_eq hw.wf hw.narrow (hwindow s hs).2, decide_eq_true_iff] at hle
    exact hle
  · rw [List.isChain_map]
    refine hchain.imp_of_mem_imp ?_
    intro r s hr hs hlt
    rw [(hwindow r hr).2.lt_eq hw.wf hw.narrow (hwindow s hs).1, decide_eq_true_iff] at hlt
    exact Nat.le_of_lt hlt

/-- In a window narrower than half of the numbers, `Marshal` of ranges that are in order does not
write more than fits, and `Unmarshal` gets the ranges that were written: up to the one that fills
the packet, or all of them. -/
theorem marshal_cut (sort : SortSlice) (b : Number) (hb : b.IsSequenceNumber) (k : Nat)
    (hk : k < 2 ^ 30 - 1) (pairs : List (Number × Number))
    (hwindow : ∀ r ∈ pairs, b.InWindow k r.1 ∧ b.InWindow k r.2)
    (hrange : ∀ r ∈ pairs, r.1.lte r.2 = true)
    (hchain : pairs.IsChain fun r s => r.2.lt s.1 = true) :
    ∃ m data, Cut 0 pairs m ∧
      marshal { lostPacketSequenceNumber := ends pairs } = .ok data ∧
      data.length ≤ maxPacketPayload ∧
      unmarshal sort data = .ok { lostPacketSequenceNumber := ends (pairs.take m) } := by
  have hw := window_of_isSequenceNumber hb hk
  have hnumbers : ∀ n ∈ ends pairs, b.InWindow k n := by
    intro n hn
    obtain ⟨r, hr, rfl | rfl⟩ := mem_ends.mp hn
    · exact (hwindow r hr).1
    · exact (hwindow r hr).2
  obtain ⟨m, hcut, hloop, hwritten⟩ := exists_cut pairs 0 (by decide)
  have hdecoded := unmarshalLoop_marshalLoop (ends pairs) 0 fun n hn =>
    hb.of_inWindow (hnumbers n hn)
  rw [hloop, hwritten] at hdecoded
  refine ⟨m, encoding (pairs.take m), hcut, ?_, hcut.length_le, ?_⟩
  · unfold marshal
    rw [hloop, if_neg (by simp)]
  · -- `Unmarshal` sorts what it reads. It is sorted already, so it stays as it is.
    have hsorted := pairwise_ends hw (fun r hr => hwindow r (List.mem_of_mem_take hr))
      (fun r hr => hrange r (List.mem_of_mem_take hr)) (hchain.take m)
    have htaken : ∀ n ∈ ends (pairs.take m), b.InWindow k n := by
      intro n hn
      obtain ⟨r, hr, hend⟩ := mem_ends.mp hn
      exact hnumbers n (mem_ends.mpr ⟨r, List.mem_of_mem_take hr, hend⟩)
    rw [unmarshal_eq_ok sort (length_encoding _) hdecoded (by simp),
      hw.sort_of_sorted htaken hsorted]

/-- Three ranges around the highest number. -/
def wrapPairs : List (Number × Number) :=
  [(Number.new 0x7FFFFFFD maxSequenceNumber, Number.new 0x7FFFFFFD maxSequenceNumber),
    (Number.new 0x7FFFFFFF maxSequenceNumber, Number.new 2 maxSequenceNumber),
    (Number.new 7 maxSequenceNumber, Number.new 9 maxSequenceNumber)]

/-- A report over the wrap fits, and it is read back in order. -/
theorem marshal_cut_wrapPairs :
    ∃ data, marshal { lostPacketSequenceNumber := ends wrapPairs } = .ok data ∧
      unmarshal SortSlice.insertion data
        = .ok { lostPacketSequenceNumber := ends wrapPairs } := by
  obtain ⟨m, data, hcut, hdata, -, hpairs⟩ :=
    marshal_cut SortSlice.insertion (Number.new 0x7FFFFFF0 maxSequenceNumber) (by decide) 100
      (by decide) wrapPairs (by decide +kernel) (by decide +kernel) (by decide +kernel)
  -- All of them together are far from filling a packet.
  have hall : m = 3 := by
    have hfew : ∀ j ≤ wrapPairs.length, (j = wrapPairs.length ∨
        maxPacketPayload - 4 ≤ 0 + (encoding (wrapPairs.take j)).length) → j = 3 := by
      decide +kernel
    exact hfew m hcut.le hcut.full
  subst hall
  exact ⟨data, hdata, hpairs⟩

/-! ### Overlapping ranges -/

/-- An entry of a report as the protocol has it. -/
inductive Entry where
  | single (n : Number)
  | range (lo hi : Number)
  deriving DecidableEq, Repr

namespace Entry

/-- The first number of a range is marked, and a range of one number is still two words. -/
def bytes : Entry → Bytes
  | single n => be32 n.val
  | range lo hi => be32 (lo.val ||| 0x80000000) ++ be32 hi.val

/-- The first and the last number. -/
def pair : Entry → Number × Number
  | single n => (n, n)
  | range lo hi => (lo, hi)

/-- The number is reported lost. In a range are the numbers on the way from the first one to the
last one. -/
def contains : Entry → Number → Bool
  | single n, m => decide (m = n)
  | range lo hi, m => decide (lo.offset m ≤ lo.offset hi)

/-- Both ends are in the window, the first one not after the last one. -/
@[mk_iff]
structure InWindow (b : Number) (k : Nat) (e : Entry) : Prop where
  first : b.InWindow k e.pair.1
  last : b.InWindow k e.pair.2
  ordered : e.pair.1.lte e.pair.2 = true

instance (b : Number) (k : Nat) (e : Entry) : Decidable (e.InWindow b k) :=
  decidable_of_iff' _ (inWindow_iff b k e)

end Entry

/-- The number is in one of the entries. -/
def reported (entries : List Entry) (m : Number) : Bool := entries.any (·.contains m)

/-- The number is on the way from the first to the last number of a pair. -/
def covered (ns : List Number) (m : Number) : Bool :=
  (pairUp ns).any fun r => decide (r.1.offset m ≤ r.1.offset r.2)

/-- Each sender resends what it still has of the numbers that are reported. -/
def Resent (ns : List Number) (entries : List Entry) : Prop :=
  ∀ s : Sender, ∃ s' sent, s.nak ns = some (s', sent) ∧
    ∀ p ∈ s.lossList, p.seq.IsSequenceNumber → reported entries p.seq = true →
      Sender.retransmitted p ∈ sent

section
variable {b : Number} {k : Nat} {lo hi m : Number}

/-- The way from the first to the last number of a range in the window does not leave it. -/
theorem offset_le_iff (hb : b.IsSequenceNumber) (hk : k < 2 ^ 30 - 1) (hlo : b.InWindow k lo)
    (hhi : b.InWindow k hi) (hle : b.offset lo ≤ b.offset hi) (hm : m.IsSequenceNumber) :
    lo.offset m ≤ lo.offset hi ↔ InRange (b.offset m) (b.offset lo, b.offset hi) := by
  have hmax := hb.max_toNat
  have hhik := hhi.2
  -- `m` can be any number, also one outside the window.
  have hmlt : b.offset m ≤ b.max.toNat := by
    unfold offset
    exact Nat.le_of_lt_succ (Nat.mod_lt _ (Nat.succ_pos _))
  have hlast : lo.offset hi = b.offset hi - b.offset lo := by
    conv_lhs => rw [hlo.1, hhi.1]
    exact offset_plus_plus hb.wf hle (by omega)
  have hm' : lo.offset m = (b.plus (b.offset lo)).offset (b.plus (b.offset m)) := by
    rw [← hlo.1, hb.plus_offset hm]
  unfold InRange
  rw [hlast, hm']
  by_cases hbefore : b.offset m < b.offset lo
  · -- From the first number it is nearly once around.
    rw [offset_plus_plus_of_lt hb.wf hbefore (by omega)]
    dsimp only
    omega
  · rw [offset_plus_plus hb.wf (Nat.le_of_not_lt hbefore) hmlt]
    dsimp only
    omega

end

section
variable {b : Number} {k : Nat} {m : Number} {entries : List Entry} {ns : List Number}

theorem Entry.InWindow.le {e : Entry} (hw : Window b k) (he : e.InWindow b k) :
    b.offset e.pair.1 ≤ b.offset e.pair.2 := by
  have hle := he.ordered
  rwa [he.first.lte_eq hw.wf hw.narrow he.last, decide_eq_true_iff] at hle

/-- A report in a window. -/
structure Report (b : Number) (k : Nat) (entries : List Entry) : Prop where
  base : b.IsSequenceNumber
  narrow : k < 2 ^ 30 - 1
  inWindow : ∀ e ∈ entries, e.InWindow b k

namespace Report

theorem window (h : Report b k entries) : Window b k := window_of_isSequenceNumber h.base h.narrow

/-- An entry contains the numbers whose offsets are in its range. -/
theorem contains_iff (h : Report b k entries) {e : Entry} (he : e ∈ entries)
    (hm : m.IsSequenceNumber) :
    e.contains m = true ↔ InRange (b.offset m) (Prod.map b.offset b.offset e.pair) := by
  have hwindow := h.inWindow e he
  cases e with
  | single n =>
    have hn : n.IsSequenceNumber := h.base.of_inWindow hwindow.first
    show decide (m = n) = true ↔ b.offset n ≤ b.offset m ∧ b.offset m ≤ b.offset n
    rw [decide_eq_true_iff, ← h.base.offset_inj hm hn]
    omega
  | range lo hi =>
    show decide (lo.offset m ≤ lo.offset hi) = true ↔ _
    rw [decide_eq_true_iff]
    exact offset_le_iff h.base h.narrow hwindow.first hwindow.last (hwindow.le h.window) hm

/-- All ends are in the window. -/
theorem inWindow_ends (h : Report b k entries) :
    ∀ n ∈ ends (entries.map Entry.pair), b.InWindow k n := by
  intro n hn
  obtain ⟨r, hr, hend⟩ := mem_ends.mp hn
  obtain ⟨e, he, rfl⟩ := List.mem_map.mp hr
  rcases hend with rfl | rfl
  · exact (h.inWindow e he).first
  · exact (h.inWindow e he).last

/-- All that is reported is in the window. -/
theorem inWindow_of_reported (h : Report b k entries) (hm : m.IsSequenceNumber)
    (hreported : reported entries m = true) : b.InWindow k m := by
  rw [reported, List.any_eq_true] at hreported
  obtain ⟨e, he, hin⟩ := hreported
  have hrange := (h.contains_iff he hm).mp hin
  exact ⟨(h.base.plus_offset hm).symm, Nat.le_trans hrange.2 (h.inWindow e he).last.2⟩

end Report

/-- A sorted list of the ends of the entries. -/
structure Sorted (b : Number) (k : Nat) (entries : List Entry) (ns : List Number) : Prop
    extends Report b k entries where
  perm : ns.Perm (ends (entries.map Entry.pair))
  sorted : ns.Pairwise fun m n => b.offset m ≤ b.offset n

namespace Sorted

theorem even (h : Sorted b k entries ns) : ns.length % 2 = 0 := by
  rw [h.perm.length_eq, length_ends]
  omega

/-- The pairs of the list are ranges in the window. -/
theorem pair (h : Sorted b k entries ns) {r : Number × Number} (hr : r ∈ pairUp ns) :
    b.InWindow k r.1 ∧ b.InWindow k r.2 ∧ b.offset r.1 ≤ b.offset r.2 := by
  have hflat := ends_pairUp ns h.even
  have hmem : ∀ n ∈ ends (pairUp ns), b.InWindow k n := by
    rw [hflat]
    exact fun n hn => h.inWindow_ends n (h.perm.mem_iff.mp hn)
  have hsorted := h.sorted
  rw [← hflat, ← List.pairwise_map (f := b.offset) (R := (· ≤ ·)), ← ends_map] at hsorted
  exact ⟨hmem _ (mem_ends.mpr ⟨r, hr, Or.inl rfl⟩), hmem _ (mem_ends.mpr ⟨r, hr, Or.inr rfl⟩),
    le_of_pairwise_ends hsorted _ (List.mem_map_of_mem hr)⟩

/-- What the list covers, in offsets. -/
theorem covered_iff_inRange (h : Sorted b k entries ns) (hm : m.IsSequenceNumber) :
    covered ns m = true ↔
      ∃ r ∈ pairUp ns, InRange (b.offset m) (Prod.map b.offset b.offset r) := by
  rw [covered, List.any_eq_true]
  refine exists_congr fun r => and_congr_right fun hr => ?_
  obtain ⟨hlo, hhi, hle⟩ := h.pair hr
  rw [decide_eq_true_iff]
  exact offset_le_iff h.base h.narrow hlo hhi hle hm

/-- What the list covers: the ends of the entries, and what is in an odd number of them. -/
theorem covered_iff (h : Sorted b k entries ns) (hm : m.IsSequenceNumber) :
    covered ns m = true ↔ m ∈ ends (entries.map Entry.pair) ∨
      entries.countP (·.contains m) % 2 = 1 := by
  have hrange : ∀ r ∈ (entries.map Entry.pair).map (Prod.map b.offset b.offset), r.1 ≤ r.2 := by
    intro r hr
    rw [List.map_map] at hr
    obtain ⟨e, he, rfl⟩ := List.mem_map.mp hr
    exact (h.inWindow e he).le h.window
  have hperm : (ns.map b.offset).Perm
      (ends ((entries.map Entry.pair).map (Prod.map b.offset b.offset))) := by
    rw [ends_map]
    exact h.perm.map _
  -- In offsets the order has no wrap, and the ranges are those of the library.
  have hsweep := covered_pairUp_iff (x := b.offset m) hrange hperm (List.pairwise_map.mpr h.sorted)
  simp only [pairUp_map, ends_map, List.mem_map, exists_exists_and_eq_and] at hsweep
  rw [h.covered_iff_inRange hm, hsweep]
  refine or_congr ?_ ?_
  · -- The offset of an end is the offset of no other number.
    constructor
    · rintro ⟨n, hn, he⟩
      have hseq := h.base.of_inWindow (h.inWindow_ends n hn)
      rwa [← (h.base.offset_inj hseq hm).mp he]
    · exact fun hend => ⟨m, hend, rfl⟩
  · rw [List.countP_map, List.countP_map]
    rw [List.countP_congr fun e he => ?_]
    simpa using (h.contains_iff he hm).symm

/-- What is covered is reported. -/
theorem reported_of_covered (h : Sorted b k entries ns) (hm : m.IsSequenceNumber)
    (hcovered : covered ns m = true) : reported entries m = true := by
  rw [reported, List.any_eq_true]
  rcases (h.covered_iff hm).mp hcovered with hend | hodd
  · obtain ⟨r, hr, hend⟩ := mem_ends.mp hend
    obtain ⟨e, he, rfl⟩ := List.mem_map.mp hr
    have hle := (h.inWindow e he).le h.window
    refine ⟨e, he, (h.contains_iff he hm).mpr ?_⟩
    rcases hend with rfl | rfl
    · exact ⟨Nat.le_refl _, hle⟩
    · exact ⟨hle, Nat.le_refl _⟩
  · exact List.countP_pos_iff.mp (by omega)

/-- All that is reported is covered, exactly if it is an end or in an odd number of entries. -/
theorem complete_iff (h : Sorted b k entries ns) :
    (∀ m, m.IsSequenceNumber → reported entries m = true → covered ns m = true) ↔
      ∀ m, m.IsSequenceNumber → reported entries m = true →
        m ∉ ends (entries.map Entry.pair) → entries.countP (·.contains m) % 2 = 1 := by
  refine forall₃_congr fun m hm _ => ?_
  rw [h.covered_iff hm, or_iff_not_imp_left]

/-- The list covers what is reported and no more, exactly if nothing is missing. -/
theorem covered_eq_iff (h : Sorted b k entries ns) :
    (∀ m, m.IsSequenceNumber → covered ns m = reported entries m) ↔
      ∀ m, m.IsSequenceNumber → reported entries m = true → covered ns m = true := by
  refine forall₂_congr fun m hm => ?_
  rw [Bool.eq_iff_iff]
  exact ⟨fun heq => heq.mpr, fun hall => ⟨h.reported_of_covered hm, hall⟩⟩

end Sorted

/-- `NAK` finds a packet in one of the ranges. -/
theorem rangeHits_ne_zero_iff (m : Number) (ns : List Number) :
    Sender.rangeHits m ns ≠ 0 ↔ ∃ r ∈ pairUp ns, (m.gte r.1 && m.lte r.2) = true := by
  induction ns using rangeInduct with
  | nil => simp [Sender.rangeHits, pairUp]
  | single n => simp [Sender.rangeHits, pairUp]
  | range lo hi rest ih =>
    simp only [pairUp_cons, List.mem_cons, exists_eq_or_imp, ← ih]
    show Sender.rangeHits m rest + (if m.gte lo && m.lte hi then 1 else 0) ≠ 0 ↔ _
    by_cases hin : (m.gte lo && m.lte hi) = true
    · rw [if_pos hin]
      exact iff_of_true (Nat.succ_ne_zero _) (Or.inl hin)
    · rw [if_neg hin, Nat.add_zero, or_iff_right hin]

namespace Sorted

/-- `NAK` finds a packet of the window exactly if its number is covered. -/
theorem rangeHits_iff (h : Sorted b k entries ns) (hm : b.InWindow k m) :
    Sender.rangeHits m ns ≠ 0 ↔ covered ns m = true := by
  rw [rangeHits_ne_zero_iff, h.covered_iff_inRange (h.base.of_inWindow hm)]
  refine exists_congr fun r => and_congr_right fun hr => ?_
  obtain ⟨hlo, hhi, -⟩ := h.pair hr
  exact Gaps.inRange_iff h.window hlo hhi hm

/-- All senders resend what was reported exactly if all of it is covered. -/
theorem resent_iff (h : Sorted b k entries ns) :
    Resent ns entries ↔
      ∀ m, m.IsSequenceNumber → reported entries m = true → covered ns m = true := by
  constructor
  · intro hresent m hm hreported
    -- A sender that has one packet, with this number.
    let p : Packet := { newPacket none with
      header := { (newPacket none).header with packetSequenceNumber := m } }
    obtain ⟨s', sent, hnak, hsent⟩ := hresent { (default : Sender) with lossList := [p] }
    rw [Sender.nak_of_even h.even, Option.some_inj, Prod.mk.injEq] at hnak
    have hmem := hsent p List.mem_cons_self hm hreported
    rw [← hnak.2] at hmem
    obtain ⟨q, hq, hcopy⟩ := List.mem_flatMap.mp hmem
    obtain rfl : q = p := by simpa using hq
    exact (h.rangeHits_iff (h.inWindow_of_reported hm hreported)).mp (List.mem_replicate.mp hcopy).1
  · intro hall s
    refine ⟨_, _, Sender.nak_of_even h.even s, ?_⟩
    intro p hp hseq hreported
    have hhits := (h.rangeHits_iff (h.inWindow_of_reported hseq hreported)).mpr
      (hall p.seq hseq hreported)
    exact List.mem_flatMap.mpr ⟨p, List.mem_reverse.mpr hp, List.mem_replicate.mpr ⟨hhits, rfl⟩⟩

end Sorted

/-- What `Unmarshal` reads, before it sorts. -/
theorem unmarshalLoop_entries (hentries : ∀ e ∈ entries, e.pair.1.IsSequenceNumber ∧
    e.pair.2.IsSequenceNumber) :
    unmarshalLoop false (entries.flatMap Entry.bytes) = ends (entries.map Entry.pair) := by
  induction entries with
  | nil => rfl
  | cons e entries ih =>
    obtain ⟨hfirst, hlast⟩ := hentries e List.mem_cons_self
    have hrest := ih fun f hf => hentries f (List.mem_cons_of_mem _ hf)
    rw [List.flatMap_cons, List.map_cons, ends_cons, ← hrest]
    cases e with
    | single n => exact unmarshalLoop_single hfirst _
    | range lo hi => exact unmarshalLoop_range hfirst hlast _

theorem length_entries (entries : List Entry) :
    (entries.flatMap Entry.bytes).length % 4 = 0 := by
  induction entries with
  | nil => rfl
  | cons e entries ih =>
    cases e with
    | single n => simpa [Entry.bytes, Nat.add_mod] using ih
    | range lo hi => simpa [Entry.bytes, Nat.add_mod] using ih

/-- A report in a window is accepted, and its ends are sorted. -/
theorem Report.unmarshal (sort : SortSlice) (h : Report b k entries) :
    ∃ ns, CIFNAK.unmarshal sort (entries.flatMap Entry.bytes)
        = .ok { lostPacketSequenceNumber := ns } ∧ Sorted b k entries ns := by
  have hns := h.inWindow_ends
  have hperm := sort.perm Number.lt (ends (entries.map Entry.pair))
  have hloop := unmarshalLoop_entries fun e he => ⟨h.base.of_inWindow (h.inWindow e he).first,
    h.base.of_inWindow (h.inWindow e he).last⟩
  refine ⟨_, unmarshal_eq_ok sort (length_entries entries) hloop (by simp), h, hperm, ?_⟩
  exact (h.window.pairwise_iff fun n hn => hns n (hperm.mem_iff.mp hn)).mp
    (sort.sorted Number.lt _ (h.window.strictWeakOn hns))

end

/-- Take any report whose entries are in a window, in any order. It is accepted. The numbers that
the result covers are the reported ones, exactly if each reported number that is no end of an entry
is in an odd number of entries. Otherwise there is a packet that was reported and is not resent. -/
theorem meaning_iff (sort : SortSlice) (b : Number) (hb : b.IsSequenceNumber) (k : Nat)
    (hk : k < 2 ^ 30 - 1) (entries : List Entry) (hentries : ∀ e ∈ entries, e.InWindow b k) :
    ∃ ns, unmarshal sort (entries.flatMap Entry.bytes) = .ok { lostPacketSequenceNumber := ns } ∧
      ((∀ m, m.IsSequenceNumber → covered ns m = reported entries m) ↔
        ∀ m, m.IsSequenceNumber → reported entries m = true →
          m ∉ ends (entries.map Entry.pair) → entries.countP (·.contains m) % 2 = 1) ∧
      (Resent ns entries ↔
        ∀ m, m.IsSequenceNumber → reported entries m = true →
          m ∉ ends (entries.map Entry.pair) → entries.countP (·.contains m) % 2 = 1) := by
  obtain ⟨ns, hns, h⟩ := Report.unmarshal sort ⟨hb, hk, hentries⟩
  exact ⟨ns, hns, h.covered_eq_iff.trans h.complete_iff, h.resent_iff.trans h.complete_iff⟩

/-- A long range, and a short one in it. -/
def nested : List Entry :=
  [.range (Number.new 1 maxSequenceNumber) (Number.new 10 maxSequenceNumber),
    .range (Number.new 3 maxSequenceNumber) (Number.new 5 maxSequenceNumber)]

/-- A sender that has the packet number 4. -/
def nestedSender : Sender :=
  { newSender
      { initialSequenceNumber := Number.new 11 maxSequenceNumber, dropThreshold := 1000 } with
    lossList := [Receiving.samplePacket 4 0] }

/-- 4 is reported. The two ranges are decoded as the ones from 1 to 3 and from 5 to 10, whatever the
sort does, so 4 is not covered and not resent. -/
theorem nested_loses :
    reported nested (Number.new 4 maxSequenceNumber) = true ∧
    ∀ sort : SortSlice, ∃ ns,
      unmarshal sort (nested.flatMap Entry.bytes) = .ok { lostPacketSequenceNumber := ns } ∧
      ns.map (·.val) = [1, 3, 5, 10] ∧
      covered ns (Number.new 4 maxSequenceNumber) = false ∧
      nestedSender.nak ns = some (nestedSender, []) := by
  refine ⟨by decide +kernel, fun sort => ?_⟩
  -- All ends are different, so there is one way to sort them.
  have hsort : sort.sort Number.lt (unmarshalLoop false (nested.flatMap Entry.bytes))
      = [1, 3, 5, 10].map fun x => Number.new x maxSequenceNumber :=
    sort.sort_eq_of_perm ⟨by decide +kernel, by decide +kernel, by decide +kernel⟩
      (by decide +kernel) (by decide +kernel) (by decide +kernel)
  refine ⟨_, unmarshal_eq_ok sort (by decide +kernel) rfl (by decide +kernel), ?_⟩
  rw [hsort]
  decide +kernel

/-- Two ranges that overlap in no more than their ends, and a single number, not in order. -/
def overlapping : List Entry :=
  [.single (Number.new 20 maxSequenceNumber),
    .range (Number.new 3 maxSequenceNumber) (Number.new 5 maxSequenceNumber),
    .range (Number.new 1 maxSequenceNumber) (Number.new 4 maxSequenceNumber)]

/-- The sorted ends cover what the entries report, although two ranges overlap. -/
theorem meaning_iff_overlapping :
    ∃ ns, unmarshal SortSlice.insertion (overlapping.flatMap Entry.bytes)
        = .ok { lostPacketSequenceNumber := ns } ∧
      (∀ m, m.IsSequenceNumber → covered ns m = reported overlapping m) ∧
      Resent ns overlapping := by
  have hentries : ∀ e ∈ overlapping, e.InWindow (Number.new 0 maxSequenceNumber) 20 := by
    decide +kernel
  have hodd : ∀ m : Number, m.IsSequenceNumber → reported overlapping m = true →
      m ∉ ends (overlapping.map Entry.pair) →
      overlapping.countP (·.contains m) % 2 = 1 := by
    intro m hm hreported
    -- There are few numbers in the window.
    have hfew : ∀ i ≤ 20,
        let n := (Number.new 0 maxSequenceNumber).plus i
        reported overlapping n = true → n ∉ ends (overlapping.map Entry.pair) →
        overlapping.countP (·.contains n) % 2 = 1 := by
      decide +kernel
    have hwindow := Report.inWindow_of_reported ⟨by decide, by decide, hentries⟩ hm hreported
    rw [hwindow.1] at hreported ⊢
    exact hfew _ hwindow.2 hreported
  obtain ⟨ns, hns, hcovered, hresent⟩ := meaning_iff SortSlice.insertion
    (Number.new 0 maxSequenceNumber) (by decide) 20 (by decide) overlapping hentries
  exact ⟨ns, hns, hcovered.mpr hodd, hresent.mpr hodd⟩

/-! ### The grammar of a report -/

/-- A report is a sequence of single words and of marked words that are followed by one that is
not. -/
inductive Grammar : Bytes → Prop where
  | nil : Grammar []
  | single {a b c d : UInt8} {rest : Bytes} (unmarked : a &&& 0b10000000 = 0)
    (tail : Grammar rest) : Grammar (a :: b :: c :: d :: rest)
  | range {a b c d a' b' c' d' : UInt8} {rest : Bytes} (marked : a &&& 0b10000000 ≠ 0)
    (unmarked : a' &&& 0b10000000 = 0) (tail : Grammar rest) :
    Grammar (a :: b :: c :: d :: a' :: b' :: c' :: d' :: rest)

/-- There is a word, and it is not marked. -/
def startsUnmarked : Bytes → Bool
  | a :: _ => a &&& 0b10000000 = 0
  | [] => false

/-- How many marked words are not followed by one that is not marked. -/
def dangling : Bytes → Nat
  | a :: _ :: _ :: _ :: rest =>
    dangling rest + if a &&& 0b10000000 ≠ 0 ∧ startsUnmarked rest = false then 1 else 0
  | _ => 0

/-- Induction over the words of a byte string. -/
theorem wordInduct {motive : Bytes → Prop} (short : ∀ data, data.length < 4 → motive data)
    (word : ∀ a b c d rest, motive rest → motive (a :: b :: c :: d :: rest)) : ∀ data, motive data
  | [] => short [] (by simp)
  | [a] => short [a] (by simp)
  | [a, b] => short [a, b] (by simp)
  | [a, b, c] => short [a, b, c] (by simp)
  | a :: b :: c :: d :: rest => word a b c d rest (wordInduct short word rest)

/-- The parity of what is read. A marked word gives one number, and the next one makes it two, if it
is not marked. -/
theorem length_unmarshalLoop (data : Bytes) (hdata : data.length % 4 = 0) :
    ∀ isRange, (unmarshalLoop isRange data).length % 2
      = (dangling data + if isRange && startsUnmarked data then 1 else 0) % 2 := by
  induction data using wordInduct with
  | short data hshort =>
    obtain rfl : data = [] := List.eq_nil_of_length_eq_zero (by omega)
    intro isRange
    rw [startsUnmarked, Bool.and_false]
    rfl
  | word a b c d rest ih =>
    intro isRange
    have ih := ih (by simp only [List.length_cons] at hdata; omega)
    rw [show startsUnmarked (a :: b :: c :: d :: rest) = decide (a &&& 0b10000000 = 0) from rfl]
    unfold unmarshalLoop dangling
    by_cases hmark : a &&& 0b10000000 = 0
    · -- Two numbers for a single word, one for the end of a range.
      have hrest := ih false
      cases isRange with
      | false =>
        simp [hmark] at hrest ⊢
        omega
      | true =>
        simp [hmark] at hrest ⊢
        omega
    · -- One number, whether or not a range is open. The loop does not check this.
      have hrest := ih true
      cases hnext : startsUnmarked rest with
      | false =>
        simp [hmark, hnext] at hrest ⊢
        omega
      | true =>
        simp [hmark, hnext] at hrest ⊢
        omega

/-- A report in the grammar is whole words and leaves no range open. -/
theorem Grammar.words {data : Bytes} (h : Grammar data) :
    data.length % 4 = 0 ∧ dangling data = 0 := by
  induction h with
  | nil => exact ⟨rfl, rfl⟩
  | single unmarked _ ih =>
    refine ⟨?_, ?_⟩
    · simp only [List.length_cons]
      omega
    · simp [dangling, unmarked, ih.2]
  | range marked unmarked _ ih =>
    refine ⟨?_, ?_⟩
    · simp only [List.length_cons]
      omega
    · simp [dangling, startsUnmarked, unmarked, ih.2]

/-- Whole words are in the grammar, if no marked word is left over. -/
theorem grammar_iff_dangling (data : Bytes) :
    Grammar data ↔ data.length % 4 = 0 ∧ dangling data = 0 := by
  refine ⟨Grammar.words, ?_⟩
  rintro ⟨hdata, hdangling⟩
  -- The word after a mark is not an entry, but what comes after it is again in the grammar.
  have hboth : Grammar data ∧ (startsUnmarked data = true →
      ∃ a b c d rest, data = a :: b :: c :: d :: rest ∧ a &&& 0b10000000 = 0 ∧
        Grammar rest) := by
    induction data using wordInduct with
    | short data hshort =>
      obtain rfl : data = [] := List.eq_nil_of_length_eq_zero (by omega)
      exact ⟨.nil, fun h => nomatch h⟩
    | word a b c d rest ih =>
      obtain ⟨hrest, hmarked⟩ : dangling rest = 0 ∧
          (a &&& 0b10000000 ≠ 0 → startsUnmarked rest = true) := by
        simpa [dangling] using hdangling
      have ih := ih (by simp only [List.length_cons] at hdata; omega) hrest
      by_cases hmark : a &&& 0b10000000 = 0
      · exact ⟨.single hmark ih.1, fun _ => ⟨a, b, c, d, rest, rfl, hmark, ih.1⟩⟩
      · obtain ⟨a', b', c', d', rest', rfl, hunmarked, htail⟩ := ih.2 (hmarked hmark)
        exact ⟨.range hmark hunmarked htail, fun h => absurd (of_decide_eq_true h) hmark⟩
  exact hboth.1

/-- `Unmarshal` accepts exactly the sequences of whole words in which an even number of marked words
is left over. -/
theorem unmarshal_ok_iff (sort : SortSlice) (data : Bytes) :
    (∃ c, unmarshal sort data = .ok c) ↔ data.length % 4 = 0 ∧ dangling data % 2 = 0 := by
  unfold unmarshal
  by_cases hdata : data.length % 4 = 0
  · have hparity := length_unmarshalLoop data hdata false
    rw [Bool.false_and, if_neg Bool.false_ne_true, Nat.add_zero] at hparity
    rw [if_neg (not_not.mpr hdata)]
    dsimp only
    -- The source checks how many numbers there are, not which words they are from.
    rw [hparity]
    by_cases heven : dangling data % 2 = 0
    · rw [if_neg (not_not.mpr heven)]
      exact iff_of_true ⟨_, rfl⟩ ⟨hdata, heven⟩
    · rw [if_pos heven]
      exact iff_of_false (fun ⟨c, hc⟩ => nomatch hc) fun h => heven h.2
  · rw [if_pos hdata]
    exact iff_of_false (fun ⟨c, hc⟩ => nomatch hc) fun h => hdata h.1

/-- What is accepted has an even length. -/
theorem unmarshal_even (sort : SortSlice) {data : Bytes} {c : CIFNAK}
    (h : unmarshal sort data = .ok c) : c.lostPacketSequenceNumber.length % 2 = 0 := by
  unfold unmarshal at h
  split at h
  · cases h
  · dsimp only at h
    split at h
    · cases h
    · next heven =>
      cases h
      rw [(sort.perm _ _).length_eq]
      exact not_not.mp heven

/-- `Unmarshal` accepts exactly the reports of the grammar, with a result of even length, except for
the byte strings in which marked words are left over and their number is even. -/
theorem grammar_iff (sort : SortSlice) (data : Bytes) :
    (((∃ c, unmarshal sort data = .ok c) ↔ Grammar data) ∧
      ∀ c, unmarshal sort data = .ok c → c.lostPacketSequenceNumber.length % 2 = 0) ↔
    (data.length % 4 = 0 → dangling data = 0 ∨ dangling data % 2 = 1) := by
  rw [unmarshal_ok_iff, grammar_iff_dangling, and_iff_left fun _ h => unmarshal_even sort h]
  by_cases hlength : data.length % 4 = 0
  · simp only [hlength, true_and, true_implies]
    omega
  · simp only [hlength, false_and, false_implies]

/-- Two words, both of them marked. -/
def twoMarks : Bytes := [0x80, 0, 0, 1, 0x80, 0, 0, 5]

/-- Both words are starts of ranges without an end, and they are accepted as one range. -/
theorem twoMarks_accepted : ¬Grammar twoMarks ∧ ∀ sort : SortSlice, ∃ c,
    unmarshal sort twoMarks = .ok c ∧ c.lostPacketSequenceNumber.map (·.val) = [1, 5] := by
  refine ⟨fun h => ?_, fun sort => ?_⟩
  · exact absurd h.words.2 (by decide)
  · have hsort : sort.sort Number.lt (unmarshalLoop false twoMarks)
        = [1, 5].map fun x => Number.new x maxSequenceNumber :=
      sort.sort_of_sorted ⟨by decide +kernel, by decide +kernel, by decide +kernel⟩
        (by decide +kernel) (by decide +kernel)
    refine ⟨_, unmarshal_eq_ok sort (by decide) rfl (by decide +kernel), ?_⟩
    rw [hsort]
    decide +kernel

end CIFNAK

end Gosrt
