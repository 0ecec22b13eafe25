import Mathlib.Data.List.Chain
import Gosrt.Proofs.Live.Receive
import Gosrt.Spec.Live.Runs

/-!
# `Gosrt.Proofs.Live.Receiving`: the receive buffer under arbitrary packets

The peer may send any sequence numbers, so nothing keeps the numbers in a window, and circular
`Lt` is not transitive. What is left of the order is that of two different sequence numbers
exactly one is before the other (`IsSequenceNumber.lt_iff`). This is enough for the neighbours
in the buffer: an arriving packet goes behind a packet that is before it, and in front of the
first one that is after it.

The invariant `Chained` has the neighbours in order, from the number delivered last on, and ends
at the greatest number seen. So the loop of `Push` that looks for a place always finds one
(`Placed`).
-/

set_option autoImplicit false

namespace Gosrt

open Lib

open Number

namespace Receiver

/-- The number delivered last, and the numbers in the buffer. -/
def numbers (r : Receiver) : List Number :=
  r.lastDeliveredSequenceNumber :: r.packetList.map Packet.seq

/-- Each number is before its neighbour, and the last one is the greatest number seen. -/
structure Chained (r : Receiver) : Prop where
  isNumber : ∀ n ∈ r.numbers, n.IsSequenceNumber
  chain : r.numbers.IsChain Before
  top : r.numbers.getLast? = some r.maxSeenSequenceNumber

theorem chained_newReceiver {config : ReceiveConfig}
    (h : config.initialSequenceNumber.IsSequenceNumber) : (newReceiver config).Chained where
  isNumber := List.forall_mem_singleton.mpr h.dec
  chain := List.isChain_singleton _
  top := rfl

section
variable {r : Receiver} {pkt : Packet}

theorem Chained.maxSeen (h : r.Chained) : r.maxSeenSequenceNumber.IsSequenceNumber :=
  h.isNumber _ (List.mem_of_getLast? h.top)

/-! ### `Push` -/

/-- The insertion loop adds the packet to the list. -/
theorem perm_of_place {packets : List Packet} :
    ∀ {ps : List Packet}, place pkt ps = .inserted packets → packets.Perm (pkt :: ps) := by
  intro ps
  induction ps generalizing packets with
  | nil =>
    intro h
    cases h
  | cons p rest ih =>
    intro h
    simp only [place] at h
    split at h
    · cases h
    split at h
    · cases h
      exact List.Perm.refl _
    cases hplace : place pkt rest with
    | duplicate =>
      rw [hplace] at h
      cases h
    | skipped =>
      rw [hplace] at h
      cases h
    | inserted tail =>
      rw [hplace] at h
      cases h
      exact ((ih hplace).cons p).trans (List.Perm.swap pkt p rest)

/-- The outcomes of `Push`, for any packet and in any state. -/
inductive Pushed (r : Receiver) (pkt : Packet) : Receiver → Prop where
  | belated : Pushed r pkt (((r.countPush pkt).countBelated pkt).countDrop pkt)
  | dropped : Pushed r pkt ((r.countPush pkt).countDrop pkt)
  | inserted (packets : List Packet) (hperm : packets.Perm (pkt :: r.packetList)) :
      Pushed r pkt
        { ((r.countPush pkt).countBuffered pkt).countLate pkt with packetList := packets }
  | appended (pktLoss : UInt64) :
      Pushed r pkt
        ({ r.countPush pkt with
          statistics := { (r.countPush pkt).statistics with pktLoss := pktLoss } }.pushBack pkt)
  | skipped (hnew : ¬pkt.seq.lte r.lastDeliveredSequenceNumber = true)
      (hlte : pkt.seq.lte r.maxSeenSequenceNumber = true)
      (hplace : place pkt r.packetList = .skipped) : Pushed r pkt (r.countPush pkt)

/-- Every call of `Push` has one of these outcomes. -/
theorem pushed_push (r : Receiver) (pkt : Packet) : Pushed r pkt (r.push pkt).1 := by
  unfold Receiver.push
  dsimp only
  split
  · exact .belated
  rename_i hnew
  split
  · exact .dropped
  split
  · exact .appended r.statistics.pktLoss
  split
  · rename_i hlte
    rw [show (r.countPush pkt).packetList = r.packetList from rfl]
    cases hplace : place pkt r.packetList with
    | duplicate => exact .dropped
    | inserted packets => exact .inserted packets (perm_of_place hplace)
    | skipped => exact .skipped hnew hlte hplace
  · exact .appended _

/-- `Push` puts nothing else into the buffer than its packet. -/
theorem Pushed.mem {r' : Receiver} (hpush : Pushed r pkt r') {q : Packet}
    (h : q ∈ r'.packetList) : q = pkt ∨ q ∈ r.packetList := by
  cases hpush with
  | belated => exact Or.inr h
  | dropped => exact Or.inr h
  | inserted packets hperm => exact List.mem_cons.mp (hperm.mem_iff.mp h)
  | appended pktLoss =>
    rcases List.mem_append.mp h with h | h
    · exact Or.inr h
    · exact Or.inl (List.mem_singleton.mp h)
  | skipped => exact Or.inr h

/-- `Push` takes nothing out of the buffer. -/
theorem Pushed.mem_of_mem {r' : Receiver} (hpush : Pushed r pkt r') {q : Packet}
    (h : q ∈ r.packetList) : q ∈ r'.packetList := by
  cases hpush with
  | belated => exact h
  | dropped => exact h
  | inserted packets hperm => exact hperm.mem_iff.mpr (List.mem_cons_of_mem _ h)
  | appended pktLoss => exact List.mem_append_left _ h
  | skipped => exact h

/-- What the insertion loop finds for a packet that is after the number `a` in front of the
list. -/
inductive Placed (pkt : Packet) (a : Number) (ps : List Packet) : Placement → Prop where
  | duplicate : Placed pkt a ps .duplicate
  | inserted (packets : List Packet)
      (hmem : ∀ q ∈ packets, q = pkt ∨ q ∈ ps)
      (hchain : (a :: packets.map Packet.seq).IsChain Before)
      (hlast : (a :: packets.map Packet.seq).getLast? = (a :: ps.map Packet.seq).getLast?) :
      Placed pkt a ps (.inserted packets)
  | skipped (hlast : ∀ n, (a :: ps.map Packet.seq).getLast? = some n → n.Before pkt.seq) :
      Placed pkt a ps .skipped

/-- The insertion loop finds one of these places. -/
theorem placed_place (hp : pkt.seq.IsSequenceNumber) (ps : List Packet) :
    ∀ a : Number, (∀ q ∈ ps, q.seq.IsSequenceNumber) →
      (a :: ps.map Packet.seq).IsChain Before → a.Before pkt.seq →
      Placed pkt a ps (place pkt ps) := by
  induction ps with
  | nil =>
    intro a _ _ hbefore
    refine .skipped ?_
    intro n hn
    cases hn
    exact hbefore
  | cons p rest ih =>
    intro a hnumber hchain hbefore
    have hpn := hnumber p List.mem_cons_self
    obtain ⟨-, htail⟩ := List.isChain_cons_cons.mp hchain
    simp only [place]
    by_cases heq : p.seq = pkt.seq
    · rw [if_pos heq]
      exact .duplicate
    rw [if_neg heq, hpn.gt_eq_lt hp]
    by_cases hgt : pkt.seq.lt p.seq = true
    · -- The first greater number: the packet goes in front of it.
      rw [if_pos hgt]
      refine .inserted _ ?_ ?_ rfl
      · intro q hq
        exact List.mem_cons.mp hq
      · exact List.isChain_cons_cons.mpr ⟨hbefore, List.isChain_cons_cons.mpr ⟨hgt, htail⟩⟩
    · -- Not equal and not greater, so the packet goes behind this one.
      rw [if_neg hgt]
      have hnext := ih p.seq (fun q hq => hnumber q (List.mem_cons_of_mem _ hq)) htail
        ((hpn.before_iff hp heq).mpr hgt)
      have hlink : a.Before p.seq := (List.isChain_cons_cons.mp hchain).1
      cases hplace : place pkt rest with
      | duplicate => exact .duplicate
      | inserted packets =>
        rw [hplace] at hnext
        cases hnext with
        | inserted _ hmem hchain' hlast =>
          refine .inserted _ ?_ (List.isChain_cons_cons.mpr ⟨hlink, hchain'⟩) ?_
          · intro q hq
            rcases List.mem_cons.mp hq with rfl | hq
            · exact Or.inr List.mem_cons_self
            · exact (hmem q hq).imp_right (List.mem_cons_of_mem _)
          · simpa only [List.map_cons, List.getLast?_cons_cons] using hlast
      | skipped =>
        rw [hplace] at hnext
        cases hnext with
        | skipped hlast =>
          refine .skipped ?_
          intro n hn
          exact hlast n (by simpa only [List.map_cons, List.getLast?_cons_cons] using hn)

/-- A packet after the greatest number goes to the end. -/
theorem Chained.append (h : r.Chained) (hp : pkt.seq.IsSequenceNumber)
    (hbefore : r.maxSeenSequenceNumber.Before pkt.seq) {r' : Receiver}
    (hdelivered : r'.lastDeliveredSequenceNumber = r.lastDeliveredSequenceNumber)
    (hlist : r'.packetList = r.packetList ++ [pkt])
    (hmax : r'.maxSeenSequenceNumber = pkt.seq) : r'.Chained := by
  have hnumbers : r'.numbers = r.numbers ++ [pkt.seq] := by
    unfold numbers
    rw [hdelivered, hlist, List.map_append, List.map_singleton, List.cons_append]
  constructor
  · rw [hnumbers]
    exact List.forall_mem_append.mpr ⟨h.isNumber, List.forall_mem_singleton.mpr hp⟩
  · rw [hnumbers, List.isChain_append]
    refine ⟨h.chain, List.isChain_singleton _, ?_⟩
    intro x hx y hy
    rw [h.top] at hx
    cases hx
    cases hy
    exact hbefore
  · rw [hnumbers, hmax, List.getLast?_concat]

/-- A receiver with the same numbers. -/
theorem Chained.of_eq (h : r.Chained) {r' : Receiver}
    (hdelivered : r'.lastDeliveredSequenceNumber = r.lastDeliveredSequenceNumber)
    (hlist : r'.packetList = r.packetList)
    (hmax : r'.maxSeenSequenceNumber = r.maxSeenSequenceNumber) : r'.Chained := by
  have hnumbers : r'.numbers = r.numbers := by
    unfold numbers
    rw [hdelivered, hlist]
  exact ⟨hnumbers ▸ h.isNumber, hnumbers ▸ h.chain, by rw [hnumbers, hmax]; exact h.top⟩

/-- The loop always finds a place: otherwise the greatest number would be before the packet. -/
theorem Chained.place_ne_skipped (h : r.Chained) (hp : pkt.seq.IsSequenceNumber)
    (hnew : ¬pkt.seq.lte r.lastDeliveredSequenceNumber = true)
    (hlte : pkt.seq.lte r.maxSeenSequenceNumber = true) : place pkt r.packetList ≠ .skipped := by
  have hdelivered : r.lastDeliveredSequenceNumber.IsSequenceNumber :=
    h.isNumber _ List.mem_cons_self
  have hplaced := placed_place hp r.packetList r.lastDeliveredSequenceNumber
    (fun q hq => h.isNumber _ (List.mem_cons_of_mem _ (List.mem_map_of_mem hq))) h.chain
    (hp.before_of_not_lte hdelivered hnew)
  intro hplace
  rw [hplace] at hplaced
  cases hplaced with
  | skipped hlast =>
    have hbefore := hlast _ h.top
    rcases (hp.lte_iff h.maxSeen).mp hlte with heq | hlt
    · exact absurd (heq ▸ hbefore) (not_before_self _)
    · exact absurd hbefore (hp.not_before_of_before h.maxSeen hlt)

/-- `Push` keeps the invariant, whatever the number is. -/
theorem Chained.push (h : r.Chained) (hp : pkt.seq.IsSequenceNumber) :
    (r.push pkt).1.Chained := by
  have hdelivered : r.lastDeliveredSequenceNumber.IsSequenceNumber :=
    h.isNumber _ List.mem_cons_self
  unfold Receiver.push
  dsimp only
  split
  · exact h.of_eq rfl rfl rfl
  rename_i hnew
  have hafter : r.lastDeliveredSequenceNumber.Before pkt.seq :=
    hp.before_of_not_lte hdelivered hnew
  split
  · exact h.of_eq rfl rfl rfl
  split
  · rename_i hnext
    refine h.append hp ?_ rfl rfl rfl
    rw [(hp.equals_iff h.maxSeen.inc).mp hnext]
    exact h.maxSeen.before_inc
  split
  · rename_i hlte
    have hplaced := placed_place hp r.packetList r.lastDeliveredSequenceNumber
      (fun q hq => h.isNumber _ (List.mem_cons_of_mem _ (List.mem_map_of_mem hq))) h.chain hafter
    rw [show (r.countPush pkt).packetList = r.packetList from rfl]
    cases hplace : place pkt r.packetList with
    | duplicate => exact h.of_eq rfl rfl rfl
    | skipped => exact absurd hplace (h.place_ne_skipped hp hnew hlte)
    | inserted packets =>
      rw [hplace] at hplaced
      cases hplaced with
      | inserted _ hmem hchain hlast =>
        refine ⟨?_, hchain, hlast.trans h.top⟩
        intro n hn
        rcases List.mem_cons.mp hn with rfl | hn
        · exact hdelivered
        obtain ⟨q, hq, rfl⟩ := List.mem_map.mp hn
        rcases hmem q hq with rfl | hq
        · exact hp
        · exact h.isNumber _ (List.mem_cons_of_mem _ (List.mem_map_of_mem hq))
  · rename_i hgt
    exact h.append hp (hp.before_of_not_lte h.maxSeen hgt) rfl rfl rfl

/-! ### Delivery -/

/-- The part of `Tick` that delivers moves the start of the chain. -/
theorem Chained.tickDeliver (h : r.Chained) (now : UInt64) :
    (r.tickDeliver now).1.Chained ∧
    (r.lastDeliveredSequenceNumber :: (r.tickDeliver now).2.map Packet.seq).IsChain Before ∧
    (r.lastDeliveredSequenceNumber :: (r.tickDeliver now).2.map Packet.seq).getLast?
      = some (r.tickDeliver now).1.lastDeliveredSequenceNumber := by
  have hsplit : r.packetList = (r.tickDeliver now).2 ++ (r.tickDeliver now).1.packetList :=
    List.takeWhile_append_dropWhile.symm
  have hmax : (r.tickDeliver now).1.maxSeenSequenceNumber = r.maxSeenSequenceNumber := rfl
  have hlast : (r.tickDeliver now).1.lastDeliveredSequenceNumber
      = ((r.tickDeliver now).2.getLast?.map Packet.seq).getD r.lastDeliveredSequenceNumber := rfl
  have hnumbers : r.numbers = r.lastDeliveredSequenceNumber ::
      ((r.tickDeliver now).2.map Packet.seq ++
        (r.tickDeliver now).1.packetList.map Packet.seq) := by
    unfold numbers
    rw [hsplit, List.map_append]
  generalize r.tickDeliver now = out at *
  obtain ⟨r', removed⟩ := out
  rcases List.eq_nil_or_concat removed with rfl | ⟨ys, x, rfl⟩
  · exact ⟨h.of_eq hlast hsplit.symm hmax, List.isChain_singleton _, by rw [hlast]; rfl⟩
  · have hlast' : r'.lastDeliveredSequenceNumber = x.seq := by
      rw [hlast]
      simp
    -- The last delivered packet is where the chain is cut.
    have hcut : r.numbers
        = (r.lastDeliveredSequenceNumber :: ys.map Packet.seq) ++ r'.numbers := by
      rw [hnumbers]
      unfold numbers
      rw [hlast']
      simp
    have hchain := h.chain
    rw [hcut] at hchain
    refine ⟨⟨?_, hchain.right_of_append, ?_⟩, ?_, ?_⟩
    · intro n hn
      exact h.isNumber n (by rw [hcut]; exact List.mem_append_right _ hn)
    · have hne : r'.numbers ≠ [] := List.cons_ne_nil _ _
      have htop := h.top
      rw [hcut, List.getLast?_append_of_ne_nil _ hne] at htop
      exact htop.trans (congrArg some hmax.symm)
    · have hleft := (List.isChain_split.mp hchain).1
      rw [hlast'] at hleft
      simpa using hleft
    · rw [hlast', List.concat_eq_append, List.map_append, List.map_singleton, ← List.cons_append,
        List.getLast?_concat]

/-! ### The parts of `Tick` that only look at the buffer -/

/-- The receiver `r'` has the buffer of `r`, and its counters: only `MsBuf` can differ. -/
structure SameBuffer (r r' : Receiver) : Prop where
  packetList : r'.packetList = r.packetList
  lastDelivered : r'.lastDeliveredSequenceNumber = r.lastDeliveredSequenceNumber
  maxSeen : r'.maxSeenSequenceNumber = r.maxSeenSequenceNumber
  statistics : ∃ msBuf, r'.statistics = { r.statistics with msBuf := msBuf }

theorem sameBuffer_periodicACK (r : Receiver) (now : UInt64) :
    r.SameBuffer (r.periodicACK now).1 := by
  unfold Receiver.periodicACK
  split
  · split
    · exact ⟨rfl, rfl, rfl, _, rfl⟩
    · exact ⟨rfl, rfl, rfl, _, rfl⟩
  · exact ⟨rfl, rfl, rfl, _, rfl⟩

theorem sameBuffer_periodicNAK (r : Receiver) (now : UInt64) :
    r.SameBuffer (r.periodicNAK now).1 := by
  unfold Receiver.periodicNAK
  split
  · exact ⟨rfl, rfl, rfl, _, rfl⟩
  · exact ⟨rfl, rfl, rfl, _, rfl⟩

theorem sameBuffer_tickRate (r : Receiver) (now : UInt64) : r.SameBuffer (r.tickRate now) := by
  unfold Receiver.tickRate
  split
  · exact ⟨rfl, rfl, rfl, _, rfl⟩
  · exact ⟨rfl, rfl, rfl, _, rfl⟩

end

end Receiver

/-! ### Runs -/

namespace Receiving

/-- `Tick` is its parts. -/
theorem tick_eq (s : Receiving) (now : UInt64) :
    s.tick now =
      let acked : Receiving := { s with receiver := (s.receiver.periodicACK now).1 }
      let reported : Receiving := { acked with receiver := (acked.receiver.periodicNAK now).1 }
      let delivered := reported.tickDeliver now
      { delivered with receiver := delivered.receiver.tickRate now } := by
  simp only [tick, tickDeliver, Receiver.tick]

section
variable {P : List Packet → Receiving → Prop}
  (hpush : ∀ ps s p, p.seq.IsSequenceNumber → P ps s →
    P (ps ++ [p]) { s with receiver := (s.receiver.push p).1 })
  (hsame : ∀ ps s r, s.receiver.SameBuffer r → P ps s → P ps { s with receiver := r })
  (hdeliver : ∀ ps s now, P ps s → P ps (s.tickDeliver now))
include hpush hsame hdeliver

/-- What every part of an event keeps, every event keeps. -/
theorem step_parts {l : List Packet} {s s' : Receiving} {e : Event} (h : P l s)
    (hs : s.step e = some s') : P (l ++ (pushed? e).toList) s' := by
  cases e with
  | push p =>
    simp only [Receiving.step] at hs
    split at hs
    · rename_i hp
      cases hs
      exact hpush l s p hp h
    · cases hs
  | tickACK now =>
    cases hs
    rw [show (pushed? (.tickACK now)).toList = [] from rfl, List.append_nil]
    exact hsame l s _ (s.receiver.sameBuffer_periodicACK now) h
  | tickNAK now =>
    cases hs
    rw [show (pushed? (.tickNAK now)).toList = [] from rfl, List.append_nil]
    exact hsame l s _ (s.receiver.sameBuffer_periodicNAK now) h
  | tickDeliver now =>
    cases hs
    rw [show (pushed? (.tickDeliver now)).toList = [] from rfl, List.append_nil]
    exact hdeliver l s now h
  | tickRate now =>
    cases hs
    rw [show (pushed? (.tickRate now)).toList = [] from rfl, List.append_nil]
    exact hsame l s _ (s.receiver.sameBuffer_tickRate now) h
  | tick now =>
    cases hs
    rw [show (pushed? (.tick now)).toList = [] from rfl, List.append_nil]
    have hack := hsame l s _ (s.receiver.sameBuffer_periodicACK now) h
    have hnak := hsame l _ _ (Receiver.sameBuffer_periodicNAK _ now) hack
    have hrate := hsame l _ _ (Receiver.sameBuffer_tickRate _ now) (hdeliver l _ now hnak)
    rw [tick_eq]
    exact hrate

/-- The induction over a run, with the packets that were pushed in it. -/
theorem run_parts {l : List Packet} {s s' : Receiving} {events : List Event} (h : P l s)
    (hrun : run step s events = some s') : P (l ++ events.filterMap pushed?) s' := by
  induction events generalizing l s with
  | nil =>
    cases hrun
    rw [List.filterMap_nil, List.append_nil]
    exact h
  | cons e events ih =>
    rw [run_cons, Option.bind_eq_some_iff] at hrun
    obtain ⟨s₁, hs₁, hrest⟩ := hrun
    have hnext := ih (step_parts hpush hsame hdeliver h hs₁) hrest
    rw [List.append_assoc] at hnext
    cases hpushed : pushed? e with
    | none =>
      rw [hpushed] at hnext
      rw [List.filterMap_cons_none hpushed]
      exact hnext
    | some p =>
      rw [hpushed] at hnext
      rw [List.filterMap_cons_some hpushed]
      exact hnext

end

/-- The buffer is chained, and so are the delivered packets. They end at the number delivered
last. -/
structure Inv (base : Number) (s : Receiving) : Prop where
  chained : s.receiver.Chained
  delivered : (base :: s.delivered.map Packet.seq).IsChain Before
  last : (base :: s.delivered.map Packet.seq).getLast?
    = some s.receiver.lastDeliveredSequenceNumber
  isNumber : ∀ n ∈ base :: s.delivered.map Packet.seq, n.IsSequenceNumber

theorem inv_init {config : ReceiveConfig}
    (h : config.initialSequenceNumber.IsSequenceNumber) :
    (init config).Inv config.initialSequenceNumber.dec where
  chained := Receiver.chained_newReceiver h
  delivered := List.isChain_singleton _
  last := rfl
  isNumber := List.forall_mem_singleton.mpr h.dec

section
variable {base : Number} {s : Receiving}

theorem Inv.of_receiver (h : s.Inv base) {r : Receiver} (hr : r.Chained)
    (hlast : r.lastDeliveredSequenceNumber = s.receiver.lastDeliveredSequenceNumber) :
    ({ s with receiver := r } : Receiving).Inv base :=
  { h with
    chained := hr
    last := by
      show _ = some r.lastDeliveredSequenceNumber
      rw [hlast]
      exact h.last }

theorem Inv.of_sameBuffer (h : s.Inv base) {r : Receiver} (hr : s.receiver.SameBuffer r) :
    ({ s with receiver := r } : Receiving).Inv base :=
  h.of_receiver (h.chained.of_eq hr.lastDelivered hr.packetList hr.maxSeen) hr.lastDelivered

theorem Inv.push (h : s.Inv base) {p : Packet} (hp : p.seq.IsSequenceNumber) :
    ({ s with receiver := (s.receiver.push p).1 } : Receiving).Inv base :=
  h.of_receiver (h.chained.push hp) (Receiver.push_lastDeliveredSequenceNumber _ p)

theorem Inv.tickDeliver (h : s.Inv base) (now : UInt64) : (s.tickDeliver now).Inv base := by
  obtain ⟨hchained, hchain, hlast⟩ := h.chained.tickDeliver now
  obtain ⟨ds, hds⟩ := List.getLast?_eq_some_iff.mp h.last
  have hmap : base :: (s.tickDeliver now).delivered.map Packet.seq
      = ds ++ (s.receiver.lastDeliveredSequenceNumber ::
        (s.receiver.tickDeliver now).2.map Packet.seq) := by
    show base :: (s.delivered ++ (s.receiver.tickDeliver now).2).map Packet.seq = _
    rw [List.map_append, ← List.cons_append, hds, List.append_assoc]
    rfl
  constructor
  · exact hchained
  · rw [hmap, List.isChain_split, ← hds]
    exact ⟨h.delivered, hchain⟩
  · rw [hmap, List.getLast?_append_of_ne_nil _ (List.cons_ne_nil _ _)]
    exact hlast
  · rw [show base :: (s.tickDeliver now).delivered.map Packet.seq
      = (base :: s.delivered.map Packet.seq) ++ (s.receiver.tickDeliver now).2.map Packet.seq by
        show base :: (s.delivered ++ (s.receiver.tickDeliver now).2).map Packet.seq = _
        rw [List.map_append, List.cons_append]]
    refine List.forall_mem_append.mpr ⟨h.isNumber, ?_⟩
    intro n hn
    obtain ⟨q, hq, rfl⟩ := List.mem_map.mp hn
    have hq' : q ∈ s.receiver.packetList := List.takeWhile_sublist _ |>.subset hq
    exact h.chained.isNumber _ (List.mem_cons_of_mem _ (List.mem_map_of_mem hq'))

/-- The invariant holds after every run. -/
theorem run_inv {config : ReceiveConfig} (hinit : config.initialSequenceNumber.IsSequenceNumber)
    {events : List Event} (hrun : run step (init config) events = some s) :
    s.Inv config.initialSequenceNumber.dec :=
  run_parts (P := fun _ t => t.Inv config.initialSequenceNumber.dec) (l := [])
    (fun _ _ _ hp h => h.push hp) (fun _ _ _ hr h => h.of_sameBuffer hr)
    (fun _ _ now h => h.tickDeliver now) (inv_init hinit) hrun

end

/-- Numbers of a window whose neighbours are in order are all in order. -/
theorem pairwise_of_isChain {b : Number} {k : Nat} (hw : Window b k) {ns : List Number}
    (hns : ∀ n ∈ ns, b.InWindow k n) (hchain : ns.IsChain Before) :
    ns.Pairwise fun m n => b.offset m < b.offset n := by
  have hoffsets : ns.IsChain fun m n => b.offset m < b.offset n := by
    refine List.IsChain.imp_of_mem_imp ?_ hchain
    intro m n hm hn hbefore
    have hlt : m.lt n = true := hbefore
    rwa [(hns m hm).lt_eq hw.wf hw.narrow (hns n hn), decide_eq_true_iff] at hlt
  have htrans : IsTrans Number fun m n => b.offset m < b.offset n := ⟨fun _ _ _ => Nat.lt_trans⟩
  exact List.isChain_iff_pairwise.mp hoffsets

/-- The neighbours of a reachable buffer are in order. In a window this is a sorted list. -/
theorem increasing_of_chained {b : Number} {k : Nat} (hw : Window b k) {r : Receiver}
    (h : r.Chained) (hps : ∀ p ∈ r.packetList, b.InWindow k p.seq) :
    Increasing b r.packetList := by
  refine (List.pairwise_map (f := Packet.seq) (R := fun m n => b.offset m < b.offset n)).mp
    (pairwise_of_isChain hw ?_ (List.isChain_cons.mp h.chain).2)
  intro n hn
  obtain ⟨p, hp, rfl⟩ := List.mem_map.mp hn
  exact hps p hp

/-- The receive buffer in every run, from every initial sequence number and under arbitrary
packets: neighbours are in order, the first packet is after the number delivered last, and the
last packet has the greatest number seen. Each delivered packet is after the one delivered before
it. -/
theorem buffer_in_order (config : ReceiveConfig)
    (hinit : config.initialSequenceNumber.IsSequenceNumber) (events : List Event) (s : Receiving)
    (hrun : run step (init config) events = some s) :
    s.receiver.packetList.IsChain (fun p q => p.seq.lt q.seq = true) ∧
    (∀ p, s.receiver.packetList.head? = some p →
      p.seq.gt s.receiver.lastDeliveredSequenceNumber = true) ∧
    (∀ p, s.receiver.packetList.getLast? = some p →
      p.seq = s.receiver.maxSeenSequenceNumber) ∧
    (s.receiver.packetList = [] →
      s.receiver.lastDeliveredSequenceNumber = s.receiver.maxSeenSequenceNumber) ∧
    s.delivered.IsChain (fun p q => q.seq.gt p.seq = true) := by
  have h := run_inv hinit hrun
  have hchain := h.chained.chain
  have htop := h.chained.top
  have hnumber := h.chained.isNumber
  unfold Receiver.numbers at hchain htop hnumber
  refine ⟨?_, ?_, ?_, ?_, ?_⟩
  · exact (List.isChain_map _).mp (List.isChain_cons.mp hchain).2
  · intro p hp
    have hmem : p.seq ∈ (s.receiver.packetList.map Packet.seq).head? := by
      rw [List.head?_map, hp]
      rfl
    rw [(hnumber _ (List.mem_cons_of_mem _ (List.mem_of_mem_head? hmem))).gt_eq_lt
      (hnumber _ List.mem_cons_self)]
    exact (List.isChain_cons.mp hchain).1 _ hmem
  · intro p hp
    rw [List.getLast?_cons, List.getLast?_map, hp] at htop
    exact Option.some.inj htop
  · intro hempty
    rw [hempty] at htop
    exact Option.some.inj htop
  · have hdelivered := (List.isChain_map _).mp (List.isChain_cons.mp h.delivered).2
    refine List.IsChain.imp_of_mem_imp ?_ hdelivered
    intro p q hp hq hbefore
    rw [(h.isNumber _ (List.mem_cons_of_mem _ (List.mem_map_of_mem hq))).gt_eq_lt
      (h.isNumber _ (List.mem_cons_of_mem _ (List.mem_map_of_mem hp)))]
    exact hbefore

/-- A packet with this number, due at this time. -/
def samplePacket (packetSequenceNumber : UInt32) (pktTsbpdTime : UInt64) : Packet :=
  let p := newPacket none
  { p with
    header := { p.header with
      packetSequenceNumber := Number.new packetSequenceNumber maxSequenceNumber
      pktTsbpdTime := pktTsbpdTime } }

/-- A gap, a late packet, a duplicate, a packet that is almost half of the number space ahead, and
one that is more than half ahead and counts as old. -/
def sampleRun : List Event :=
  [.push (samplePacket 5 10), .push (samplePacket 8 40), .push (samplePacket 6 20),
   .push (samplePacket 6 20), .push (samplePacket 1073741820 50),
   .push (samplePacket 2147483647 60), .tickACK 30, .tickDeliver 30]

def sampleConfig : ReceiveConfig where
  initialSequenceNumber := Number.new 5 maxSequenceNumber
  periodicACKInterval := 10
  periodicNAKInterval := 20

def sampleEnd : Receiving := runD step (init sampleConfig) sampleRun

/-- The duplicate and the old packet are not in the buffer. -/
theorem buffer_sampleEnd :
    sampleEnd.delivered.map (·.seq.val) = [5, 6] ∧
    sampleEnd.receiver.packetList.map (·.seq.val) = [8, 1073741820] ∧
    sampleEnd.receiver.packetList.IsChain (fun p q => p.seq.lt q.seq = true) :=
  ⟨by decide +kernel, by decide +kernel,
    (buffer_in_order sampleConfig (by decide) sampleRun sampleEnd
      (run_eq_some_runD (by decide +kernel))).1⟩

end Receiving

end Gosrt
