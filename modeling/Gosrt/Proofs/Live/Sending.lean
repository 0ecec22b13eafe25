import Gosrt.Proofs.Circular
import Gosrt.Proofs.Live.Send
import Gosrt.Spec.Live.Runs

/-!
# `Gosrt.Proofs.Live.Sending`: no packet is lost in the sender

The history of a run fixes where each packet is. What `Tick` handed over, followed by the packet
list, is what was pushed. The loss list is a part of what was handed over, in the same order,
and the rest of it was removed. These are the facts of the invariant `Inv`, and each operation
moves packets in a way that keeps them: `Push` and `Tick` at the ends of the lists, `ACK` and the
second part of `Tick` by a removal (`Inv.remove`), `NAK` not at all (`Inv.relabel`).

The statements of `NoLoss` follow. With fewer than `2 ^ 30 - 1` packets the numbers are in a
window of the circular order, so the loss list is sorted, and the loop of `ACK`, which stops at
the first packet that is not acknowledged, does not miss one behind it.
-/

set_option autoImplicit false

namespace Gosrt

open Lib Number

/-! ### Prefixes of sorted lists -/

section
variable {α : Type} {P : α → Bool} {l : List α}

/-- Where `P` can only be lost along a list, the loop that stops at the first failure finds
everything. -/
theorem takeWhile_eq_filter (hmono : l.Pairwise fun x y => P y = true → P x = true) :
    l.takeWhile P = l.filter P := by
  induction l with
  | nil => rfl
  | cons a l ih =>
    obtain ⟨hhead, htail⟩ := List.pairwise_cons.mp hmono
    by_cases ha : P a = true
    · rw [List.takeWhile_cons_of_pos ha, List.filter_cons_of_pos ha, ih htail]
    · rw [List.takeWhile_cons_of_neg ha, List.filter_cons_of_neg ha, eq_comm,
        List.filter_eq_nil_iff]
      intro y hy hPy
      exact ha (hhead y hy hPy)

theorem dropWhile_eq_filter (hmono : l.Pairwise fun x y => P y = true → P x = true) :
    l.dropWhile P = l.filter (fun x => !P x) := by
  induction l with
  | nil => rfl
  | cons a l ih =>
    obtain ⟨hhead, htail⟩ := List.pairwise_cons.mp hmono
    by_cases ha : P a = true
    · rw [List.dropWhile_cons_of_pos ha, List.filter_cons_of_neg (by simp [ha]), ih htail]
    · rw [List.dropWhile_cons_of_neg ha, eq_comm, List.filter_eq_self]
      intro y hy
      rcases List.mem_cons.mp hy with rfl | hy
      · simpa using ha
      · have hPy : ¬P y = true := fun h => ha (hhead y hy h)
        simpa using hPy

end

namespace Sending

/-! ### Counters -/

theorem payloadBytes_append (ps qs : List Packet) :
    payloadBytes (ps ++ qs) = payloadBytes ps + payloadBytes qs := by
  unfold payloadBytes
  rw [List.map_append, List.sum_append]

theorem payloadBytes_perm {ps qs : List Packet} (h : ps.Perm qs) :
    payloadBytes ps = payloadBytes qs :=
  (h.map _).sum_nat

/-- The labels say how many packets and bytes there are. -/
theorem payloadBytes_of_label {ps qs : List Packet}
    (h : ps.map Packet.label = qs.map Packet.label) : payloadBytes ps = payloadBytes qs := by
  have hlabel : ∀ rs : List Packet,
      payloadBytes rs = ((rs.map Packet.label).map (·.2.length)).sum := by
    intro rs
    rw [List.map_map]
    rfl
  rw [hlabel, hlabel, h]

theorem length_of_label {ps qs : List Packet} (h : ps.map Packet.label = qs.map Packet.label) :
    ps.length = qs.length := by
  rw [← List.length_map Packet.label, h, List.length_map]

/-- What the source adds up is the number of bytes, in `uint64`. -/
theorem totalLen_eq (ps : List Packet) :
    Sender.totalLen ps = UInt64.ofNat (payloadBytes ps) := by
  -- The accumulator of the loop starts anywhere, because `UInt64` addition wraps.
  have hloop : ∀ (ps : List Packet) (acc : UInt64),
      ps.foldl (fun acc p => acc + p.len) acc = acc + UInt64.ofNat (payloadBytes ps) := by
    intro ps
    induction ps with
    | nil =>
      intro acc
      exact (add_zero acc).symm
    | cons p rest ih =>
      intro acc
      rw [List.foldl_cons, ih, ← List.singleton_append, payloadBytes_append, UInt64.ofNat_add,
        ← add_assoc]
      rfl
  unfold Sender.totalLen
  rw [hloop, zero_add]

/-! ### The invariant -/

/-- The labels of the pushed packets, by steps from the initial number. -/
def labels (initial : Number) (pushed : List Packet) : List (Number × Bytes) :=
  pushed.mapIdx fun i p => (initial.plus i, p.payload)

theorem labels_concat (initial : Number) (pushed : List Packet) (p : Packet) :
    labels initial (pushed ++ [p])
      = labels initial pushed ++ [(initial.plus pushed.length, p.payload)] := by
  unfold labels
  rw [List.mapIdx_concat]

structure Inv (initial : Number) (s : Sending) : Prop where
  next : s.sender.nextSequenceNumber = initial.plus s.pushed.length
  handedOver : (s.delivered ++ s.sender.packetList).map Packet.label = labels initial s.pushed
  /-- The loss list is a part of what was handed over, in the same order. -/
  kept : (s.sender.lossList.map Packet.label).Sublist (s.delivered.map Packet.label)
  /-- What was handed over is in the loss list or was removed from it. -/
  removed : ((s.sender.lossList ++ (s.acked ++ s.dropped)).map Packet.label).Perm
    (s.delivered.map Packet.label)
  pktBuf : s.sender.statistics.pktBuf
    = UInt64.ofNat (s.sender.packetList.length + s.sender.lossList.length)
  byteBuf : s.sender.statistics.byteBuf
    = UInt64.ofNat (payloadBytes (s.sender.packetList ++ s.sender.lossList))

theorem inv_init {config : SendConfig} (hwf : config.initialSequenceNumber.Wf) :
    (init config).Inv config.initialSequenceNumber where
  next := (plus_zero hwf).symm
  handedOver := rfl
  kept := List.Sublist.refl _
  removed := List.Perm.refl _
  pktBuf := rfl
  byteBuf := rfl

section
variable {initial : Number} {s : Sending}

theorem Inv.push (h : s.Inv initial) (hwf : initial.Wf) (p : Packet) :
    (s.push p).Inv initial := by
  obtain ⟨q, hlist, hlabel⟩ := s.sender.push_packetList p
  have hpayload : q.payload = p.payload := congrArg Prod.snd hlabel
  refine ⟨?_, ?_, h.kept, h.removed, ?_, ?_⟩
  · show s.sender.nextSequenceNumber.inc = initial.plus (s.pushed ++ [p]).length
    rw [h.next, inc_plus hwf, List.length_append, List.length_singleton]
  · show (s.delivered ++ (s.sender.push p).packetList).map Packet.label
      = labels initial (s.pushed ++ [p])
    rw [hlist, labels_concat, ← List.append_assoc, List.map_append, h.handedOver,
      List.map_singleton, hlabel, h.next]
  · show s.sender.statistics.pktBuf + 1
      = UInt64.ofNat ((s.sender.push p).packetList.length + s.sender.lossList.length)
    rw [hlist, h.pktBuf, List.length_append, List.length_singleton,
      show s.sender.packetList.length + 1 + s.sender.lossList.length
        = s.sender.packetList.length + s.sender.lossList.length + 1 by omega]
    exact (UInt64.ofNat_add _ 1).symm
  -- The link capacity probe of `Push` changes the time of the packet only.
  · have hbyte : (s.sender.push p).statistics.byteBuf
        = s.sender.statistics.byteBuf + UInt64.ofNat p.payload.length := by
      unfold Sender.push
      dsimp only
      split
      · rfl
      · rfl
    show (s.sender.push p).statistics.byteBuf
      = UInt64.ofNat (payloadBytes ((s.sender.push p).packetList ++ s.sender.lossList))
    have hq : payloadBytes [q] = p.payload.length := by
      rw [← hpayload]
      rfl
    rw [hbyte, hlist, h.byteBuf, payloadBytes_append, payloadBytes_append, payloadBytes_append, hq,
      ← UInt64.ofNat_add]
    congr 1
    omega

theorem Inv.tickDeliver (h : s.Inv initial) (now : UInt64) : (s.tickDeliver now).Inv initial := by
  have hsplit : (s.sender.tickDeliver now).2 ++ (s.sender.tickDeliver now).1.packetList
      = s.sender.packetList := List.takeWhile_append_dropWhile
  -- The packets that are due move from the front of one list to the end of the other.
  have hperm : ((s.sender.tickDeliver now).1.packetList ++
      (s.sender.lossList ++ (s.sender.tickDeliver now).2)).Perm
        (s.sender.packetList ++ s.sender.lossList) := by
    rw [← hsplit]
    refine List.perm_append_comm.trans ?_
    rw [List.append_assoc]
    exact List.perm_append_comm
  refine ⟨h.next, ?_, ?_, ?_, ?_, ?_⟩
  · show ((s.delivered ++ (s.sender.tickDeliver now).2) ++
      (s.sender.tickDeliver now).1.packetList).map Packet.label = _
    rw [List.append_assoc, hsplit]
    exact h.handedOver
  · show ((s.sender.lossList ++ (s.sender.tickDeliver now).2).map Packet.label).Sublist
      ((s.delivered ++ (s.sender.tickDeliver now).2).map Packet.label)
    rw [List.map_append, List.map_append]
    exact h.kept.append (List.Sublist.refl _)
  · show (((s.sender.lossList ++ (s.sender.tickDeliver now).2) ++
      (s.acked ++ s.dropped)).map Packet.label).Perm
        ((s.delivered ++ (s.sender.tickDeliver now).2).map Packet.label)
    have hswap : ((s.sender.lossList ++ (s.sender.tickDeliver now).2) ++
        (s.acked ++ s.dropped)).Perm
          ((s.sender.lossList ++ (s.acked ++ s.dropped)) ++ (s.sender.tickDeliver now).2) := by
      rw [List.append_assoc, List.append_assoc]
      exact List.perm_append_comm.append_left _
    have hmore := h.removed.append_right ((s.sender.tickDeliver now).2.map Packet.label)
    rw [← List.map_append, ← List.map_append] at hmore
    exact (hswap.map _).trans hmore
  · show s.sender.statistics.pktBuf
      = UInt64.ofNat ((s.sender.tickDeliver now).1.packetList.length
        + (s.sender.lossList ++ (s.sender.tickDeliver now).2).length)
    rw [h.pktBuf, ← List.length_append, ← List.length_append, hperm.length_eq]
  · show s.sender.statistics.byteBuf
      = UInt64.ofNat (payloadBytes ((s.sender.tickDeliver now).1.packetList ++
        (s.sender.lossList ++ (s.sender.tickDeliver now).2)))
    rw [h.byteBuf, payloadBytes_perm hperm]

/-- Packets leave the loss list, and are recorded as removed. -/
theorem Inv.remove (h : s.Inv initial) {sender : Sender} (gone : List Packet)
    {acked dropped : List Packet}
    (hnext : sender.nextSequenceNumber = s.sender.nextSequenceNumber)
    (hqueue : sender.packetList = s.sender.packetList)
    (hkept : sender.lossList.Sublist s.sender.lossList)
    (hgone : (sender.lossList ++ gone).Perm s.sender.lossList)
    (hrecord : (acked ++ dropped).Perm (gone ++ (s.acked ++ s.dropped)))
    (hpkt : sender.statistics.pktBuf = s.sender.statistics.pktBuf - UInt64.ofNat gone.length)
    (hbyte : sender.statistics.byteBuf
      = s.sender.statistics.byteBuf - Sender.totalLen gone) :
    ({ s with sender := sender, acked := acked, dropped := dropped } : Sending).Inv initial := by
  have hall : (s.sender.packetList ++ s.sender.lossList).Perm
      ((sender.packetList ++ sender.lossList) ++ gone) := by
    rw [hqueue, List.append_assoc]
    exact hgone.symm.append_left _
  refine ⟨?_, ?_, ?_, ?_, ?_, ?_⟩
  · exact hnext.trans h.next
  · show (s.delivered ++ sender.packetList).map Packet.label = _
    rw [hqueue]
    exact h.handedOver
  · exact (hkept.map Packet.label).trans h.kept
  · show ((sender.lossList ++ (acked ++ dropped)).map Packet.label).Perm _
    refine List.Perm.trans (List.Perm.map _ ?_) h.removed
    refine (hrecord.append_left _).trans ?_
    rw [← List.append_assoc]
    exact hgone.append_right _
  · -- The removed packets were counted, so that taking them off leaves the others.
    have hlen := hall.length_eq
    simp only [List.length_append] at hlen
    show sender.statistics.pktBuf = _
    rw [hpkt, h.pktBuf, hlen, UInt64.ofNat_add _ gone.length, add_sub_cancel_right]
  · show sender.statistics.byteBuf = _
    rw [hbyte, h.byteBuf, payloadBytes_perm hall, payloadBytes_append _ gone, totalLen_eq,
      UInt64.ofNat_add, add_sub_cancel_right]

/-- The packets stay where they are. -/
theorem Inv.relabel (h : s.Inv initial) {sender : Sender}
    (hnext : sender.nextSequenceNumber = s.sender.nextSequenceNumber)
    (hqueue : sender.packetList = s.sender.packetList)
    (hloss : sender.lossList.map Packet.label = s.sender.lossList.map Packet.label)
    (hpkt : sender.statistics.pktBuf = s.sender.statistics.pktBuf)
    (hbyte : sender.statistics.byteBuf = s.sender.statistics.byteBuf) :
    ({ s with sender := sender } : Sending).Inv initial := by
  refine ⟨?_, ?_, ?_, ?_, ?_, ?_⟩
  · exact hnext.trans h.next
  · show (s.delivered ++ sender.packetList).map Packet.label = _
    rw [hqueue]
    exact h.handedOver
  · show (sender.lossList.map Packet.label).Sublist _
    rw [hloss]
    exact h.kept
  · show ((sender.lossList ++ (s.acked ++ s.dropped)).map Packet.label).Perm _
    rw [List.map_append, hloss, ← List.map_append]
    exact h.removed
  · show sender.statistics.pktBuf = UInt64.ofNat (sender.packetList.length + sender.lossList.length)
    rw [hpkt, hqueue, length_of_label hloss]
    exact h.pktBuf
  · show sender.statistics.byteBuf
      = UInt64.ofNat (payloadBytes (sender.packetList ++ sender.lossList))
    rw [hbyte, hqueue, payloadBytes_append, payloadBytes_of_label hloss, ← payloadBytes_append]
    exact h.byteBuf

theorem Inv.tickDrop (h : s.Inv initial) (now : UInt64) : (s.tickDrop now).Inv initial := by
  refine h.remove (s.sender.tickDrop now).2 rfl rfl List.filter_sublist ?_ ?_ rfl rfl
  · exact List.perm_append_comm.trans (List.filter_append_perm _ _)
  · rw [← List.append_assoc]
    exact List.perm_append_comm

theorem Inv.ack (h : s.Inv initial) (n : Number) : (s.ack n).Inv initial := by
  -- An ACK takes the packets off the front of the loss list.
  refine h.remove (s.sender.ack n).2 rfl rfl (List.dropWhile_sublist _) ?_ ?_ rfl rfl
  · have hsplit : (s.sender.ack n).2 ++ (s.sender.ack n).1.lossList = s.sender.lossList :=
      List.takeWhile_append_dropWhile
    exact List.perm_append_comm.trans (List.Perm.of_eq hsplit)
  · rw [List.append_assoc]
    exact List.perm_append_comm_assoc _ _ _

theorem Inv.tickRate (h : s.Inv initial) (now : UInt64) : (s.tickRate now).Inv initial := by
  obtain ⟨hqueue, hloss, hnext⟩ := s.sender.tickRate_eq now
  refine h.relabel hnext hqueue (congrArg _ hloss) ?_ ?_
  · unfold Sender.tickRate
    split
    · rfl
    · rfl
  · unfold Sender.tickRate
    split
    · rfl
    · rfl

theorem Inv.nak (h : s.Inv initial) {ns : List Number} {sender : Sender} {sent : List Packet}
    (heven : ns.length % 2 = 0) (hnak : s.sender.nak ns = some (sender, sent)) :
    ({ s with sender := sender } : Sending).Inv initial := by
  -- `NAK` sets flags in the loss list and counts. Neither is part of a label.
  rw [Sender.nak_of_even heven] at hnak
  cases hnak
  obtain ⟨hqueue, hnext, hpkt, hbyte⟩ :=
    s.sender.foldl_countRetrans (Sender.resent ns s.sender.lossList)
  refine h.relabel hnext hqueue ?_ hpkt hbyte
  rw [List.map_map]
  exact List.map_congr_left fun p _ => Sender.flagged_label ns p

/-- `Tick` is its parts, one after the other. -/
theorem Inv.tick (h : s.Inv initial) (now : UInt64) : (s.tick now).Inv initial :=
  ((h.tickDeliver now).tickDrop now).tickRate now

/-- The invariant survives every step of the sender. -/
theorem Inv.step (h : s.Inv initial) (hwf : initial.Wf) {e : Event} {s' : Sending}
    (hs : s.step e = some s') : s'.Inv initial := by
  cases e with
  | push p =>
    cases hs
    exact h.push hwf p
  | tickDeliver now =>
    cases hs
    exact h.tickDeliver now
  | tickDrop now =>
    cases hs
    exact h.tickDrop now
  | tickRate now =>
    cases hs
    exact h.tickRate now
  | tick now =>
    cases hs
    exact h.tick now
  | ack n =>
    cases hs
    exact h.ack n
  | nak ns =>
    simp only [Sending.step] at hs
    split at hs
    · rename_i heven
      obtain ⟨out, hnak, rfl⟩ := Option.map_eq_some_iff.mp hs
      exact h.nak heven hnak
    · cases hs
  | setDropThreshold threshold =>
    cases hs
    exact h.relabel rfl rfl rfl rfl rfl

/-- The invariant holds after every run. -/
theorem run_inv {config : SendConfig} (hwf : config.initialSequenceNumber.Wf)
    {events : List Event} (hrun : run step (init config) events = some s) :
    s.Inv config.initialSequenceNumber :=
  run_induct (fun t => t.Inv config.initialSequenceNumber) (fun _ _ _ h hs => h.step hwf hs)
    (inv_init hwf) hrun

end

/-! ### The numbers of the pushed packets -/

section
variable {initial : Number} {pushed : List Packet}

theorem getElem?_labels {l : Number × Bytes} {i : Nat}
    (h : (labels initial pushed)[i]? = some l) : i < pushed.length ∧ l.1 = initial.plus i := by
  unfold labels at h
  rw [List.getElem?_mapIdx] at h
  obtain ⟨p, hp, rfl⟩ := Option.map_eq_some_iff.mp h
  exact ⟨(List.getElem?_eq_some_iff.mp hp).1, rfl⟩

/-- In a window the source's `Add` counts the steps. -/
theorem pushedLabels_eq {s : Sending} (hinitial : initial.IsSequenceNumber)
    (hlen : s.pushed.length < 2 ^ 30 - 1) : s.pushedLabels initial = labels initial s.pushed := by
  have hmax := hinitial.max_toNat
  unfold pushedLabels labels
  refine List.ext_getElem? fun i => ?_
  rw [List.getElem?_mapIdx, List.getElem?_mapIdx]
  cases hi : s.pushed[i]? with
  | none => rfl
  | some p =>
    have hlt := (List.getElem?_eq_some_iff.mp hi).1
    rw [Option.map_some, Option.map_some, hinitial.wf.add_eq (by omega)]

/-- The numbers in a window compare as the places of the packets do. -/
theorem plus_lt_plus_of_length (hinitial : initial.IsSequenceNumber)
    (hlen : pushed.length < 2 ^ 30 - 1) {i j : Nat} (hi : i ≤ pushed.length)
    (hj : j ≤ pushed.length) : (initial.plus i).lt (initial.plus j) = true ↔ i < j := by
  have hthreshold := hinitial.threshold_toNat
  rw [plus_lt_plus hinitial.wf (by omega) (by omega), decide_eq_true_iff]

/-- A relation between the numbers holds along the labels when it holds from step to later
step. -/
theorem pairwise_labels (initial : Number) (pushed : List Packet) {R : Number → Number → Prop}
    (h : ∀ i j, i < j → j < pushed.length → R (initial.plus i) (initial.plus j)) :
    (labels initial pushed).Pairwise fun a b => R a.1 b.1 := by
  rw [List.pairwise_iff_getElem]
  intro i j hi hj hij
  obtain ⟨hi', hai⟩ := getElem?_labels (List.getElem?_eq_getElem hi)
  obtain ⟨hj', haj⟩ := getElem?_labels (List.getElem?_eq_getElem hj)
  rw [hai, haj]
  exact h i j hij hj'

/-- A pushed packet is before the number of a push exactly when it was pushed before. -/
theorem lt_iff_mem_take (hinitial : initial.IsSequenceNumber) (hlen : pushed.length < 2 ^ 30 - 1)
    {k : Nat} (hk : k ≤ pushed.length) {l : Number × Bytes} (hl : l ∈ labels initial pushed) :
    l.1.lt (initial.plus k) = true ↔ l ∈ (labels initial pushed).take k := by
  constructor
  · intro hlt
    obtain ⟨i, hi⟩ := List.getElem?_of_mem hl
    obtain ⟨hilen, hnumber⟩ := getElem?_labels hi
    rw [hnumber, plus_lt_plus_of_length hinitial hlen (by omega) hk] at hlt
    refine List.mem_of_getElem? (i := i) ?_
    rw [List.getElem?_take_of_lt hlt]
    exact hi
  · intro hmem
    obtain ⟨i, hi⟩ := List.getElem?_of_mem hmem
    rw [List.getElem?_take] at hi
    split at hi
    · rename_i hik
      obtain ⟨hilen, hnumber⟩ := getElem?_labels hi
      rw [hnumber, plus_lt_plus_of_length hinitial hlen (by omega) hk]
      exact hik
    · cases hi

end

section
variable {initial : Number} {s : Sending}

/-- The labels that the sender holds, in the order of the pushes. -/
theorem Inv.held (h : s.Inv initial) :
    ((s.sender.lossList ++ s.sender.packetList).map Packet.label).Sublist
      (labels initial s.pushed) := by
  rw [← h.handedOver, List.map_append, List.map_append]
  exact h.kept.append (List.Sublist.refl _)

theorem Inv.lossList_sublist (h : s.Inv initial) :
    (s.sender.lossList.map Packet.label).Sublist (labels initial s.pushed) := by
  have hheld := h.held
  rw [List.map_append] at hheld
  exact (List.sublist_append_left _ _).trans hheld

/-- What is queued and what was handed over is all that was pushed. -/
theorem Inv.places (h : s.Inv initial) :
    ((s.sender.packetList ++ s.sender.lossList ++ s.acked ++ s.dropped).map
      Packet.label).Perm (labels initial s.pushed) := by
  have hplaces := (h.removed.append_left (s.sender.packetList.map Packet.label)).trans
    List.perm_append_comm
  rw [← List.map_append, ← List.map_append] at hplaces
  rw [← h.handedOver, List.append_assoc, List.append_assoc]
  exact hplaces

/-- In the loss list, what is before a number comes before what is not. -/
theorem Inv.pairwise_lossList (h : s.Inv initial) (hinitial : initial.IsSequenceNumber)
    (hlen : s.pushed.length < 2 ^ 30 - 1) {k : Nat} (hk : k ≤ s.pushed.length) :
    s.sender.lossList.Pairwise fun p q =>
      q.seq.lt (initial.plus k) = true → p.seq.lt (initial.plus k) = true := by
  have hall := pairwise_labels initial s.pushed
    (R := fun a b => b.lt (initial.plus k) = true → a.lt (initial.plus k) = true)
    fun i j hij hj => by
      rw [plus_lt_plus_of_length hinitial hlen (by omega) hk,
        plus_lt_plus_of_length hinitial hlen (by omega) hk]
      omega
  exact List.pairwise_map.mp (hall.sublist h.lossList_sublist)

/-- `ACK` takes the packets off the front of the loss list. In a window these are the ones that
were pushed before the acknowledged one. -/
theorem Inv.ackLoss (h : s.Inv initial) (hinitial : initial.IsSequenceNumber)
    (hlen : s.pushed.length < 2 ^ 30 - 1) {k : Nat} (hk : k ≤ s.pushed.length) :
    (s.sender.ack (initial.plus k)).2
        = s.sender.lossList.filter (fun p => p.label ∈ (labels initial s.pushed).take k) ∧
      (s.sender.ack (initial.plus k)).1.lossList
        = s.sender.lossList.filter (fun p => p.label ∉ (labels initial s.pushed).take k) := by
  have hmono := h.pairwise_lossList hinitial hlen hk
  have hiff : ∀ p ∈ s.sender.lossList,
      p.seq.lt (initial.plus k) = decide (p.label ∈ (labels initial s.pushed).take k) := by
    intro p hp
    rw [Bool.eq_iff_iff, decide_eq_true_iff]
    exact lt_iff_mem_take hinitial hlen hk (h.lossList_sublist.subset (List.mem_map_of_mem hp))
  constructor
  · exact (takeWhile_eq_filter hmono).trans (List.filter_congr hiff)
  · refine (dropWhile_eq_filter hmono).trans (List.filter_congr ?_)
    intro p hp
    rw [hiff p hp, decide_not]

/-- The counter is exact, because a sender cannot hold more than it was given. -/
theorem Inv.pktBuf_toNat (h : s.Inv initial) (hlen : s.pushed.length < 2 ^ 30 - 1) :
    s.sender.statistics.pktBuf.toNat
      = s.sender.packetList.length + s.sender.lossList.length := by
  have hheld := h.held.length_le
  rw [List.length_map, List.length_append] at hheld
  have hpushed : (labels initial s.pushed).length = s.pushed.length := List.length_mapIdx
  rw [h.pktBuf]
  exact UInt64.toNat_ofNat_of_lt' (by rw [UInt64.size]; omega)

/-- The invariant says where every pushed packet is. -/
theorem Inv.noLoss (h : s.Inv initial) (hinitial : initial.IsSequenceNumber)
    (hlen : s.pushed.length < 2 ^ 30 - 1) : s.NoLoss initial := by
  have hlabels := pushedLabels_eq (s := s) hinitial hlen
  have hmax := hinitial.max_toNat
  have hadd : ∀ k ≤ s.pushed.length, initial.add (UInt32.ofNat k) = initial.plus k :=
    fun k hk => hinitial.wf.add_eq (by omega)
  have hsorted : (labels initial s.pushed).Pairwise fun a b => a.1.lt b.1 = true :=
    pairwise_labels initial s.pushed (R := fun a b => a.lt b = true) fun i j hij hj =>
      (plus_lt_plus_of_length hinitial hlen (by omega) (by omega)).mpr hij
  exact
    { next := by rw [h.next, hadd _ (Nat.le_refl _)]
      distinct := by
        rw [hlabels, List.Nodup, List.pairwise_map]
        refine hsorted.imp fun {a b} hlt heq => ?_
        exact not_before_self b.1 (heq ▸ hlt)
      places := by
        rw [hlabels]
        exact h.places
      increasing := List.pairwise_map.mp (hsorted.sublist h.held)
      handedOver := by
        rw [hlabels]
        exact h.handedOver
      nak := by
        intro ns heven
        refine ⟨_, _, Sender.nak_of_even heven s.sender, ?_⟩
        intro p hp
        obtain ⟨q, hq, hpq⟩ := List.mem_flatMap.mp hp
        rw [List.eq_of_mem_replicate hpq]
        show q.label ∈ _
        exact h.kept.subset (List.mem_map_of_mem (List.mem_reverse.mp hq))
      ackQueue := fun _ => rfl
      ackLoss := by
        intro k hk
        rw [hlabels, hadd k hk]
        exact h.ackLoss hinitial hlen hk
      pktBuf := h.pktBuf_toNat hlen
      byteBuf := h.byteBuf
      byteBufExact := by
        intro hfits
        rw [h.byteBuf]
        exact UInt64.toNat_ofNat_of_lt' hfits }

end

/-- The sender loses no packet, in every run with fewer than `2 ^ 30 - 1` pushed packets, from
every initial sequence number and with any acknowledgements and loss reports from the peer. -/
theorem no_loss (config : SendConfig) (hinitial : config.initialSequenceNumber.IsSequenceNumber)
    (events : List Event) (s : Sending) (hrun : run step (init config) events = some s)
    (hlen : s.pushed.length < 2 ^ 30 - 1) : s.NoLoss config.initialSequenceNumber :=
  (run_inv hinitial.wf hrun).noLoss hinitial hlen

/-- Three packets over the wrap of the numbers. Two are handed over, one is reported as
lost, and the first one is acknowledged. -/
def sampleRun : List Event :=
  let pkt (payload : Bytes) (pktTsbpdTime : UInt64) : Packet :=
    let p := newPacket none
    { header := { p.header with pktTsbpdTime := pktTsbpdTime }, payload := payload }
  [.push (pkt [1] 10), .push (pkt [2, 2] 20), .push (pkt [3, 3, 3] 30), .tick 25,
   .nak [Number.new 0x7FFFFFFF maxSequenceNumber, Number.new 0x7FFFFFFF maxSequenceNumber],
   .ack (Number.new 0x7FFFFFFF maxSequenceNumber), .setDropThreshold 500, .tick 26]

def sampleConfig : SendConfig where
  initialSequenceNumber := Number.new 0x7FFFFFFE maxSequenceNumber
  dropThreshold := 1000

def sampleEnd : Sending := runD step (init sampleConfig) sampleRun

/-- Each of the three packets is in one of the places. -/
theorem no_loss_sampleEnd :
    sampleEnd.acked.map Packet.payload = [[1]] ∧
    sampleEnd.sender.lossList.map Packet.payload = [[2, 2]] ∧
    sampleEnd.sender.packetList.map Packet.payload = [[3, 3, 3]] ∧
    sampleEnd.NoLoss sampleConfig.initialSequenceNumber :=
  ⟨by decide +kernel, by decide +kernel, by decide +kernel,
    no_loss sampleConfig (by decide) sampleRun sampleEnd (run_eq_some_runD (by decide +kernel))
      (by decide +kernel)⟩

end Sending

end Gosrt
