import Gosrt.Spec.Live.Send
import Mathlib.Data.List.TakeWhile

/-!
# `Gosrt.Proofs.Live.Send`: what the live sender holds and hands over

A sender holds packets in two lists. Only `Push` puts a new packet in, under the next
sequence number. Every other operation moves packets, removes them, or marks them as
retransmitted, and what it hands over is a packet that it holds.

`Holds P s` says that the label of each packet in `s` satisfies `P`. The label is the
sequence number and the payload, and no operation changes it. So `Holds P` is an invariant
of every operation but `Push`, and each packet handed over satisfies `P` too.
-/

set_option autoImplicit false

namespace Gosrt

namespace Sender

/-- The label of each packet that the sender holds satisfies `P`. -/
structure Holds (P : Number × Bytes → Prop) (s : Sender) : Prop where
  queued : ∀ p ∈ s.packetList, P p.label
  sent : ∀ p ∈ s.lossList, P p.label

theorem holds_newSender (P : Number × Bytes → Prop) (config : SendConfig) :
    Holds P (newSender config) where
  queued := by
    intro p hp
    cases hp
  sent := by
    intro p hp
    cases hp

section
variable {P : Number × Bytes → Prop} {s : Sender}

theorem Holds.imp {Q : Number × Bytes → Prop} (h : s.Holds P) (hPQ : ∀ l, P l → Q l) :
    s.Holds Q where
  queued := fun p hp => hPQ _ (h.queued p hp)
  sent := fun p hp => hPQ _ (h.sent p hp)

/-! ### `Push` -/

/-- `Push` queues the packet under the next sequence number. The probe changes its time
only. -/
theorem push_packetList (s : Sender) (p : Packet) :
    ∃ q, (s.push p).packetList = s.packetList ++ [q] ∧
      q.label = (s.nextSequenceNumber, p.payload) := by
  unfold push
  dsimp only
  split
  · exact ⟨_, rfl, rfl⟩
  · exact ⟨_, rfl, rfl⟩

theorem Holds.push (h : s.Holds P) (p : Packet) (hp : P (s.nextSequenceNumber, p.payload)) :
    (s.push p).Holds P where
  queued := by
    intro q hq
    obtain ⟨q', hlist, hlabel⟩ := push_packetList s p
    rw [hlist] at hq
    rcases List.mem_append.mp hq with hq | hq
    · exact h.queued q hq
    · rw [List.mem_singleton.mp hq, hlabel]
      exact hp
  sent := h.sent

/-! ### `Tick` -/

/-- What `Tick` hands over was queued. -/
theorem mem_of_mem_tickDeliver {now : UInt64} {p : Packet} (hp : p ∈ (s.tickDeliver now).2) :
    p ∈ s.packetList :=
  (List.takeWhile_sublist _).subset hp

theorem Holds.tickDeliver (h : s.Holds P) (now : UInt64) : (s.tickDeliver now).1.Holds P where
  queued := fun p hp => h.queued p ((List.dropWhile_sublist _).subset hp)
  sent := by
    intro p hp
    rcases List.mem_append.mp hp with hp | hp
    · exact h.sent p hp
    · exact h.queued p (mem_of_mem_tickDeliver hp)

theorem Holds.tickDrop (h : s.Holds P) (now : UInt64) : (s.tickDrop now).1.Holds P where
  queued := h.queued
  sent := fun p hp => h.sent p (List.mem_filter.mp hp).1

/-- The rate part of `Tick` leaves the lists and the next number alone. -/
theorem tickRate_eq (s : Sender) (now : UInt64) :
    (s.tickRate now).packetList = s.packetList ∧ (s.tickRate now).lossList = s.lossList ∧
      (s.tickRate now).nextSequenceNumber = s.nextSequenceNumber := by
  unfold tickRate
  split
  · exact ⟨rfl, rfl, rfl⟩
  · exact ⟨rfl, rfl, rfl⟩

theorem Holds.tickRate (h : s.Holds P) (now : UInt64) : (s.tickRate now).Holds P := by
  obtain ⟨hqueued, hsent, -⟩ := tickRate_eq s now
  exact ⟨by rw [hqueued]; exact h.queued, by rw [hsent]; exact h.sent⟩

/-! ### `ACK` -/

/-- What `ACK` removes was in the loss list and is before the acknowledged number. -/
theorem mem_ack {n : Number} {p : Packet} (hp : p ∈ (s.ack n).2) :
    p ∈ s.lossList ∧ p.seq.lt n = true :=
  ⟨(List.takeWhile_sublist _).subset hp,
    List.mem_takeWhile_imp (p := fun q : Packet => q.seq.lt n) hp⟩

theorem Holds.ack (h : s.Holds P) (n : Number) : (s.ack n).1.Holds P where
  queued := h.queued
  sent := fun p hp => h.sent p ((List.dropWhile_sublist _).subset hp)

/-! ### `NAK` -/

/-- The loop of `NAK`: each packet that stays and each packet handed over has the label of
a packet of the list. -/
theorem nakLoop_label {ns : List Number} :
    ∀ {ps ps' sent : List Packet}, nakLoop ns ps = some (ps', sent) →
      ∀ p, p ∈ ps' ∨ p ∈ sent → ∃ q ∈ ps, p.label = q.label := by
  intro ps
  induction ps with
  | nil =>
    intro ps' sent h p hp
    cases h
    simp at hp
  | cons x rest ih =>
    intro ps' sent h p hp
    simp only [nakLoop, Option.bind_eq_bind, Option.bind_eq_some_iff, Option.pure_def,
      Option.some.injEq, Prod.mk.injEq] at h
    obtain ⟨⟨rest', sent'⟩, hloop, hits, -, rfl, rfl⟩ := h
    -- A new packet of this round is `x`, with the flag or without.
    have hround : p.label = x.label ∨ p ∈ rest' ∨ p ∈ sent' := by
      rcases hp with hp | hp
      · rcases List.mem_cons.mp hp with rfl | hp
        · left
          split <;> rfl
        · exact Or.inr (Or.inl hp)
      · rcases List.mem_append.mp hp with hp | hp
        · exact Or.inr (Or.inr hp)
        · rw [List.eq_of_mem_replicate hp]
          exact Or.inl rfl
    rcases hround with he | hp
    · exact ⟨x, by simp, he⟩
    · obtain ⟨q, hq, he⟩ := ih hloop p hp
      exact ⟨q, by simp [hq], he⟩

/-- The counters of `NAK` leave the queue, the next number and the counters of the buffer
alone. -/
theorem foldl_countRetrans (s : Sender) (ps : List Packet) :
    (ps.foldl countRetrans s).packetList = s.packetList ∧
      (ps.foldl countRetrans s).nextSequenceNumber = s.nextSequenceNumber ∧
      (ps.foldl countRetrans s).statistics.pktBuf = s.statistics.pktBuf ∧
      (ps.foldl countRetrans s).statistics.byteBuf = s.statistics.byteBuf := by
  induction ps generalizing s with
  | nil => exact ⟨rfl, rfl, rfl, rfl⟩
  | cons p rest ih => exact ih (s.countRetrans p)

/-- What `NAK` does: the queue and the next number stay, and each packet that it keeps in
the loss list or hands over has the label of a packet of the loss list. -/
theorem nak_spec {ns : List Number} {s' : Sender} {sent : List Packet}
    (h : s.nak ns = some (s', sent)) :
    s'.packetList = s.packetList ∧ s'.nextSequenceNumber = s.nextSequenceNumber ∧
      ∀ p, p ∈ s'.lossList ∨ p ∈ sent → ∃ q ∈ s.lossList, p.label = q.label := by
  unfold nak at h
  split at h
  · cases h
    refine ⟨rfl, rfl, ?_⟩
    intro p hp
    rcases hp with hp | hp
    · exact ⟨p, hp, rfl⟩
    · cases hp
  · simp only [Option.bind_eq_bind, Option.bind_eq_some_iff, Option.pure_def,
      Option.some.injEq, Prod.mk.injEq] at h
    obtain ⟨⟨lossList, sent'⟩, hloop, rfl, rfl⟩ := h
    obtain ⟨hqueue, hnext, -⟩ := foldl_countRetrans s sent'
    exact ⟨hqueue, hnext, nakLoop_label hloop⟩

/-- How many of the ranges contain the number. -/
def rangeHits (seq : Number) : List Number → Nat
  | lo :: hi :: rest => rangeHits seq rest + if seq.gte lo && seq.lte hi then 1 else 0
  | _ => 0

/-- The packet as `NAK` leaves it in the loss list. -/
def flagged (ns : List Number) (p : Packet) : Packet :=
  if rangeHits p.seq ns = 0 then p else retransmitted p

@[simp] theorem flagged_label (ns : List Number) (p : Packet) :
    (flagged ns p).label = p.label := by
  unfold flagged
  split
  · rfl
  · rfl

/-- What `NAK` hands over: from the back of the list on, each packet once for each range that
contains its number. -/
def resent (ns : List Number) (ps : List Packet) : List Packet :=
  ps.reverse.flatMap fun p => List.replicate (rangeHits p.seq ns) (retransmitted p)

/-- On pairs of numbers the inner loop of `NAK` does not panic. -/
theorem nakHits_of_even (seq : Number) (ns : List Number) (heven : ns.length % 2 = 0) :
    nakHits seq ns = some (rangeHits seq ns) := by
  induction ns using rangeHits.induct with
  | case1 lo hi rest ih =>
    rw [List.length_cons, List.length_cons] at heven
    unfold nakHits rangeHits
    rw [ih (by omega)]
    show some _ = some _
    split
    · rfl
    · rfl
  | case2 ns hshape =>
    match ns, hshape with
    | [], _ => rfl
    | [_], _ => cases heven
    | lo :: hi :: rest, hshape => exact absurd rfl (hshape lo hi rest)

/-- A list of pairs flags and sends the packets it covers. -/
theorem nakLoop_of_even {ns : List Number} (heven : ns.length % 2 = 0) (ps : List Packet) :
    nakLoop ns ps = some (ps.map (flagged ns), resent ns ps) := by
  induction ps with
  | nil => rfl
  | cons p rest ih =>
    unfold nakLoop
    rw [ih, nakHits_of_even p.seq ns heven]
    show some (_, _) = some (_, _)
    unfold resent flagged
    rw [List.reverse_cons, List.flatMap_append, List.flatMap_singleton]
    rfl

/-- `NAK` of pairs of numbers. -/
theorem nak_of_even {ns : List Number} (heven : ns.length % 2 = 0) (s : Sender) :
    s.nak ns = some ({ (resent ns s.lossList).foldl countRetrans s with
      lossList := s.lossList.map (flagged ns) }, resent ns s.lossList) := by
  unfold nak
  by_cases hempty : ns = []
  · subst hempty
    have hmap : s.lossList.map (flagged []) = s.lossList := List.map_id _
    have hsent : resent [] s.lossList = [] := by
      unfold resent
      exact List.flatMap_eq_nil_iff.mpr fun _ _ => rfl
    rw [hmap, hsent]
    rfl
  · rw [if_neg (by simpa using hempty), nakLoop_of_even heven]
    rfl

theorem Holds.nak (h : s.Holds P) {ns : List Number} {s' : Sender} {sent : List Packet}
    (hn : s.nak ns = some (s', sent)) : s'.Holds P ∧ ∀ p ∈ sent, P p.label := by
  obtain ⟨hqueue, -, hlabel⟩ := nak_spec hn
  refine ⟨⟨by rw [hqueue]; exact h.queued, ?_⟩, ?_⟩
  · intro p hp
    obtain ⟨q, hq, he⟩ := hlabel p (Or.inl hp)
    rw [he]
    exact h.sent q hq
  · intro p hp
    obtain ⟨q, hq, he⟩ := hlabel p (Or.inr hp)
    rw [he]
    exact h.sent q hq

end

end Sender

end Gosrt
