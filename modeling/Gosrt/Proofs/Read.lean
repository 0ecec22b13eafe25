import Gosrt.Spec.ReadWrite

/-!
# `Gosrt.Proofs.Read`: what `Read` makes of the packets

`Intact` is the invariant: the packets that were taken and those in the queue are the ones that were
delivered, and the bytes that were returned and those in the buffer are the payloads of the packets
that were taken. It is lost where a packet finds no room or is out of order. The end of the stream
is also reported for a packet without a payload, because the buffer is at its end then.
`streams_iff` says that these are all the ways to break the stream.

`ReadCase` are the outcomes of `Read`. The rest of the module goes through them.
-/

set_option autoImplicit false

namespace Gosrt

open Lib

namespace ReadSide

/-- What a `Read` that does not wait does. -/
inductive ReadCase (c : ReadSide) (n : Nat) (fromQueue : Bool) : ReadSide → Go Bytes → Prop where
  /-- There are bytes of an earlier packet. -/
  | buffered (hbuffer : c.readBuffer ≠ []) :
      ReadCase c n fromQueue { c with readBuffer := c.readBuffer.drop n }
        (.ok (c.readBuffer.take n))
  | closed (hdone : c.done = true) (hbuffer : c.readBuffer = [])
      (hnext : Reading.next c fromQueue = none) : ReadCase c n fromQueue c (.error eof)
  | outOfOrder (p : Packet) (queue : List Packet) (hqueue : c.readQueue = p :: queue)
      (hnext : Reading.next c fromQueue = some p)
      (hlt : p.seq.lt c.expectedReadPacketSequenceNumber = true) (hbuffer : c.readBuffer = []) :
      ReadCase c n fromQueue { c with readQueue := queue } (.error eof)
  | handed (p : Packet) (queue : List Packet) (hqueue : c.readQueue = p :: queue)
      (hnext : Reading.next c fromQueue = some p)
      (hlt : p.seq.lt c.expectedReadPacketSequenceNumber = false)
      (hpayload : p.payload ≠ [] ∨ n = 0) :
      ReadCase c n fromQueue
        { c with
          readQueue := queue
          readBuffer := p.payload.drop n
          expectedReadPacketSequenceNumber := p.seq.inc }
        (.ok (p.payload.take n))
  /-- The buffer is at its end, as the packet brought nothing. -/
  | empty (p : Packet) (queue : List Packet) (hqueue : c.readQueue = p :: queue)
      (hnext : Reading.next c fromQueue = some p)
      (hlt : p.seq.lt c.expectedReadPacketSequenceNumber = false) (hpayload : p.payload = [])
      (hn : n ≠ 0) :
      ReadCase c n fromQueue
        { c with
          readQueue := queue
          readBuffer := []
          expectedReadPacketSequenceNumber := p.seq.inc }
        (.error eof)

theorem readBytes_ok (c : ReadSide) {n : Nat} (h : c.readBuffer ≠ [] ∨ n = 0) :
    c.readBytes n
      = ({ c with readBuffer := c.readBuffer.drop n }, .ok (c.readBuffer.take n)) := by
  unfold readBytes
  rcases h with hne | rfl
  · rw [Buffer.read_of_ne_nil n hne]
  · rw [Buffer.read_zero, List.drop_zero, List.take_zero]

theorem readBytes_nil (c : ReadSide) {n : Nat} (h : c.readBuffer = []) (hn : n ≠ 0) :
    c.readBytes n = (c, .error eof) := by
  unfold readBytes
  rw [h, Buffer.read_nil hn]

/-- `ReadPacket` with an empty buffer: the connection is closed, or the first packet of the queue is
taken. -/
theorem readPacket_cases {c c' : ReadSide} {fromQueue : Bool} {result : Go Packet}
    (hbuffer : c.readBuffer = []) (h : c.readPacket fromQueue = some (c', result)) :
    (c.done = true ∧ Reading.next c fromQueue = none ∧ (c', result) = (c, .error eof)) ∨
      ∃ p queue, c.readQueue = p :: queue ∧ Reading.next c fromQueue = some p ∧
        { c with readQueue := queue }.takePacket p = (c', result) := by
  unfold readPacket at h
  cases hqueue : c.readQueue with
  | nil =>
    rw [hqueue] at h
    dsimp only at h
    split at h
    · rename_i hdone
      have hnext : Reading.next c fromQueue = none := by
        unfold Reading.next
        rw [hqueue]
        split <;> rfl
      exact Or.inl ⟨hdone, hnext, (Option.some.inj h).symm⟩
    · cases h
  | cons p queue =>
    rw [hqueue] at h
    dsimp only at h
    split at h
    · -- `select` takes the closed context although there is a packet.
      rename_i hclosed
      have hnext : Reading.next c fromQueue = none :=
        if_neg fun hopen => absurd hclosed (Bool.eq_false_iff.mp hopen.2)
      exact Or.inl ⟨(Bool.and_eq_true_iff.mp hclosed).1, hnext, (Option.some.inj h).symm⟩
    · rename_i hopen
      have hnext : Reading.next c fromQueue = some p := by
        unfold Reading.next
        rw [if_pos ⟨hbuffer, Bool.eq_false_iff.mpr hopen⟩, hqueue]
        rfl
      exact Or.inr ⟨p, queue, rfl, hnext, Option.some.inj h⟩

/-- Every `Read` is one of these cases. -/
theorem read_cases {c c' : ReadSide} {n : Nat} {fromQueue : Bool} {result : Go Bytes}
    (h : c.read n fromQueue = some (c', result)) : ReadCase c n fromQueue c' result := by
  unfold read at h
  by_cases hbuffer : c.readBuffer = []
  · rw [if_neg (by rw [hbuffer]; decide)] at h
    obtain ⟨⟨c₁, r⟩, hpacket, h⟩ := Option.bind_eq_some_iff.mp h
    rcases readPacket_cases hbuffer hpacket with
      ⟨hdone, hnext, heq⟩ | ⟨p, queue, hqueue, hnext, htake⟩
    · cases heq
      cases h
      exact .closed hdone hbuffer hnext
    · unfold takePacket at htake
      dsimp only at htake
      split at htake
      · rename_i hlt
        cases htake
        cases h
        exact .outOfOrder p queue hqueue hnext hlt hbuffer
      · rename_i hlt
        cases htake
        have hlt := Bool.eq_false_iff.mpr hlt
        have hread := Option.some.inj h
        -- The payload is now in the buffer, which may still be empty.
        by_cases hpayload : p.payload ≠ [] ∨ n = 0
        · rw [readBytes_ok _ hpayload] at hread
          cases hread
          exact .handed p queue hqueue hnext hlt hpayload
        · obtain ⟨hempty, hn⟩ := not_or.mp hpayload
          have hempty := not_not.mp hempty
          rw [hempty, readBytes_nil _ rfl hn] at hread
          cases hread
          exact .empty p queue hqueue hnext hlt hempty hn
  · rw [if_pos (by rw [ne_eq, List.length_eq_zero_iff]; exact hbuffer),
      readBytes_ok c (Or.inl hbuffer)] at h
    cases h
    exact .buffered hbuffer

end ReadSide

namespace Reading

theorem payloads_append (ps qs : List Packet) :
    payloads (ps ++ qs) = payloads ps ++ payloads qs := by
  unfold payloads
  rw [List.map_append, List.flatten_append]

theorem payloads_singleton (p : Packet) : payloads [p] = p.payload :=
  List.flatten_singleton

/-- The prefix is a consequence of the two equations. -/
theorem intact_of {s : Reading} (packets : s.taken ++ s.conn.readQueue = s.delivered)
    (bytes : s.returned ++ s.conn.readBuffer = payloads s.taken) : s.Intact := by
  refine ⟨packets, bytes, ?_⟩
  rw [← packets, payloads_append, ← bytes, List.append_assoc]
  exact List.prefix_append _ _

theorem intact_init (initial : Number) : (init initial).Intact := intact_of rfl rfl

/-- The state after a `Read`. -/
def afterRead (s : Reading) (conn : ReadSide) (result : Go Bytes) : Reading where
  conn := conn
  delivered := s.delivered
  taken := s.taken ++ removed s.conn conn
  returned := s.returned ++ result.toOption.getD []

theorem step_read {s s' : Reading} {n : Nat} {fromQueue : Bool} :
    step s (.read n fromQueue) = some s' ↔
      ∃ conn result, s.conn.read n fromQueue = some (conn, result) ∧
        s' = afterRead s conn result := by
  unfold step
  rw [Option.bind_eq_bind, Option.bind_eq_some_iff]
  constructor
  · rintro ⟨⟨conn, result⟩, hread, hs'⟩
    cases hs'
    exact ⟨conn, result, hread, rfl⟩
  · rintro ⟨conn, result, hread, rfl⟩
    exact ⟨(conn, result), hread, rfl⟩

theorem step_deliver {s s' : Reading} {p : Packet} :
    step s (.deliver p) = some s' ↔
      s.conn.done = false ∧
        s' = { s with conn := s.conn.deliver p, delivered := s.delivered ++ [p] } := by
  unfold step
  cases s.conn.done with
  | true => exact ⟨nofun, nofun⟩
  | false => simp [eq_comm]

section
variable {s : Reading}

/-- Where nothing is taken from the queue, nothing is removed. -/
theorem removed_same {before after : ReadSide} (h : after.readQueue = before.readQueue) :
    removed before after = [] := by
  unfold removed
  rw [h, Nat.sub_self, List.take_zero]

theorem removed_head {before after : ReadSide} {p : Packet} {queue : List Packet}
    (hbefore : before.readQueue = p :: queue) (hafter : after.readQueue = queue) :
    removed before after = [p] := by
  unfold removed
  rw [hbefore, hafter, List.length_cons, Nat.add_sub_cancel_left]
  rfl

/-- A `Read` that leaves the queue alone takes from the buffer what it returns. -/
theorem intact_kept (h : s.Intact) {conn : ReadSide} {result : Go Bytes}
    (hconn : conn.readQueue = s.conn.readQueue)
    (hbytes : result.toOption.getD [] ++ conn.readBuffer = s.conn.readBuffer) :
    (afterRead s conn result).Intact := by
  have htaken : (afterRead s conn result).taken = s.taken := by
    show s.taken ++ removed s.conn conn = s.taken
    rw [removed_same hconn, List.append_nil]
  refine intact_of ?_ ?_
  · rw [htaken]
    show s.taken ++ conn.readQueue = s.delivered
    rw [hconn]
    exact h.packets
  · rw [htaken]
    show (s.returned ++ result.toOption.getD []) ++ conn.readBuffer = payloads s.taken
    rw [List.append_assoc, hbytes]
    exact h.bytes

/-- A `Read` that takes a packet: what it returns and what it leaves in the buffer are the payload
of the packet. -/
theorem intact_taken_iff (h : s.Intact) {p : Packet} {queue : List Packet} {conn : ReadSide}
    {result : Go Bytes} (hqueue : s.conn.readQueue = p :: queue) (hbuffer : s.conn.readBuffer = [])
    (hconn : conn.readQueue = queue) :
    (afterRead s conn result).Intact ↔
      result.toOption.getD [] ++ conn.readBuffer = p.payload := by
  have hpackets : (s.taken ++ removed s.conn conn) ++ conn.readQueue = s.delivered := by
    rw [removed_head hqueue hconn, hconn, List.append_assoc, List.singleton_append, ← hqueue]
    exact h.packets
  have hbytes := h.bytes
  rw [hbuffer, List.append_nil] at hbytes
  have hiff : (s.returned ++ result.toOption.getD []) ++ conn.readBuffer
      = payloads (s.taken ++ removed s.conn conn) ↔
      result.toOption.getD [] ++ conn.readBuffer = p.payload := by
    rw [removed_head hqueue hconn, payloads_append, payloads_singleton, hbytes, List.append_assoc,
      List.append_right_inj]
  exact ⟨fun h' => hiff.mp h'.bytes, fun h' => intact_of hpackets (hiff.mpr h')⟩

/-- A packet is taken from a non-empty queue, with nothing in the buffer. -/
theorem readBuffer_of_next {c : ReadSide} {fromQueue : Bool} {p : Packet}
    (h : next c fromQueue = some p) : c.readBuffer = [] := by
  unfold next at h
  split at h
  · rename_i hopen
    exact hopen.1
  · cases h

/-- Such a `Read` does not wait. -/
theorem read_isSome_of_next {c : ReadSide} {fromQueue : Bool} {p : Packet}
    (h : next c fromQueue = some p) (n : Nat) : (c.read n fromQueue).isSome = true := by
  have hbuffer := readBuffer_of_next h
  unfold next at h
  split at h
  · rename_i hopen
    unfold ReadSide.read ReadSide.readPacket
    rw [if_neg (by rw [hbuffer]; decide)]
    cases hqueue : c.readQueue with
    | nil =>
      rw [hqueue] at h
      cases h
    | cons q queue =>
      dsimp only
      rw [if_neg (by rw [hopen.2]; decide)]
      generalize ReadSide.takePacket { c with readQueue := queue } q = out
      obtain ⟨c', result⟩ := out
      cases result with
      | error e => rfl
      | ok p => rfl
  · cases h

/-- What there is to show for a `Read` that happens. -/
theorem streams_read_iff {n : Nat} {fromQueue : Bool} {conn : ReadSide} {result : Go Bytes}
    (hread : s.conn.read n fromQueue = some (conn, result)) :
    Streams s (.read n fromQueue) ↔
      (afterRead s conn result).Intact ∧ ∀ e, result = .error e → s.conn.done = true := by
  unfold Streams EndsWhenDone
  constructor
  · rintro ⟨hintact, hends⟩
    refine ⟨hintact _ (step_read.mpr ⟨conn, result, hread, rfl⟩), ?_⟩
    rintro e rfl
    exact hends conn e hread
  · rintro ⟨hintact, hends⟩
    refine ⟨?_, ?_⟩
    · rintro s' hs'
      obtain ⟨conn', result', hread', rfl⟩ := step_read.mp hs'
      rw [hread] at hread'
      cases hread'
      exact hintact
    · rintro conn' e hread'
      rw [hread] at hread'
      cases hread'
      exact hends e rfl

/-- A `Read` in an intact stream. -/
theorem streams_iff_smooth_read (h : s.Intact) (n : Nat) (fromQueue : Bool) :
    Streams s (.read n fromQueue) ↔ Smooth s (.read n fromQueue) := by
  cases hread : s.conn.read n fromQueue with
  | none =>
    -- The call waits, so there is no packet for it.
    constructor
    · intro _ p hnext
      have hsome := read_isSome_of_next hnext n
      rw [hread] at hsome
      cases hsome
    · intro _
      refine ⟨fun s' hs' => ?_, fun conn e hsome => ?_⟩
      · obtain ⟨conn, result, hsome, -⟩ := step_read.mp hs'
        rw [hread] at hsome
        cases hsome
      · rw [hread] at hsome
        cases hsome
  | some out =>
    obtain ⟨conn, result⟩ := out
    rw [streams_read_iff hread]
    unfold Smooth
    dsimp only
    cases ReadSide.read_cases hread with
    | buffered hbuffer =>
      have hnext : next s.conn fromQueue = none := if_neg fun hopen => hbuffer hopen.1
      rw [hnext]
      refine ⟨fun _ p hp => (Option.some_ne_none p hp.symm).elim, fun _ => ⟨?_, nofun⟩⟩
      exact intact_kept h rfl (List.take_append_drop n s.conn.readBuffer)
    | closed hdone hbuffer hnext =>
      rw [hnext]
      refine ⟨fun _ p hp => (Option.some_ne_none p hp.symm).elim, fun _ => ⟨?_, fun _ _ => hdone⟩⟩
      exact intact_kept h rfl (List.nil_append _)
    | outOfOrder p queue hqueue hnext hlt hbuffer =>
      rw [intact_taken_iff h hqueue hbuffer rfl, hnext]
      simp only [Option.some.injEq, forall_eq', hlt, Bool.true_eq_false, false_or]
      show [] ++ s.conn.readBuffer = p.payload ∧ _ ↔ _
      rw [hbuffer, List.append_nil]
      constructor
      · rintro ⟨hempty, hdone⟩
        exact ⟨⟨hempty.symm, hdone eof rfl⟩, Or.inr (Or.inl (hdone eof rfl))⟩
      · rintro ⟨⟨hempty, hdone⟩, -⟩
        exact ⟨hempty.symm, fun _ _ => hdone⟩
    | handed p queue hqueue hnext hlt hpayload =>
      rw [intact_taken_iff h hqueue (readBuffer_of_next hnext) rfl, hnext]
      simp only [Option.some.injEq, forall_eq', hlt, true_or, true_and]
      refine ⟨fun _ => hpayload.imp_right Or.inr, fun _ => ⟨?_, nofun⟩⟩
      exact List.take_append_drop n p.payload
    | empty p queue hqueue hnext hlt hpayload hn =>
      rw [intact_taken_iff h hqueue (readBuffer_of_next hnext) rfl, hnext]
      simp only [Option.some.injEq, forall_eq', hlt, true_or, true_and]
      constructor
      · rintro ⟨-, hdone⟩
        exact Or.inr (Or.inl (hdone eof rfl))
      · intro hdone
        refine ⟨hpayload.symm, fun _ _ => ?_⟩
        exact (hdone.resolve_left (not_not.mpr hpayload)).resolve_right hn

/-- A delivery to an intact stream: the packet comes to the end of the queue exactly if there is
room. -/
theorem streams_iff_smooth_deliver (h : s.Intact) (p : Packet) :
    Streams s (.deliver p) ↔ Smooth s (.deliver p) := by
  unfold Streams Smooth HasRoom EndsWhenDone
  simp only [step_deliver, and_true]
  constructor
  · intro hintact hopen
    by_contra hfull
    -- The queue is as it was, but there is one packet more that was delivered.
    have hpackets := (hintact _ ⟨hopen, rfl⟩).packets
    unfold ReadSide.deliver at hpackets
    rw [if_neg hfull, h.packets] at hpackets
    have hlen := congrArg List.length hpackets
    simp at hlen
  · rintro hroom s' ⟨hopen, rfl⟩
    refine intact_of ?_ ?_
    · unfold ReadSide.deliver
      rw [if_pos (hroom hopen), ← h.packets, List.append_assoc]
    · unfold ReadSide.deliver
      rw [if_pos (hroom hopen)]
      exact h.bytes

/-- An event keeps an intact stream exactly if it is smooth. -/
theorem streams_iff_smooth (h : s.Intact) (e : Event) : Streams s e ↔ Smooth s e := by
  cases e with
  | deliver p => exact streams_iff_smooth_deliver h p
  | read n fromQueue => exact streams_iff_smooth_read h n fromQueue
  | close =>
    refine ⟨fun _ => trivial, fun _ => ⟨fun s' hs' => ?_, trivial⟩⟩
    cases hs'
    exact intact_of h.packets h.bytes

end

/-! ### Deliveries in order -/

/-- The packets of a queue are in order, and after them `last` is expected. -/
def Follows : Number → List Packet → Number → Prop
  | expected, [], last => expected = last
  | expected, p :: ps, last => p.seq.lt expected = false ∧ Follows p.seq.inc ps last

theorem Follows.append {expected last : Number} {ps : List Packet} {p : Packet}
    (h : Follows expected ps last) (hp : p.seq.lt last = false) :
    Follows expected (ps ++ [p]) p.seq.inc := by
  induction ps generalizing expected with
  | nil =>
    cases h
    exact ⟨hp, rfl⟩
  | cons q ps ih => exact ⟨h.1, ih h.2⟩

/-- The queue is in order, from the number that `ReadPacket` expects. -/
def Queued (c : ReadSide) (last : Number) : Prop :=
  Follows c.expectedReadPacketSequenceNumber c.readQueue last

/-- The packet that is taken is not before the expected one. -/
theorem Queued.next {c : ReadSide} {last : Number} {fromQueue : Bool} {p : Packet}
    (h : Queued c last) (hnext : Reading.next c fromQueue = some p) :
    p.seq.lt c.expectedReadPacketSequenceNumber = false := by
  unfold Reading.next at hnext
  split at hnext
  · unfold Queued at h
    cases hqueue : c.readQueue with
    | nil =>
      rw [hqueue] at hnext
      cases hnext
    | cons q queue =>
      rw [hqueue] at h hnext
      cases hnext
      exact h.1
  · cases hnext

theorem Queued.read {c c' : ReadSide} {n : Nat} {fromQueue : Bool} {result : Go Bytes}
    {last : Number} (h : Queued c last) (hread : c.read n fromQueue = some (c', result)) :
    Queued c' last := by
  cases ReadSide.read_cases hread with
  | buffered hbuffer => exact h
  | closed hdone hbuffer hnext => exact h
  | outOfOrder p queue hqueue hnext hlt hbuffer =>
    have hin := h.next hnext
    rw [hlt] at hin
    cases hin
  | handed p queue hqueue hnext hlt hpayload =>
    unfold Queued at h
    rw [hqueue] at h
    exact h.2
  | empty p queue hqueue hnext hlt hpayload hn =>
    unfold Queued at h
    rw [hqueue] at h
    exact h.2

/-- With deliveries in order no packet is before the expected one. -/
theorem smooth_iff_filled {s : Reading} {expected : Number} {events : List Event}
    (h : Queued s.conn expected) (horder : InOrder expected events) :
    RunMeets step Smooth s events ↔ RunMeets step Filled s events := by
  induction events generalizing s expected with
  | nil => exact Iff.rfl
  | cons e events ih =>
    unfold RunMeets
    cases e with
    | deliver p =>
      obtain ⟨hp, horder⟩ := horder
      refine and_congr_right fun hroom => forall_congr' fun s' => forall_congr' fun hs' => ?_
      obtain ⟨hopen, rfl⟩ := step_deliver.mp hs'
      refine ih ?_ horder
      show Queued (s.conn.deliver p) p.seq.inc
      unfold ReadSide.deliver
      rw [if_pos (hroom hopen)]
      exact Follows.append h hp
    | read n fromQueue =>
      have hiff : Smooth s (.read n fromQueue) ↔ Filled s (.read n fromQueue) := by
        unfold Smooth Filled
        refine forall_congr' fun p => forall_congr' fun hnext => ?_
        exact and_iff_right (Or.inl (h.next hnext))
      rw [hiff]
      refine and_congr_right fun _ => forall_congr' fun s' => forall_congr' fun hs' => ?_
      obtain ⟨conn, result, hread, rfl⟩ := step_read.mp hs'
      exact ih (h.read hread) horder
    | close =>
      refine and_congr_right fun _ => forall_congr' fun s' => forall_congr' fun hs' => ?_
      cases hs'
      exact ih h horder

/-- The stream of a connection is right in exactly the runs in which each packet finds room, and
each packet that is taken from an open connection is not before the expected one and has a payload.
If the packets are delivered in order, only the room and the payload are left. -/
theorem streams_iff (initial : Number) (events : List Event) :
    (RunMeets step Streams (init initial) events ↔ RunMeets step Smooth (init initial) events) ∧
    (InOrder initial events →
      (RunMeets step Streams (init initial) events ↔
        RunMeets step Filled (init initial) events)) := by
  have hiff : RunMeets step Streams (init initial) events ↔
      RunMeets step Smooth (init initial) events :=
    runMeets_congr_of Intact (fun s e _ h => streams_iff_smooth h e)
      (fun s e s' _ hstreams _ hs' => hstreams.1 s' hs') (runMeets_true _ _ events)
      (intact_init initial)
  exact ⟨hiff, fun horder => hiff.trans (smooth_iff_filled rfl horder)⟩

/-- A data packet of the sample. -/
def samplePacket (number : UInt32) (payload : Bytes) : Packet :=
  let p := newPacket none
  { header := { p.header with packetSequenceNumber := Number.new number maxSequenceNumber }
    payload := payload }

/-- Two packets are delivered in order, and the first one has no payload. -/
def emptyFirst : List Event :=
  [.deliver (samplePacket 1 []), .deliver (samplePacket 2 [5]), .read 8 true]

/-- The first `Read` on the open connection reports the end of the stream. -/
theorem emptyFirst_ends :
    InOrder (Number.new 1 maxSequenceNumber) emptyFirst ∧
      (runD step (init (Number.new 1 maxSequenceNumber)) (emptyFirst.take 2)).conn.done = false ∧
      ((runD step (init (Number.new 1 maxSequenceNumber)) (emptyFirst.take 2)).conn.read 8
        true).map (·.2) = some (.error eof) ∧
      ¬RunMeets step Streams (init (Number.new 1 maxSequenceNumber)) emptyFirst := by
  have horder : InOrder (Number.new 1 maxSequenceNumber) emptyFirst :=
    ⟨by decide, by decide, trivial⟩
  refine ⟨horder, by decide, by decide, fun h => ?_⟩
  have hread := ((h.2 _ rfl).2 _ rfl).1
  exact absurd (hread.2 _ _ rfl) (by decide)

end Reading

end Gosrt
