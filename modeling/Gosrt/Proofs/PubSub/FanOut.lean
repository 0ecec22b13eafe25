import Gosrt.Lib.Fifo
import Gosrt.Proofs.PubSub.Steps

/-!
# `Gosrt.Proofs.PubSub.FanOut`: what each subscriber gets

Seen from one subscriber, the service is a queue that can lose packets (`Lib.Fifo`): a packet goes
through the incoming queue, the broadcast loop and the queue of the subscriber, and each step of the
service is a step of that queue or none at all (`StepCase.view`). What the other subscribers do is
none. So the packets that a subscriber writes are in order, and without a full queue none is missing
(`fanOut`).

A subscriber gets more than what is published while it is registered. A packet that was published
before but still waits for the broadcast loop is distributed to it as well (`backlog_written`).
-/

set_option autoImplicit false

namespace Gosrt

open Lib

namespace PubSub

/-! ### The service as a queue -/

/-- The packet of the loop, as long as it is for this call. -/
def pending (b : Broadcast) (n : Nat) : List Pkt :=
  match b with
  | .holding p => [p]
  | .sending p listeners => if n ∈ listeners then [p] else []
  | _ => []

/-- A call of `Subscribe` as a queue, with the packets that are still outside of its own queue. -/
def view (pool : PayloadPool) (rest : List Pkt) (sub : Subscription) : Fifo Packet where
  sent := sub.backlog ++ sub.published
  inFlight := if sub.registered then (sub.packets ++ rest).map pool.value else []
  received := sub.written
  lost := sub.full || sub.incomingFull
  closed := !sub.registered

/-- The call number `n`. -/
def viewOf (s : PubSub) (n : Nat) (sub : Subscription) : Fifo Packet :=
  view s.pool (pending s.broadcast n ++ s.incoming) sub

section
variable {s s' : PubSub} {e : Event} {n : Nat} {sub : Subscription}

/-- The view depends on what is on the way, and only while the call is registered. -/
theorem view_congr {pool pool' : PayloadPool} {rest rest' : List Pkt}
    (h : sub.registered = true →
      (sub.packets ++ rest').map pool'.value = (sub.packets ++ rest).map pool.value) :
    view pool rest sub = view pool' rest' sub := by
  unfold view
  cases hregistered : sub.registered with
  | true => rw [h hregistered]
  | false => rfl

theorem pending_subset {b : Broadcast} {n : Nat} {p : Pkt} (hp : p ∈ pending b n) :
    p ∈ b.packets := by
  cases b with
  | holding q => exact hp
  | sending q listeners =>
    simp only [pending] at hp
    split at hp
    · exact hp
    · cases hp
  | idle => cases hp
  | retiring q => cases hp
  | exited => cases hp

/-- What is on the way uses its buffers, besides the other components. -/
theorem count_lt_uses {p : Pkt} (hsub : s.subscriptions[n]? = some sub)
    (hp : p ∈ sub.packets ++ (pending s.broadcast n ++ s.incoming)) :
    s.outside.count p.payload < s.uses p.payload := by
  unfold uses
  rcases List.mem_append.mp hp with hp | hp
  · have hqueued : p ∈ queued s.subscriptions :=
      List.mem_flatMap.mpr ⟨sub, List.mem_of_getElem? hsub, hp⟩
    have hpos := held_pos hqueued
    omega
  rcases List.mem_append.mp hp with hp | hp
  · have hpos := held_pos (pending_subset hp)
    omega
  · have hpos := held_pos hp
    omega

/-- A change of the pool that leaves the buffers in use alone does not show. -/
theorem viewOf_eq_of_pool {pool : PayloadPool} (hsub : s.subscriptions[n]? = some sub)
    (h : ∀ b, s.outside.count b < s.uses b → pool.content b = s.pool.content b) :
    s.viewOf n sub = view pool (pending s.broadcast n ++ s.incoming) sub := by
  refine view_congr fun _ => map_value_congr ?_
  intro p hp
  exact h p.payload (count_lt_uses hsub hp)

/-- A change of one call. -/
theorem getElem?_update {m : Nat} {old new sub' : Subscription}
    (hm : s.subscriptions[m]? = some old)
    (hsub' : (s.update m new).subscriptions[n]? = some sub') :
    (n = m ∧ sub' = new) ∨ (n ≠ m ∧ s.subscriptions[n]? = some sub') := by
  have hlt : m < s.subscriptions.length := (List.getElem?_eq_some_iff.mp hm).1
  have hset : (s.subscriptions.set m new)[n]? = some sub' := hsub'
  by_cases hn : n = m
  · subst hn
    rw [List.getElem?_set_self hlt] at hset
    exact Or.inl ⟨rfl, (Option.some.inj hset).symm⟩
  · rw [List.getElem?_set_ne (Ne.symm hn)] at hset
    exact Or.inr ⟨hn, hset⟩

/-- The packet is published: it is on the way, or it is lost at once. -/
theorem reaches_read (p : Pkt) (sub : Subscription) :
    (s.viewOf n sub).Reaches ((s.read p).viewOf n
      (sub.note (s.pool.value p) (decide (queueCapacity ≤ s.incoming.length)))) := by
  unfold Subscription.note
  cases hregistered : sub.registered with
  | false =>
    refine .of_eq ?_
    simp [viewOf, view, hregistered]
  | true =>
    have hopen : (s.viewOf n sub).closed = false := by
      simp [viewOf, view, hregistered]
    by_cases hfull : queueCapacity ≤ s.incoming.length
    · refine (Fifo.reaches_sendLost (s.viewOf n sub) (s.pool.value p) hopen).trans (.of_eq ?_)
      simp [viewOf, view, read, hfull, Subscription.registered, Subscription.packets]
    · refine (Fifo.Step.send (s.viewOf n sub) (s.pool.value p) hopen).reaches.trans (.of_eq ?_)
      have hregistered' : sub.phase ≠ .gone := bne_iff_ne.mp hregistered
      simp [viewOf, view, read, hfull, Subscription.registered, Subscription.packets, hregistered']

/-- A clone has the value of its packet, and what is on the way keeps its value. -/
theorem map_value_clone (h : s.Inv) (hsub : s.subscriptions[n]? = some sub) (p : Pkt)
    (choice : Option Nat) :
    (s.pool.clone p choice).2.value (s.pool.clone p choice).1 = s.pool.value p ∧
      sub.packets.map (s.pool.clone p choice).2.value = sub.packets.map s.pool.value ∧
      (pending s.broadcast n ++ s.incoming).map (s.pool.clone p choice).2.value
        = (pending s.broadcast n ++ s.incoming).map s.pool.value := by
  have hands := h.exclusive.get choice (s.pool.content p.payload)
  refine ⟨congrArg (Packet.mk p.header) hands.content, ?_, ?_⟩
  · refine map_value_congr ?_
    intro q hq
    exact hands.others q.payload
      (Nat.zero_lt_of_lt (count_lt_uses hsub (List.mem_append_left _ hq)))
  · refine map_value_congr ?_
    intro q hq
    exact hands.others q.payload
      (Nat.zero_lt_of_lt (count_lt_uses hsub (List.mem_append_right _ hq)))

/-- The loop offers its packet to the call: the clone takes the place of the packet, or the packet
is lost. -/
theorem reaches_send (h : s.Inv) {p : Pkt} {listeners : List Nat} {listener : Nat}
    (choice : Option Nat) (hsending : s.broadcast = .sending p listeners)
    (hn : listeners[listener]? = some n) (hsub : s.subscriptions[n]? = some sub) :
    (s.viewOf n sub).Reaches ((s.send p listeners listener n sub choice).viewOf n
      (sub.offer (s.pool.clone p choice).1)) := by
  obtain ⟨hnodup, hcards⟩ := h.sending p listeners hsending
  have hmem : n ∈ listeners := List.mem_of_getElem? hn
  have hregistered : sub.registered = true := by
    obtain ⟨socketId, hcard⟩ := hcards n hmem
    exact ((getElem?_card_iff hsub socketId).mp hcard).2
  -- The listener is served once, so the packet is not for it any more.
  have hserved : n ∉ listeners.eraseIdx listener := by
    obtain ⟨before, after, rfl, -, herase⟩ := exists_cut hn
    rw [List.nodup_middle, List.nodup_cons] at hnodup
    rw [herase]
    exact hnodup.1
  have hpending : pending s.broadcast n = [p] := by
    simp [pending, hsending, hmem]
  have hpending' : pending (.sending p (listeners.eraseIdx listener)) n = [] := by
    simp [pending, hserved]
  obtain ⟨hclone, hpackets, hrest⟩ := map_value_clone h hsub p choice
  have hincoming : s.incoming.map (s.pool.clone p choice).2.value
      = s.incoming.map s.pool.value := by
    rw [hpending] at hrest
    exact (List.cons.inj hrest).2
  have hafter : ∀ sub', (s.send p listeners listener n sub choice).viewOf n sub'
      = view (s.pool.clone p choice).2 s.incoming sub' := by
    intro sub'
    show view _ (pending (.sending p (listeners.eraseIdx listener)) n ++ s.incoming) sub' = _
    rw [hpending']
    rfl
  rw [hafter]
  unfold viewOf Subscription.offer
  rw [hpending]
  split
  · refine .of_eq ?_
    have hregistered' : ({ sub with queue := sub.queue ++ [(s.pool.clone p choice).1] } :
        Subscription).registered = true := hregistered
    simp [view, hregistered, hregistered', Subscription.packets_enqueue, hpackets,
      hincoming, hclone]
  · have hlose := Fifo.Step.lose (view s.pool ([p] ++ s.incoming) sub)
      (sub.packets.map s.pool.value) (s.incoming.map s.pool.value) (s.pool.value p)
      (by simp [view, hregistered])
    refine hlose.reaches.trans (.of_eq ?_)
    have hregistered' : ({ sub with full := true } : Subscription).registered = true := hregistered
    have hsame : ({ sub with full := true } : Subscription).packets = sub.packets := rfl
    simp [view, hregistered, hregistered', hsame, hpackets, hincoming]

/-- A call writes the first of its packets. -/
theorem reaches_write {p : Pkt} (hphase : sub.phase = .writing p) (ok : Bool) :
    (s.viewOf n sub).Reaches ((s.write n sub p ok).viewOf n { sub with
      phase := if ok then .waiting else .returned
      written := sub.written ++ [s.pool.value p] }) := by
  have hregistered : sub.registered = true := by simp [Subscription.registered, hphase]
  have hpackets := Subscription.packets_writing hphase
  have hreceive := Fifo.Step.receive (s.viewOf n sub)
    ((sub.queue ++ (pending s.broadcast n ++ s.incoming)).map s.pool.value) (s.pool.value p)
    (by simp [viewOf, view, hregistered, hpackets])
  refine hreceive.reaches.trans (.of_eq ?_)
  unfold viewOf view
  rw [hregistered]
  cases ok with
  | true => rfl
  | false => rfl

theorem backlog_note (p : Packet) (full : Bool) (sub : Subscription) :
    (sub.note p full).backlog = sub.backlog := by
  unfold Subscription.note
  split
  · rfl
  · rfl

theorem backlog_offer (sub : Subscription) (p : Pkt) : (sub.offer p).backlog = sub.backlog := by
  unfold Subscription.offer
  split
  · rfl
  · rfl

/-- What the loop offers to another call does not show. -/
theorem viewOf_send_of_ne (h : s.Inv) {p : Pkt} {listeners : List Nat} {listener m : Nat}
    {sub' : Subscription} (choice : Option Nat) (hsending : s.broadcast = .sending p listeners)
    (hm : listeners[listener]? = some m) (hne : n ≠ m)
    (hsub : s.subscriptions[n]? = some sub) :
    s.viewOf n sub = (s.send p listeners listener m sub' choice).viewOf n sub := by
  obtain ⟨-, hpackets, hrest⟩ := map_value_clone h hsub p choice
  have hpending : pending (.sending p (listeners.eraseIdx listener)) n
      = pending s.broadcast n := by
    obtain ⟨before, after, rfl, -, herase⟩ := exists_cut hm
    rw [herase, hsending]
    simp [pending, hne]
  refine view_congr fun _ => ?_
  show (sub.packets ++ (pending (.sending p (listeners.eraseIdx listener)) n ++ s.incoming)).map
    (s.pool.clone p choice).2.value = _
  rw [hpending, List.map_append, hpackets, hrest, ← List.map_append]

/-- A new call begins with the packets that wait for the loop. -/
theorem viewOf_subscription (n : Nat) (socketId : UInt32) (hlocked : s.broadcast.locked = false) :
    s.viewOf n (s.subscription socketId) = Fifo.start (s.subscription socketId).backlog := by
  have hpending : pending s.broadcast n = s.broadcast.waiting := by
    cases hb : s.broadcast with
    | sending p listeners => exact absurd hb (ne_sending hlocked)
    | idle => rfl
    | holding p => rfl
    | retiring p => rfl
    | exited => rfl
  unfold viewOf view
  rw [hpending]
  simp [subscription, Subscription.registered, Subscription.packets, Fifo.start, waiting]

/-- Each step of the service is for each call a step of its queue, or no step, or its beginning. -/
theorem StepCase.view (hs : StepCase s e s') (h : s.Inv) {sub' : Subscription}
    (hsub' : s'.subscriptions[n]? = some sub') :
    (∃ sub, s.subscriptions[n]? = some sub ∧ sub'.backlog = sub.backlog ∧
        (s.viewOf n sub).Reaches (s'.viewOf n sub')) ∨
      s'.viewOf n sub' = Fifo.start sub'.backlog := by
  cases hs with
  | publish => exact Or.inl ⟨sub', hsub', rfl, .refl _⟩
  | readError => exact Or.inl ⟨sub', hsub', rfl, .refl _⟩
  | read header payload hmem =>
    have hmap : (s.subscriptions.map (·.note (s.pool.value ⟨header, payload⟩)
        (decide (queueCapacity ≤ s.incoming.length))))[n]? = some sub' := hsub'
    rw [List.getElem?_map] at hmap
    obtain ⟨sub, hsub, rfl⟩ := Option.map_eq_some_iff.mp hmap
    exact Or.inl ⟨sub, hsub, backlog_note _ _ _, reaches_read ⟨header, payload⟩ sub⟩
  | receive p incoming hidle hincoming =>
    refine Or.inl ⟨sub', hsub', rfl, .of_eq ?_⟩
    unfold viewOf
    rw [hidle, hincoming]
    rfl
  | exit hidle =>
    refine Or.inl ⟨sub', hsub', rfl, .of_eq ?_⟩
    unfold viewOf
    rw [hidle]
    rfl
  | lock p hholding =>
    refine Or.inl ⟨sub', hsub', rfl, .of_eq (view_congr ?_)⟩
    intro hregistered
    -- The loop has the packet for all who are registered.
    have hmem : n ∈ s.listeners.entries.map Sigma.snd :=
      h.mem_listeners_iff.mpr ⟨sub'.socketId, (getElem?_card_iff hsub' _).mpr ⟨rfl, hregistered⟩⟩
    rw [hholding]
    simp [pending, hmem]
  | send listener choice p listeners m sub hsending hm hsub =>
    rcases getElem?_update hsub hsub' with ⟨rfl, rfl⟩ | ⟨hne, hother⟩
    · exact Or.inl ⟨sub, hsub, backlog_offer _ _, reaches_send h choice hsending hm hsub⟩
    · exact Or.inl ⟨sub', hother, rfl, .of_eq (viewOf_send_of_ne h choice hsending hm hne hother)⟩
  | unlock p hsending =>
    refine Or.inl ⟨sub', hsub', rfl, .of_eq ?_⟩
    unfold viewOf
    rw [hsending]
    simp [pending]
  | decommission p hretiring =>
    refine Or.inl ⟨sub', hsub', rfl, .of_eq ?_⟩
    unfold viewOf
    rw [hretiring]
    rfl
  | subscribe socketId hlocked =>
    rcases getElem?_concat_iff.mp hsub' with hold | ⟨-, rfl⟩
    · exact Or.inl ⟨sub', hold, rfl, .refl _⟩
    · exact Or.inr (viewOf_subscription n socketId hlocked)
  | take m sub p queue hsub hphase hqueue =>
    rcases getElem?_update hsub hsub' with ⟨rfl, rfl⟩ | ⟨hne, hother⟩
    · refine Or.inl ⟨sub, hsub, rfl, .of_eq ?_⟩
      unfold viewOf PubSub.view
      simp only [Subscription.registered, Subscription.packets, hphase, hqueue]
      rfl
    · exact Or.inl ⟨sub', hother, rfl, .refl _⟩
  | leave m sub hsub hphase =>
    rcases getElem?_update hsub hsub' with ⟨rfl, rfl⟩ | ⟨hne, hother⟩
    · refine Or.inl ⟨sub, hsub, rfl, .of_eq ?_⟩
      unfold viewOf PubSub.view
      simp only [Subscription.registered, Subscription.packets, hphase]
      rfl
    · exact Or.inl ⟨sub', hother, rfl, .refl _⟩
  | write m ok sub p hsub hphase =>
    rcases getElem?_update hsub hsub' with ⟨rfl, rfl⟩ | ⟨hne, hother⟩
    · exact Or.inl ⟨sub, hsub, rfl, reaches_write hphase ok⟩
    · exact Or.inl ⟨sub', hother, rfl, .refl _⟩
  | unsubscribe m sub hsub hphase hlocked =>
    rcases getElem?_update hsub hsub' with ⟨rfl, rfl⟩ | ⟨hne, hother⟩
    · exact Or.inl ⟨sub, hsub, rfl, (Fifo.Step.close (s.viewOf n sub)).reaches⟩
    · exact Or.inl ⟨sub', hother, rfl, .refl _⟩
  | get choice =>
    refine Or.inl ⟨sub', hsub', rfl, .of_eq (viewOf_eq_of_pool hsub' ?_)⟩
    intro b hb
    exact (h.exclusive.get choice []).others b (Nat.zero_lt_of_lt hb)
  | fill payload data hmem =>
    refine Or.inl ⟨sub', hsub', rfl, .of_eq (viewOf_eq_of_pool hsub' ?_)⟩
    intro b hb
    -- A buffer with a packet on the way and another user would have two.
    refine Pool.content_write_of_ne data ?_
    rintro rfl
    have honce := h.exclusive.once b
    have hpos := List.count_pos_iff.mpr hmem
    omega
  | put payload hmem => exact Or.inl ⟨sub', hsub', rfl, .refl _⟩

end

/-- What each call sees is a queue that began with the packets that were waiting. -/
def Streams (s : PubSub) : Prop :=
  ∀ n sub, s.subscriptions[n]? = some sub → (Fifo.start sub.backlog).Reaches (s.viewOf n sub)

theorem Streams.of_step {s s' : PubSub} {e : Event} (hstreams : s.Streams) (h : s.Inv)
    (hs : StepCase s e s') : s'.Streams := by
  intro n sub' hsub'
  rcases hs.view h hsub' with ⟨sub, hsub, hbacklog, hreaches⟩ | hstart
  · rw [hbacklog]
    exact (hstreams n sub hsub).trans hreaches
  · rw [hstart]
    exact .refl _

/-- What each subscriber got is a run of its queue. -/
theorem streams_of_run {s : PubSub} {events : List Event}
    (hdistinct : RunMeets step Distinct init events) (hrun : run step init events = some s) :
    s.Streams := by
  refine (run_induct_of (fun s => s.Inv ∧ s.Streams) ?_ hdistinct ⟨inv_init, ?_⟩ hrun).2
  · intro s e s' hd h hs
    have hcase := step_cases hs
    exact ⟨h.1.of_step hd hcase, h.2.of_step h.1 hcase⟩
  · intro n sub hsub
    exact absurd hsub (by simp [init])

/-! ### The fan-out -/

/-- In each interleaving, and whatever the other subscribers do, a subscriber writes a subsequence
of the packets that were waiting for distribution when it registered and those published while it
was registered. If none of them found a queue full, then it writes exactly the first of them. -/
theorem fanOut {s : PubSub} {events : List Event}
    (hdistinct : RunMeets step Distinct init events) (hrun : run step init events = some s)
    {sub : Subscription} (hsub : sub ∈ s.subscriptions) :
    sub.written.Sublist (sub.backlog ++ sub.published) ∧
      (sub.full = false → sub.incomingFull = false →
        sub.written <+: sub.backlog ++ sub.published) := by
  obtain ⟨n, hn⟩ := List.getElem?_of_mem hsub
  have hreaches := streams_of_run hdistinct hrun n sub hn
  refine ⟨Fifo.received_sublist hreaches, ?_⟩
  intro hfull hincoming
  refine Fifo.received_initial hreaches ?_
  show (sub.full || sub.incomingFull) = false
  rw [hfull, hincoming]
  rfl

/-- The broadcast loop distributes the next packet to this many listeners. -/
def sampleRound (listeners : Nat) : List Event :=
  .receive :: .lock :: (List.replicate listeners (Event.send 0 none)).append
    [.unlock, .decommission]

/-- Two packets for two subscribers. The second one leaves after its first packet, because its
connection is closed. -/
def sampleEvents : List Event :=
  List.flatten [
    [.subscribe 7, .subscribe 8, .publish, .get none, .fill 0 [1], .read default 0, .get none,
      .fill 1 [2], .read default 1],
    sampleRound 2,
    [.take 1, .write 1 false, .unsubscribe 1, .take 0, .write 0 true],
    sampleRound 1,
    [.take 0, .write 0 true]]

/-- The subscriber that stays gets both packets, the other one the first. -/
theorem fanOut_sampleEvents :
    (runD step init sampleEvents).subscriptions.map (fun sub => sub.written.map Packet.payload)
        = [[[1], [2]], [[1]]] ∧
      ∀ sub ∈ (runD step init sampleEvents).subscriptions,
        sub.written.Sublist (sub.backlog ++ sub.published) :=
  ⟨by decide +kernel, fun _ hsub =>
    (fanOut (by decide +kernel) (run_eq_some_runD (by decide +kernel)) hsub).1⟩

/-- A packet is published, and the loop has not yet taken it out of the incoming queue when the
subscriber registers. -/
def lateSubscriber : List Event :=
  List.flatten [
    [.publish, .get none, .read default 0, .subscribe 7],
    sampleRound 1,
    [.take 0, .write 0 true]]

/-- The subscriber writes a packet that was published before it was registered. -/
theorem backlog_written :
    RunMeets step Distinct init lateSubscriber ∧
      run step init lateSubscriber = some (runD step init lateSubscriber) ∧
      ∃ sub ∈ (runD step init lateSubscriber).subscriptions,
        sub.full = false ∧ sub.incomingFull = false ∧ sub.published = [] ∧
          ¬ sub.written.Sublist sub.published :=
  ⟨by decide +kernel, run_eq_some_runD (by decide +kernel), by decide +kernel⟩

end PubSub

end Gosrt
