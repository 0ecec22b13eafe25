import Gosrt.Lib.Index
import Gosrt.Spec.PubSub

/-!
# `Gosrt.Proofs.PubSub.Steps`: the steps of the service and their invariants

Two invariants hold in each interleaving (`Inv`). No two packets share a buffer, so nobody writes to
the payload of a packet that is on its way (`Lib.Pool`). And the listeners are the subscribers that
have registered and are not gone, each under its own socket id.
-/

set_option autoImplicit false

namespace Gosrt

open Lib

/-! ### The buffers in use -/

/-- How many of the packets have this buffer. -/
def held (packets : List Pkt) (b : Nat) : Nat := (packets.map Pkt.payload).count b

@[simp] theorem held_nil (b : Nat) : held [] b = 0 := rfl

@[simp] theorem held_append (packets packets' : List Pkt) (b : Nat) :
    held (packets ++ packets') b = held packets b + held packets' b := by
  simp [held]

@[simp] theorem held_cons (p : Pkt) (packets : List Pkt) (b : Nat) :
    held (p :: packets) b = [p.payload].count b + held packets b := by
  rw [← List.singleton_append, held_append]
  rfl

theorem held_pos {packets : List Pkt} {p : Pkt} (hp : p ∈ packets) : 0 < held packets p.payload :=
  List.count_pos_iff.mpr (List.mem_map_of_mem hp)

/-- Packets whose buffers hold the same have the same value. -/
theorem map_value_congr {pool pool' : PayloadPool} {packets : List Pkt}
    (h : ∀ p ∈ packets, pool'.content p.payload = pool.content p.payload) :
    packets.map pool'.value = packets.map pool.value := by
  refine List.map_congr_left ?_
  intro p hp
  show (⟨p.header, pool'.content p.payload⟩ : Packet) = ⟨p.header, pool.content p.payload⟩
  rw [h p hp]

namespace Subscription

@[simp] theorem packets_note (p : Packet) (full : Bool) (sub : Subscription) :
    (sub.note p full).packets = sub.packets := by
  unfold note
  split
  · rfl
  · rfl

theorem packets_writing {sub : Subscription} {p : Pkt} (hphase : sub.phase = .writing p) :
    sub.packets = p :: sub.queue := by
  simp [packets, hphase]

theorem packets_written (sub : Subscription) (ok : Bool) (written : List Packet) :
    ({ sub with phase := if ok then .waiting else .returned, written := written } :
      Subscription).packets = sub.queue := by
  cases ok with
  | true => rfl
  | false => rfl

theorem packets_enqueue (sub : Subscription) (p : Pkt) :
    ({ sub with queue := sub.queue ++ [p] } : Subscription).packets = sub.packets ++ [p] := by
  unfold packets
  cases sub.phase with
  | writing q => rfl
  | waiting => rfl
  | returned => rfl
  | gone => rfl

theorem held_offer_le (sub : Subscription) (p : Pkt) (b : Nat) :
    held (sub.offer p).packets b ≤ held sub.packets b + [p.payload].count b := by
  unfold offer
  split
  · rw [packets_enqueue, held_append, held_cons, held_nil]
    exact Nat.le_refl _
  · exact Nat.le_add_right _ _

end Subscription

/-- The packets of all calls of `Subscribe`. -/
def queued (subscriptions : List Subscription) : List Pkt :=
  subscriptions.flatMap Subscription.packets

theorem held_queued_set {subscriptions : List Subscription} {n : Nat} {sub : Subscription}
    (hsub : subscriptions[n]? = some sub) (sub' : Subscription) (b : Nat) :
    held (queued (subscriptions.set n sub')) b + held sub.packets b
      = held (queued subscriptions) b + held sub'.packets b := by
  obtain ⟨before, after, rfl, hset, -⟩ := exists_cut hsub
  rw [hset]
  simp only [queued, List.flatMap_append, List.flatMap_cons, held_append]
  omega

namespace PubSub

/-- How many packets and other components use a buffer. -/
def uses (s : PubSub) (b : Nat) : Nat :=
  s.outside.count b + held s.incoming b + held s.broadcast.packets b
    + held (queued s.subscriptions) b

/-! ### The steps -/

/-- What a step does, by events. -/
inductive StepCase (s : PubSub) : Event → PubSub → Prop where
  | publish : StepCase s .publish { s with publish := true }
  | read (header : PacketHeader) (payload : Nat) (hmem : payload ∈ s.outside) :
      StepCase s (.read header payload) (s.read ⟨header, payload⟩)
  | readError : StepCase s .readError { s with done := true }
  | receive (p : Pkt) (incoming : List Pkt) (hidle : s.broadcast = .idle)
      (hincoming : s.incoming = p :: incoming) :
      StepCase s .receive { s with broadcast := .holding p, incoming := incoming }
  | exit (hidle : s.broadcast = .idle) : StepCase s .exit { s with broadcast := .exited }
  | lock (p : Pkt) (hholding : s.broadcast = .holding p) :
      StepCase s .lock { s with
        broadcast := .sending p (s.listeners.entries.map Sigma.snd) }
  | send (listener : Nat) (choice : Option Nat) (p : Pkt) (listeners : List Nat) (n : Nat)
      (sub : Subscription) (hsending : s.broadcast = .sending p listeners)
      (hn : listeners[listener]? = some n) (hsub : s.subscriptions[n]? = some sub) :
      StepCase s (.send listener choice) (s.send p listeners listener n sub choice)
  | unlock (p : Pkt) (hsending : s.broadcast = .sending p []) :
      StepCase s .unlock { s with broadcast := .retiring p }
  | decommission (p : Pkt) (hretiring : s.broadcast = .retiring p) :
      StepCase s .decommission { s with broadcast := .idle, pool := s.pool.put p.payload }
  | subscribe (socketId : UInt32) (hlocked : s.broadcast.locked = false) :
      StepCase s (.subscribe socketId) { s with
        listeners := s.listeners.insert socketId s.subscriptions.length
        subscriptions := s.subscriptions ++ [s.subscription socketId] }
  | take (n : Nat) (sub : Subscription) (p : Pkt) (queue : List Pkt)
      (hsub : s.subscriptions[n]? = some sub) (hphase : sub.phase = .waiting)
      (hqueue : sub.queue = p :: queue) :
      StepCase s (.take n) (s.update n { sub with phase := .writing p, queue := queue })
  | leave (n : Nat) (sub : Subscription) (hsub : s.subscriptions[n]? = some sub)
      (hphase : sub.phase = .waiting) :
      StepCase s (.leave n) (s.update n { sub with phase := .returned })
  | write (n : Nat) (ok : Bool) (sub : Subscription) (p : Pkt)
      (hsub : s.subscriptions[n]? = some sub) (hphase : sub.phase = .writing p) :
      StepCase s (.write n ok) (s.write n sub p ok)
  | unsubscribe (n : Nat) (sub : Subscription) (hsub : s.subscriptions[n]? = some sub)
      (hphase : sub.phase = .returned) (hlocked : s.broadcast.locked = false) :
      StepCase s (.unsubscribe n) { s.update n { sub with phase := .gone } with
        listeners := s.listeners.erase sub.socketId }
  | get (choice : Option Nat) :
      StepCase s (.get choice) { s with
        pool := (s.pool.get choice []).2, outside := (s.pool.get choice []).1 :: s.outside }
  | fill (payload : Nat) (data : Bytes) (hmem : payload ∈ s.outside) :
      StepCase s (.fill payload data) { s with pool := s.pool.write payload data }
  | put (payload : Nat) (hmem : payload ∈ s.outside) :
      StepCase s (.put payload) { s with
        pool := s.pool.put payload, outside := s.outside.erase payload }

/-- Every step is one of these cases. -/
theorem step_cases {s s' : PubSub} {e : Event} (hs : step s e = some s') : StepCase s e s' := by
  cases e with
  | publish =>
    dsimp only [step] at hs
    split at hs
    · cases hs
    · cases hs
      exact .publish
  | read header payload =>
    dsimp only [step] at hs
    split at hs
    · rename_i hguard
      simp only [Bool.and_eq_true, List.contains_iff_mem] at hguard
      cases hs
      exact .read header payload hguard.2
    · cases hs
  | readError =>
    dsimp only [step] at hs
    split at hs
    · cases hs
      exact .readError
    · cases hs
  | receive =>
    dsimp only [step] at hs
    split at hs
    · rename_i p incoming hidle hincoming
      cases hs
      exact .receive p incoming hidle hincoming
    · cases hs
  | exit =>
    dsimp only [step] at hs
    split at hs
    · rename_i hidle _
      cases hs
      exact .exit hidle
    · cases hs
  | lock =>
    dsimp only [step] at hs
    split at hs
    · rename_i p hholding
      cases hs
      exact .lock p hholding
    · cases hs
  | send listener choice =>
    dsimp only [step] at hs
    split at hs
    · rename_i p listeners hsending
      obtain ⟨n, hn, hs⟩ := Option.bind_eq_some_iff.mp hs
      obtain ⟨sub, hsub, hs⟩ := Option.bind_eq_some_iff.mp hs
      cases hs
      exact .send listener choice p listeners n sub hsending hn hsub
    · cases hs
  | unlock =>
    dsimp only [step] at hs
    split at hs
    · rename_i p hsending
      cases hs
      exact .unlock p hsending
    · cases hs
  | decommission =>
    dsimp only [step] at hs
    split at hs
    · rename_i p hretiring
      cases hs
      exact .decommission p hretiring
    · cases hs
  | subscribe socketId =>
    dsimp only [step] at hs
    split at hs
    · cases hs
    · rename_i hlocked
      cases hs
      exact .subscribe socketId (Bool.not_eq_true _ ▸ hlocked)
  | take n =>
    obtain ⟨sub, hsub, hs⟩ := Option.bind_eq_some_iff.mp hs
    split at hs
    · rename_i p queue hphase hqueue
      cases hs
      exact .take n sub p queue hsub hphase hqueue
    · cases hs
  | leave n =>
    obtain ⟨sub, hsub, hs⟩ := Option.bind_eq_some_iff.mp hs
    split at hs
    · rename_i hphase _
      cases hs
      exact .leave n sub hsub hphase
    · cases hs
  | write n ok =>
    obtain ⟨sub, hsub, hs⟩ := Option.bind_eq_some_iff.mp hs
    split at hs
    · rename_i p hphase
      cases hs
      exact .write n ok sub p hsub hphase
    · cases hs
  | unsubscribe n =>
    obtain ⟨sub, hsub, hs⟩ := Option.bind_eq_some_iff.mp hs
    split at hs
    · rename_i hphase hlocked
      cases hs
      exact .unsubscribe n sub hsub hphase hlocked
    · cases hs
  | get choice =>
    cases hs
    exact .get choice
  | fill payload data =>
    dsimp only [step] at hs
    split at hs
    · rename_i hmem
      cases hs
      exact .fill payload data (List.contains_iff_mem.mp hmem)
    · cases hs
  | put payload =>
    dsimp only [step] at hs
    split at hs
    · rename_i hmem
      cases hs
      exact .put payload (List.contains_iff_mem.mp hmem)
    · cases hs

/-! ### Every buffer has one user -/

section
variable {s s' : PubSub} {e : Event}

theorem uses_update {n : Nat} {sub : Subscription} (hsub : s.subscriptions[n]? = some sub)
    (sub' : Subscription) (b : Nat) :
    (s.update n sub').uses b + held sub.packets b = s.uses b + held sub'.packets b := by
  have hset := held_queued_set hsub sub' b
  show s.outside.count b + held s.incoming b + held s.broadcast.packets b
    + held (queued (s.subscriptions.set n sub')) b + held sub.packets b = _
  unfold uses
  omega

/-- A call that keeps its packets keeps its buffers. -/
theorem uses_update_of_eq {n : Nat} {sub : Subscription} (hsub : s.subscriptions[n]? = some sub)
    {sub' : Subscription} (hpackets : sub'.packets = sub.packets) :
    (s.update n sub').uses = s.uses := by
  funext b
  have huses := uses_update hsub sub' b
  rw [hpackets] at huses
  omega

/-- A packet that comes in brings its buffer from outside. -/
theorem uses_read_le {p : Pkt} (hmem : p.payload ∈ s.outside) (b : Nat) :
    (s.read p).uses b ≤ s.uses b := by
  have herase := Pool.count_erase_add hmem b
  have hqueued : queued (s.read p).subscriptions = queued s.subscriptions := by
    simp [queued, read, List.flatMap_map]
  have hincoming : held (s.read p).incoming b ≤ held s.incoming b + [p.payload].count b := by
    unfold read
    dsimp only
    split
    · exact Nat.le_add_right _ _
    · simp
  unfold uses
  rw [hqueued]
  show (s.outside.erase p.payload).count b + _ + held s.broadcast.packets b + _ ≤ _
  omega

/-- Each step keeps the buffers apart. -/
theorem StepCase.exclusive (hs : StepCase s e s') (h : s.pool.Exclusive s.uses) :
    s'.pool.Exclusive s'.uses := by
  cases hs with
  | publish => exact h
  | readError => exact h
  | read header payload hmem => exact h.mono (uses_read_le hmem)
  | receive p incoming hidle hincoming =>
    refine h.mono fun b => ?_
    simp only [uses, hidle, hincoming, Broadcast.packets, held_cons, held_nil]
    omega
  | exit hidle =>
    refine h.mono fun b => ?_
    simp [uses, hidle, Broadcast.packets]
  | lock p hholding =>
    refine h.mono fun b => ?_
    simp [uses, hholding, Broadcast.packets]
  | send listener choice p listeners n sub hsending hn hsub =>
    -- The clone has one user if it fits into the queue, and none otherwise.
    have hands := h.get choice (s.pool.content p.payload)
    refine (hands.exclusive (fun b => s.uses b + [(s.pool.clone p choice).1.payload].count b)
      fun b => rfl).mono fun b => ?_
    have huses := uses_update hsub (sub.offer (s.pool.clone p choice).1) b
    have hoffer := sub.held_offer_le (s.pool.clone p choice).1 b
    have hsame : (s.send p listeners listener n sub choice).uses b
        = (s.update n (sub.offer (s.pool.clone p choice).1)).uses b := by
      simp [PubSub.send, uses, update, hsending, Broadcast.packets]
    rw [hsame]
    omega
  | unlock p hsending =>
    refine h.mono fun b => ?_
    simp [uses, hsending, Broadcast.packets]
  | decommission p hretiring =>
    refine h.put fun b => ?_
    simp only [uses, hretiring, Broadcast.packets, held_cons, held_nil]
    omega
  | subscribe socketId hlocked =>
    refine h.mono fun b => ?_
    simp [uses, queued, subscription, Subscription.packets]
  | take n sub p queue hsub hphase hqueue =>
    rw [uses_update_of_eq hsub (by simp [Subscription.packets, hphase, hqueue])]
    exact h
  | leave n sub hsub hphase =>
    rw [uses_update_of_eq hsub (by simp [Subscription.packets, hphase])]
    exact h
  | write n ok sub p hsub hphase =>
    refine h.put fun b => ?_
    have huses := uses_update hsub { sub with
      phase := if ok then .waiting else .returned
      written := sub.written ++ [s.pool.value p] } b
    rw [Subscription.packets_writing hphase, Subscription.packets_written, held_cons] at huses
    show (s.update n { sub with
      phase := if ok then .waiting else .returned
      written := sub.written ++ [s.pool.value p] }).uses b + _ = _
    omega
  | unsubscribe n sub hsub hphase hlocked =>
    show s.pool.Exclusive (s.update n { sub with phase := .gone }).uses
    rw [uses_update_of_eq hsub (by simp [Subscription.packets, hphase])]
    exact h
  | get choice =>
    refine (h.get choice []).exclusive _ fun b => ?_
    have hcons := Pool.count_cons_add (s.pool.get choice []).1 s.outside b
    simp only [uses]
    omega
  | fill payload data hmem => exact h.write payload data
  | put payload hmem =>
    refine h.put fun b => ?_
    have herase := Pool.count_erase_add hmem b
    simp only [uses]
    omega

end

/-! ### Who is registered -/

/-- The socket id of a call of `Subscribe`, and whether it is registered. -/
def card (sub : Subscription) : UInt32 × Bool := (sub.socketId, sub.registered)

/-- The invariant of the service. -/
structure Inv (s : PubSub) : Prop where
  exclusive : s.pool.Exclusive s.uses
  /-- The listeners are those who are registered, under their socket ids. -/
  listeners : ∀ socketId n,
    s.listeners.lookup socketId = some n ↔ (s.subscriptions.map card)[n]? = some (socketId, true)
  /-- Those whom the loop still has to serve are registered, and it serves nobody twice. -/
  sending : ∀ p listeners, s.broadcast = .sending p listeners → listeners.Nodup ∧
    ∀ n ∈ listeners, ∃ socketId, (s.subscriptions.map card)[n]? = some (socketId, true)

theorem inv_init : init.Inv where
  exclusive := by
    constructor
    · intro b
      exact Nat.zero_le _
    · intro b _
      rfl
  listeners socketId n := by simp [init]
  sending p listeners h := by cases h

section
variable {s s' : PubSub} {e : Event}

theorem getElem?_card_iff {n : Nat} {sub : Subscription} (hsub : s.subscriptions[n]? = some sub)
    (socketId : UInt32) :
    (s.subscriptions.map card)[n]? = some (socketId, true) ↔
      sub.socketId = socketId ∧ sub.registered = true := by
  rw [List.getElem?_map, hsub, Option.map_some, Option.some_inj]
  exact Prod.mk_inj

/-- A change that does not touch the cards of a call. -/
theorem map_card_set {n : Nat} {sub sub' : Subscription} (hsub : s.subscriptions[n]? = some sub)
    (hcard : card sub' = card sub) :
    (s.subscriptions.set n sub').map card = s.subscriptions.map card := by
  obtain ⟨before, after, heq, hset, -⟩ := exists_cut hsub
  rw [hset, heq]
  simp [hcard]

theorem map_card_note (p : Packet) (full : Bool) (subscriptions : List Subscription) :
    (subscriptions.map (·.note p full)).map card = subscriptions.map card := by
  rw [List.map_map]
  refine List.map_congr_left ?_
  intro sub _
  show card (sub.note p full) = card sub
  unfold Subscription.note
  split
  · rfl
  · rfl

/-- The listeners do not share queues, so the loop serves nobody twice. -/
theorem Inv.nodup_listeners (h : s.Inv) : (s.listeners.entries.map Sigma.snd).Nodup := by
  refine List.Nodup.map_on ?_ (List.NodupKeys.nodup s.listeners.nodupKeys)
  rintro ⟨socketId, n⟩ hmem ⟨socketId', n'⟩ hmem' heq
  have heq' : n = n' := heq
  subst heq'
  have hcard := (h.listeners socketId n).mp (AList.mem_lookup_iff.mpr hmem)
  have hcard' := (h.listeners socketId' n).mp (AList.mem_lookup_iff.mpr hmem')
  rw [hcard] at hcard'
  cases hcard'
  rfl

/-- The map has the subscribers that have not gone. -/
theorem Inv.mem_listeners_iff (h : s.Inv) {n : Nat} :
    n ∈ s.listeners.entries.map Sigma.snd ↔
      ∃ socketId, (s.subscriptions.map card)[n]? = some (socketId, true) := by
  constructor
  · intro hmem
    obtain ⟨⟨socketId, n'⟩, hentry, heq⟩ := List.mem_map.mp hmem
    have heq' : n' = n := heq
    subst heq'
    exact ⟨socketId, (h.listeners socketId n').mp (AList.mem_lookup_iff.mpr hentry)⟩
  · rintro ⟨socketId, hcard⟩
    exact List.mem_map.mpr
      ⟨⟨socketId, n⟩, AList.mem_lookup_iff.mp ((h.listeners socketId n).mpr hcard), rfl⟩

/-- A new listener with a socket id of its own. -/
theorem Inv.listeners_insert (h : s.Inv) {socketId : UInt32}
    (hdistinct : s.Distinct (.subscribe socketId)) (id : UInt32) (n : Nat) :
    (s.listeners.insert socketId s.subscriptions.length).lookup id = some n ↔
      ((s.subscriptions ++ [s.subscription socketId]).map card)[n]? = some (id, true) := by
  rw [List.map_append, List.map_singleton, getElem?_concat_iff, List.length_map]
  by_cases hid : id = socketId
  · subst hid
    rw [AList.lookup_insert]
    constructor
    · intro heq
      exact Or.inr ⟨(Option.some.inj heq).symm, rfl⟩
    · rintro (hcard | ⟨rfl, -⟩)
      · -- No call that is registered has the new socket id.
        obtain ⟨sub, hsub, heq⟩ := List.mem_map.mp (List.mem_of_getElem? hcard)
        obtain ⟨hsame, hregistered⟩ := Prod.mk.inj heq
        exact absurd hsame (hdistinct sub hsub hregistered)
      · rfl
  · rw [AList.lookup_insert_ne hid, h.listeners id n]
    constructor
    · exact Or.inl
    · rintro (hcard | ⟨-, hcard⟩)
      · exact hcard
      · exact absurd (Prod.mk.inj hcard).1.symm hid

theorem Inv.listeners_erase (h : s.Inv) {m : Nat} {sub : Subscription}
    (hsub : s.subscriptions[m]? = some sub) (hphase : sub.phase = .returned) (id : UInt32)
    (n : Nat) :
    (s.listeners.erase sub.socketId).lookup id = some n ↔
      ((s.subscriptions.set m { sub with phase := .gone }).map card)[n]? = some (id, true) := by
  have hregistered : sub.registered = true := by
    simp [Subscription.registered, hphase]
  have hcard := (getElem?_card_iff hsub sub.socketId).mpr ⟨rfl, hregistered⟩
  have hlookup := (h.listeners sub.socketId m).mpr hcard
  have hm : m < s.subscriptions.length := (List.getElem?_eq_some_iff.mp hsub).1
  rw [List.map_set]
  by_cases hn : n = m
  · subst hn
    rw [List.getElem?_set_self (by rw [List.length_map]; exact hm)]
    constructor
    · intro hid
      -- The call is listed under its own socket id only, and that is erased.
      by_cases heq : id = sub.socketId
      · rw [heq, AList.lookup_erase] at hid
        cases hid
      · rw [AList.lookup_erase_ne heq] at hid
        have hother := (getElem?_card_iff hsub id).mp ((h.listeners id n).mp hid)
        exact absurd hother.1.symm heq
    · intro hgone
      cases hgone
  · rw [List.getElem?_set_ne (Ne.symm hn), ← h.listeners id n]
    by_cases heq : id = sub.socketId
    · rw [heq, AList.lookup_erase, hlookup]
      constructor
      · intro hnone
        cases hnone
      · intro hsome
        exact absurd (Option.some.inj hsome).symm hn
    · rw [AList.lookup_erase_ne heq]

/-- A step that leaves the cards and the listeners alone, and does not begin to send. -/
theorem Inv.of_cards (h : s.Inv) (hexclusive : s'.pool.Exclusive s'.uses)
    (hcards : s'.subscriptions.map card = s.subscriptions.map card)
    (hlisteners : s'.listeners = s.listeners)
    (hsending : ∀ p listeners, s'.broadcast = .sending p listeners →
      ∃ q before, s.broadcast = .sending q before ∧ listeners.Sublist before) : s'.Inv where
  exclusive := hexclusive
  listeners socketId n := by
    rw [hlisteners, hcards]
    exact h.listeners socketId n
  sending p listeners hb := by
    obtain ⟨q, before, hbefore, hsub⟩ := hsending p listeners hb
    obtain ⟨hnodup, hregistered⟩ := h.sending q before hbefore
    rw [hcards]
    exact ⟨hsub.nodup hnodup, fun n hn => hregistered n (hsub.subset hn)⟩

theorem sending_refl (p : Pkt) (listeners : List Nat) (hb : s.broadcast = .sending p listeners) :
    ∃ q before, s.broadcast = .sending q before ∧ listeners.Sublist before :=
  ⟨p, listeners, hb, List.Sublist.refl _⟩

theorem card_offer (sub : Subscription) (p : Pkt) : card (sub.offer p) = card sub := by
  unfold Subscription.offer
  split
  · rfl
  · rfl

theorem card_of_phase {sub sub' : Subscription} (hsocketId : sub'.socketId = sub.socketId)
    (hphase : sub.phase ≠ .gone) (hphase' : sub'.phase ≠ .gone) : card sub' = card sub := by
  have hregistered : sub.registered = true := bne_iff_ne.mpr hphase
  have hregistered' : sub'.registered = true := bne_iff_ne.mpr hphase'
  unfold card
  rw [hsocketId, hregistered, hregistered']

/-- Where the loop has the lock, the cards stay as they are. -/
theorem ne_sending {p : Pkt} {listeners : List Nat} (hlocked : s.broadcast.locked = false) :
    s.broadcast ≠ .sending p listeners := by
  intro hb
  rw [hb] at hlocked
  cases hlocked

/-- The invariant survives every step. -/
theorem Inv.of_step (h : s.Inv) (hdistinct : s.Distinct e) (hs : StepCase s e s') : s'.Inv := by
  have hexclusive := hs.exclusive h.exclusive
  cases hs with
  | publish => exact h.of_cards hexclusive rfl rfl sending_refl
  | readError => exact h.of_cards hexclusive rfl rfl sending_refl
  | read header payload hmem =>
    exact h.of_cards hexclusive (map_card_note _ _ _) rfl sending_refl
  | receive p incoming hidle hincoming =>
    exact h.of_cards hexclusive rfl rfl fun _ _ hb => nomatch hb
  | exit hidle => exact h.of_cards hexclusive rfl rfl fun _ _ hb => nomatch hb
  | lock p hholding =>
    refine ⟨hexclusive, h.listeners, ?_⟩
    intro q listeners hb
    cases hb
    exact ⟨h.nodup_listeners, fun n hn => h.mem_listeners_iff.mp hn⟩
  | send listener choice p listeners n sub hsending hn hsub =>
    refine h.of_cards hexclusive (map_card_set hsub (card_offer _ _)) rfl ?_
    intro q rest hb
    cases hb
    exact ⟨p, listeners, hsending, List.eraseIdx_sublist _ _⟩
  | unlock p hsending => exact h.of_cards hexclusive rfl rfl fun _ _ hb => nomatch hb
  | decommission p hretiring => exact h.of_cards hexclusive rfl rfl fun _ _ hb => nomatch hb
  | subscribe socketId hlocked =>
    exact ⟨hexclusive, h.listeners_insert hdistinct, fun _ _ hb => absurd hb (ne_sending hlocked)⟩
  | take n sub p queue hsub hphase hqueue =>
    refine h.of_cards hexclusive (map_card_set hsub ?_) rfl sending_refl
    exact card_of_phase rfl (by simp [hphase]) (by simp)
  | leave n sub hsub hphase =>
    refine h.of_cards hexclusive (map_card_set hsub ?_) rfl sending_refl
    exact card_of_phase rfl (by simp [hphase]) (by simp)
  | write n ok sub p hsub hphase =>
    refine h.of_cards hexclusive (map_card_set hsub ?_) rfl sending_refl
    exact card_of_phase rfl (by simp [hphase]) (by cases ok <;> simp)
  | unsubscribe n sub hsub hphase hlocked =>
    exact ⟨hexclusive, h.listeners_erase hsub hphase,
      fun _ _ hb => absurd hb (ne_sending hlocked)⟩
  | get choice => exact h.of_cards hexclusive rfl rfl sending_refl
  | fill payload data hmem => exact h.of_cards hexclusive rfl rfl sending_refl
  | put payload hmem => exact h.of_cards hexclusive rfl rfl sending_refl

end

end PubSub

end Gosrt
