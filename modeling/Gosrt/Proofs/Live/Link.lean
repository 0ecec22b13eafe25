import Gosrt.Proofs.Live.Receive
import Gosrt.Proofs.Live.Send
import Gosrt.Spec.Live.Link

/-!
# `Gosrt.Proofs.Live.Link`: what holds in every run of a sender and a receiver

The base of the window is the number before the initial one, so the packet pushed as number
`k` (from 0) has offset `k + 1`. `Link.Inv b s` is the invariant that ties both parties and
the messages in flight together. Everything on its way to the application is a pushed
packet, the receiver is ordered in the window of the pushed packets, an ACK in flight never
claims more than the receiver has acknowledged, and each acknowledged number is accounted
for.

There is one lemma for each part of a step. The two whole `Tick`s are sequences of parts, so
they need no lemma of their own. The invariant needs the window, and the window needs the
bound on the number of pushed packets. The number only grows, so the bound at the end of a
run is a bound for each state on the way.
-/

set_option autoImplicit false

namespace Gosrt

open Number Lib

namespace Link

/-- The label is that of a packet pushed at the sender. -/
def IsPushed (b : Number) (pushed : List Packet) (l : Number × Bytes) : Prop :=
  ∃ k q, pushed[k]? = some q ∧ l = (b.plus (k + 1), q.payload)

theorem IsPushed.append {b : Number} {pushed : List Packet} {l : Number × Bytes}
    (h : IsPushed b pushed l) (p : Packet) : IsPushed b (pushed ++ [p]) l := by
  obtain ⟨k, q, hq, hl⟩ := h
  refine ⟨k, q, ?_, hl⟩
  rw [List.getElem?_append_left (List.getElem?_eq_some_iff.mp hq).1]
  exact hq

theorem isPushed_last (b : Number) (pushed : List Packet) (p : Packet) :
    IsPushed b (pushed ++ [p]) (b.plus (pushed.length + 1), p.payload) :=
  ⟨pushed.length, p, by simp, rfl⟩

/-- The number of a pushed packet is in the window, and is not the base. -/
theorem IsPushed.inWindow {b : Number} {pushed : List Packet} {p : Packet}
    (hw : Window b pushed.length) (h : IsPushed b pushed p.label) :
    b.InWindow pushed.length p.seq ∧ 0 < b.offset p.seq := by
  obtain ⟨k, q, hq, hl⟩ := h
  have hk := (List.getElem?_eq_some_iff.mp hq).1
  have hmax := hw.lt_max
  have hseq : p.seq = b.plus (k + 1) := congrArg Prod.fst hl
  rw [hseq]
  refine ⟨inWindow_plus hw.wf hk (Nat.le_of_lt hmax), ?_⟩
  rw [offset_plus hw.wf (by omega)]
  omega

/-- The invariant of the two parties and the network, read with offsets from `b`. -/
structure Inv (b : Number) (s : Link) : Prop where
  next : s.sender.nextSequenceNumber = b.plus (s.pushed.length + 1)
  sender : s.sender.Holds (IsPushed b s.pushed)
  data : ∀ p ∈ s.data, IsPushed b s.pushed p.label
  buffer : ∀ p ∈ s.receiver.packetList, IsPushed b s.pushed p.label ∧ p ∈ s.arrived
  ordered : s.receiver.Ordered b s.pushed.length
  delivered : ∀ p ∈ s.delivered, IsPushed b s.pushed p.label ∧
    b.offset p.seq ≤ b.offset s.receiver.lastDeliveredSequenceNumber
  increasing : Increasing b s.delivered
  acks : ∀ n ∈ s.acks, ∃ i ≤ b.offset s.receiver.lastACKSequenceNumber, n = b.plus (i + 1)
  accounted : ∀ i, 0 < i → i ≤ b.offset s.receiver.lastACKSequenceNumber →
    s.Accounted (b.plus i)
  freed : ∀ p ∈ s.freed, ∃ i, 0 < i ∧ i ≤ b.offset s.receiver.lastACKSequenceNumber ∧
    p.seq = b.plus i

/-- The initial sequence number that a dialer makes is below its bound. -/
theorem initialSequenceNumber_wf (x : UInt32) : (initialSequenceNumber x).Wf :=
  wf_new_of_le UInt32.and_le_right

theorem inv_init (config : Config) (x : UInt32) :
    Inv (initialSequenceNumber x).dec (init config x) where
  next := (dec_plus_one (initialSequenceNumber_wf x)).symm
  sender := Sender.holds_newSender _ _
  data := by
    intro p hp
    cases hp
  buffer := by
    intro p hp
    cases hp
  ordered := Receiver.ordered_newReceiver
    { initialSequenceNumber := initialSequenceNumber x
      periodicACKInterval := config.periodicACKInterval
      periodicNAKInterval := config.periodicNAKInterval } (initialSequenceNumber_wf x) _
  delivered := by
    intro p hp
    cases hp
  increasing := List.Pairwise.nil
  acks := by
    intro n hn
    cases hn
  accounted := by
    intro i hi hle
    have h0 := offset_plus (initialSequenceNumber_wf x).dec (Nat.zero_le _)
    rw [plus_zero (initialSequenceNumber_wf x).dec] at h0
    change i ≤ (initialSequenceNumber x).dec.offset (initialSequenceNumber x).dec at hle
    omega
  freed := by
    intro p hp
    cases hp

/-- What is accounted for stays so: the history only grows. -/
theorem Accounted.mono {s s' : Link} {n : Number} (h : s.Accounted n)
    (harrived : ∀ p ∈ s.arrived, p ∈ s'.arrived) (hticks : ∀ t ∈ s.ticks, t ∈ s'.ticks) :
    s'.Accounted n := by
  rcases h with ⟨p, hp, he⟩ | ⟨t, ht, hq⟩
  · exact Or.inl ⟨p, harrived p hp, he⟩
  · exact Or.inr ⟨t, hticks t ht, hq⟩

section
variable {b : Number} {s : Link}

/-! ### The sender's parts -/

/-- A pushed packet gets the next number. -/
theorem Inv.senderPush (hwf : b.Wf) (h : s.Inv b) (p : Packet) : (s.senderPush p).Inv b where
  next := by
    show s.sender.nextSequenceNumber.inc = b.plus ((s.pushed ++ [p]).length + 1)
    rw [h.next, inc_plus hwf, List.length_append, List.length_singleton]
  sender := by
    refine (h.sender.imp fun l hl => hl.append p).push p ?_
    rw [h.next]
    exact isPushed_last b s.pushed p
  data := fun q hq => (h.data q hq).append p
  buffer := fun q hq => ⟨(h.buffer q hq).1.append p, (h.buffer q hq).2⟩
  ordered := by
    refine h.ordered.mono ?_
    show s.pushed.length ≤ (s.pushed ++ [p]).length
    simp
  delivered := fun q hq => ⟨(h.delivered q hq).1.append p, (h.delivered q hq).2⟩
  increasing := h.increasing
  acks := h.acks
  accounted := h.accounted
  freed := h.freed

theorem Inv.senderTickDeliver (h : s.Inv b) (now : UInt64) : (s.senderTickDeliver now).Inv b :=
  { h with
    sender := h.sender.tickDeliver now
    data := by
      intro p hp
      rcases List.mem_append.mp hp with hp | hp
      · exact h.data p hp
      · exact h.sender.queued p (Sender.mem_of_mem_tickDeliver hp) }

theorem Inv.senderTickDrop (h : s.Inv b) (now : UInt64) : (s.senderTickDrop now).Inv b :=
  { h with sender := h.sender.tickDrop now }

theorem Inv.senderTickRate (h : s.Inv b) (now : UInt64) : (s.senderTickRate now).Inv b :=
  { h with
    next := (Sender.tickRate_eq s.sender now).2.2.trans h.next
    sender := h.sender.tickRate now }

/-- An ACK in flight frees only what the receiver has acknowledged. -/
theorem Inv.senderACK (hw : Window b s.pushed.length) (h : s.Inv b) {n : Number}
    (hn : n ∈ s.acks) : (s.senderACK n).Inv b :=
  { h with
    sender := h.sender.ack n
    freed := by
      intro p hp
      rcases List.mem_append.mp hp with hp | hp
      · exact h.freed p hp
      obtain ⟨hmem, hlt⟩ := Sender.mem_ack hp
      obtain ⟨i, hi, rfl⟩ := h.acks n hn
      obtain ⟨hwin, hpos⟩ := (h.sender.sent p hmem).inWindow hw
      have hack := h.ordered.lastACK.2
      have hnarrow := hw.narrow
      have hoff := hwin.2
      rw [hwin.1, plus_lt_plus hw.wf (by omega) (by omega), decide_eq_true_eq] at hlt
      have hle : b.offset p.seq ≤ b.offset s.receiver.lastACKSequenceNumber := by omega
      exact ⟨b.offset p.seq, hpos, hle, hwin.1⟩ }

/-- A NAK sends packets again under their numbers. -/
theorem Inv.senderNAK (h : s.Inv b) {ns : List Number} {s' : Link}
    (hs : s.senderNAK ns = some s') : s'.Inv b := by
  simp only [Link.senderNAK, Option.bind_eq_bind, Option.bind_eq_some_iff, Option.pure_def,
    Option.some.injEq] at hs
  obtain ⟨⟨sender, sent⟩, hnak, rfl⟩ := hs
  obtain ⟨hholds, hsent⟩ := h.sender.nak hnak
  exact
    { h with
      next := (Sender.nak_spec hnak).2.1.trans h.next
      sender := hholds
      data := by
        intro p hp
        rcases List.mem_append.mp hp with hp | hp
        · exact h.data p hp
        · exact hsent p hp }

/-! ### The receiver's parts -/

/-- What arrives is a packet that was sent, so the buffer stays one of sent packets. -/
theorem Inv.receiverPush (hw : Window b s.pushed.length) (h : s.Inv b) {p : Packet}
    (hp : p ∈ s.data) (pktTsbpdTime : UInt64) : (s.receiverPush p pktTsbpdTime).Inv b := by
  have hpushed := h.data p hp
  obtain ⟨hwin, -⟩ := hpushed.inWindow hw
  -- The packet as it arrives has another time but the same label.
  let q : Packet := { p with header := { p.header with pktTsbpdTime := pktTsbpdTime } }
  have hq : b.InWindow s.pushed.length q.seq := hwin
  have ho := Receiver.push_cases hw h.ordered hq
  have hack : (s.receiverPush p pktTsbpdTime).receiver.lastACKSequenceNumber
      = s.receiver.lastACKSequenceNumber := Receiver.push_lastACKSequenceNumber s.receiver q
  have hdel : (s.receiverPush p pktTsbpdTime).receiver.lastDeliveredSequenceNumber
      = s.receiver.lastDeliveredSequenceNumber :=
    Receiver.push_lastDeliveredSequenceNumber s.receiver q
  exact
    { h with
      buffer := by
        intro x hx
        rcases ho.mem x hx with hx | rfl
        · exact ⟨(h.buffer x hx).1, List.mem_append_left _ (h.buffer x hx).2⟩
        · exact ⟨hpushed, List.mem_append_right _ (List.mem_singleton.mpr rfl)⟩
      ordered := h.ordered.push hw hwin
      delivered := by
        rw [hdel]
        exact h.delivered
      acks := by
        rw [hack]
        exact h.acks
      accounted := by
        rw [hack]
        intro i hi hle
        exact (h.accounted i hi hle).mono (fun x hx => List.mem_append_left _ hx)
          (fun t ht => ht)
      freed := by
        rw [hack]
        exact h.freed }

/-- The ACK part of `Tick`. The loop accounts for each number that it moves over. -/
theorem Inv.receiverTickACK (hw : Window b s.pushed.length) (h : s.Inv b) (now : UInt64) :
    (s.receiverTickACK now).Inv b := by
  have hspec := Receiver.periodicACK_spec hw h.ordered now
  have hgrow : ∀ t ∈ s.ticks, t ∈ (s.receiverTickACK now).ticks :=
    fun t ht => List.mem_append_left _ ht
  have hdel : (s.receiverTickACK now).receiver.lastDeliveredSequenceNumber
      = s.receiver.lastDeliveredSequenceNumber := hspec.lastDelivered
  exact
    { h with
      buffer := by
        intro p hp
        have hmem : p ∈ s.receiver.packetList := by
          rw [← hspec.packetList]
          exact hp
        exact h.buffer p hmem
      ordered := hspec.ordered
      delivered := by
        rw [hdel]
        exact h.delivered
      acks := by
        intro n hn
        rcases List.mem_append.mp hn with hn | hn
        · obtain ⟨i, hi, he⟩ := h.acks n hn
          exact ⟨i, Nat.le_trans hi hspec.forward, he⟩
        · refine ⟨_, Nat.le_refl _, ?_⟩
          rw [hspec.sent n (Option.mem_toList.mp hn), ← inc_plus hw.wf]
          exact congrArg Number.inc hspec.ordered.lastACK.1
      accounted := by
        intro i hi hle
        -- Numbers that were acknowledged before keep their reason. For the new ones the loop gives
        -- it: the packet is buffered, or one behind it was due.
        by_cases hold : i ≤ b.offset s.receiver.lastACKSequenceNumber
        · exact (h.accounted i hi hold).mono (fun p hp => hp) hgrow
        rcases hspec.covered i (by omega) hle with ⟨p, hp, he⟩ | ⟨q, hq, hlt, hdue⟩
        · left
          refine ⟨p, (h.buffer p hp).2, ?_⟩
          rw [← he]
          exact (h.ordered.packets p hp).1
        · right
          refine ⟨(now, s.receiver.packetList), by simp [Link.receiverTickACK], q, hq, ?_, hdue⟩
          have hqw := h.ordered.packets q hq
          have hoff := hqw.2
          have hnarrow := hw.narrow
          rw [hqw.1, plus_lt_plus hw.wf (by omega) (by omega)]
          exact decide_eq_true hlt
      freed := by
        intro p hp
        obtain ⟨i, hi, hle, he⟩ := h.freed p hp
        exact ⟨i, hi, Nat.le_trans hle hspec.forward, he⟩ }

/-- A part that leaves the buffer and the three numbers of the receiver alone, and records
nothing, keeps the invariant. -/
theorem Inv.of_receiver (h : s.Inv b) {r : Receiver} (naks : List (List Number))
    (hmax : r.maxSeenSequenceNumber = s.receiver.maxSeenSequenceNumber)
    (hack : r.lastACKSequenceNumber = s.receiver.lastACKSequenceNumber)
    (hdel : r.lastDeliveredSequenceNumber = s.receiver.lastDeliveredSequenceNumber)
    (hlist : r.packetList = s.receiver.packetList) :
    Inv b { s with receiver := r, naks := naks } := by
  have hord := h.ordered.of_eq hmax hack hdel hlist
  cases r
  cases hmax
  cases hack
  cases hdel
  cases hlist
  exact { h with ordered := hord }

theorem Inv.receiverTickNAK (h : s.Inv b) (now : UInt64) : (s.receiverTickNAK now).Inv b := by
  have hkeep : Inv b { s with receiver := (s.receiver.periodicNAK now).1 } := by
    unfold Receiver.periodicNAK
    split
    · exact h
    · exact h.of_receiver s.naks rfl rfl rfl rfl
  exact { hkeep with }

theorem Inv.receiverTickRate (h : s.Inv b) (now : UInt64) : (s.receiverTickRate now).Inv b := by
  unfold Link.receiverTickRate Receiver.tickRate
  split
  · exact h.of_receiver s.naks rfl rfl rfl rfl
  · exact h.of_receiver s.naks rfl rfl rfl rfl

/-- The delivery part of `Tick`. What it hands over comes after all that was delivered
before. -/
theorem Inv.receiverTickDeliver (hw : Window b s.pushed.length) (h : s.Inv b) (now : UInt64) :
    (s.receiverTickDeliver now).Inv b := by
  have hspec := Receiver.tickDeliver_spec hw h.ordered now
  have hsorted := h.ordered.sorted
  unfold Increasing at hsorted
  rw [hspec.split] at hsorted
  exact
    { h with
      buffer := by
        intro p hp
        have hmem : p ∈ s.receiver.packetList := by
          rw [hspec.split]
          exact List.mem_append_right _ hp
        exact h.buffer p hmem
      ordered := hspec.ordered
      delivered := by
        intro p hp
        rcases List.mem_append.mp hp with hp | hp
        · exact ⟨(h.delivered p hp).1, Nat.le_trans (h.delivered p hp).2 hspec.forward⟩
        · have hmem : p ∈ s.receiver.packetList := by
            rw [hspec.split]
            exact List.mem_append_left _ hp
          exact ⟨(h.buffer p hmem).1, hspec.below p hp⟩
      increasing := by
        -- The old packets are up to the number delivered last, and the new ones are after it.
        refine List.pairwise_append.mpr
          ⟨h.increasing, (List.pairwise_append.mp hsorted).1, ?_⟩
        intro p hp q hq
        exact Nat.lt_of_le_of_lt (h.delivered p hp).2 (hspec.above q hq) }

/-! ### Steps and runs -/

/-- The whole `Tick` of the sender is its parts, one after the other. -/
theorem senderTick_eq (s : Link) (now : UInt64) :
    s.senderTick now = ((s.senderTickDeliver now).senderTickDrop now).senderTickRate now := rfl

/-- The whole `Tick` of the receiver is its parts, one after the other. -/
theorem receiverTick_eq (s : Link) (now : UInt64) :
    s.receiverTick now =
      (((s.receiverTickACK now).receiverTickNAK now).receiverTickDeliver now).receiverTickRate
        now := by
  unfold receiverTick Receiver.tick receiverTickRate receiverTickDeliver receiverTickNAK
    receiverTickACK
  rfl

/-- Each step keeps the invariant. -/
theorem Inv.step (hw : Window b s.pushed.length) (h : s.Inv b) {e : Event} {s' : Link}
    (hs : s.step e = some s') : s'.Inv b := by
  cases e with
  | senderPush p =>
    cases hs
    exact h.senderPush hw.wf p
  | senderTickDeliver now =>
    cases hs
    exact h.senderTickDeliver now
  | senderTickDrop now =>
    cases hs
    exact h.senderTickDrop now
  | senderTickRate now =>
    cases hs
    exact h.senderTickRate now
  | senderTick now =>
    cases hs
    rw [senderTick_eq]
    exact ((h.senderTickDeliver now).senderTickDrop now).senderTickRate now
  | senderACK i =>
    obtain ⟨n, hn, rfl⟩ := Option.map_eq_some_iff.mp hs
    exact h.senderACK hw (List.mem_of_getElem? hn)
  | senderNAK i =>
    obtain ⟨ns, -, hnak⟩ := Option.bind_eq_some_iff.mp hs
    exact h.senderNAK hnak
  | receiverPush i pktTsbpdTime =>
    obtain ⟨p, hp, rfl⟩ := Option.map_eq_some_iff.mp hs
    exact h.receiverPush hw (List.mem_of_getElem? hp) pktTsbpdTime
  | receiverTickACK now =>
    cases hs
    exact h.receiverTickACK hw now
  | receiverTickNAK now =>
    cases hs
    exact h.receiverTickNAK now
  | receiverTickDeliver now =>
    cases hs
    exact h.receiverTickDeliver hw now
  | receiverTickRate now =>
    cases hs
    exact h.receiverTickRate now
  | receiverTick now =>
    cases hs
    have h1 := (h.receiverTickACK hw now).receiverTickNAK now
    have hw1 : Window b ((s.receiverTickACK now).receiverTickNAK now).pushed.length := hw
    rw [receiverTick_eq]
    exact (h1.receiverTickDeliver hw1 now).receiverTickRate now

/-- No step takes back a pushed packet. -/
theorem pushed_le_step {e : Event} {s' : Link} (hs : s.step e = some s') :
    s.pushed.length ≤ s'.pushed.length := by
  cases e with
  | senderPush p =>
    cases hs
    show s.pushed.length ≤ (s.pushed ++ [p]).length
    simp
  | senderACK i =>
    obtain ⟨n, -, rfl⟩ := Option.map_eq_some_iff.mp hs
    exact Nat.le_refl _
  | senderNAK i =>
    obtain ⟨ns, -, hnak⟩ := Option.bind_eq_some_iff.mp hs
    obtain ⟨out, -, hout⟩ := Option.bind_eq_some_iff.mp hnak
    cases hout
    exact Nat.le_refl _
  | receiverPush i pktTsbpdTime =>
    obtain ⟨p, -, rfl⟩ := Option.map_eq_some_iff.mp hs
    exact Nat.le_refl _
  | _ =>
    cases hs
    exact Nat.le_refl _

end

theorem isSequenceNumber_initialSequenceNumber (x : UInt32) :
    (initialSequenceNumber x).IsSequenceNumber :=
  isSequenceNumber_new x

theorem window_base (x : UInt32) {k : Nat} (hk : k < 2 ^ 30 - 1) :
    Window (initialSequenceNumber x).dec k :=
  window_of_isSequenceNumber (isSequenceNumber_initialSequenceNumber x).dec hk

/-- The invariant holds in every state of every run with fewer than `2^30 - 1` packets. -/
theorem run_inv {config : Config} {x : UInt32} {events : List Event} {s : Link}
    (h : run step (init config x) events = some s) (hlen : s.pushed.length < 2 ^ 30 - 1) :
    s.Inv (initialSequenceNumber x).dec := by
  refine run_induct
    (fun s => s.pushed.length < 2 ^ 30 - 1 → s.Inv (initialSequenceNumber x).dec) ?_
    (fun _ => inv_init config x) h hlen
  intro s e s' ih hs hlen'
  have hlen := Nat.lt_of_le_of_lt (pushed_le_step hs) hlen'
  exact (ih hlen).step (window_base x hlen) hs

/-! ### What is delivered, and what is freed -/

/-- A list whose elements stand at increasing places of another one is a sublist of it. -/
theorem sublist_of_increasing_index {α β : Type} (f : α → β) (index : α → Nat) (ys : List β) :
    ∀ xs : List α, (∀ x ∈ xs, ys[index x]? = some (f x)) →
      xs.Pairwise (fun x y => index x < index y) → (xs.map f).Sublist ys := by
  intro xs hxs hinc
  have hlt : ∀ x ∈ xs, index x < ys.length := fun x hx =>
    (List.getElem?_eq_some_iff.mp (hxs x hx)).1
  let places : List (Fin ys.length) := xs.pmap (fun x hx => ⟨index x, hx⟩) hlt
  have hplaces : places.Pairwise (· < ·) := hinc.pmap hlt fun x hx y hy hxy => hxy
  have heq : places.map (fun i => ys[i]) = xs.map f := by
    rw [List.map_pmap, ← List.pmap_eq_map hlt]
    refine List.pmap_congr_left xs ?_
    intro x hx _ _
    exact (List.getElem?_eq_some_iff.mp (hxs x hx)).2
  rw [← heq]
  exact List.map_getElem_sublist hplaces

/-- Entry `k` of the pushed labels is the label at offset `k + 1`. -/
theorem getElem?_pushedLabels {s : Link} {x : UInt32} {k : Nat} {q : Packet}
    (hlen : s.pushed.length < 2 ^ 30 - 1) (hq : s.pushed[k]? = some q) :
    (s.pushedLabels x)[k]? = some ((initialSequenceNumber x).dec.plus (k + 1), q.payload) := by
  have hk := (List.getElem?_eq_some_iff.mp hq).1
  have hwf := initialSequenceNumber_wf x
  have hmax := (isSequenceNumber_initialSequenceNumber x).max_toNat
  have hadd : (initialSequenceNumber x).add (UInt32.ofNat k)
      = (initialSequenceNumber x).dec.plus (k + 1) := by
    rw [hwf.add_eq (by omega)]
    conv_lhs => rw [← dec_plus_one hwf]
    rw [plus_plus, Nat.add_comm]
  unfold pushedLabels
  rw [List.getElem?_mapIdx, hq, Option.map_some, hadd]

/-- A run over the wrap. Three packets are pushed from number `2^31 - 1`, the second one is
lost, the third one arrives first and twice, and the ACK that skips the gap reaches the
sender. -/
def lossyRun : List Event :=
  let pkt (payload : Bytes) : Packet := { newPacket none with payload := payload }
  [.senderPush (pkt [1]), .senderPush (pkt [2]), .senderPush (pkt [3]), .senderTick 100,
    .receiverPush 2 60, .receiverPush 0 50, .receiverPush 2 60, .receiverTick 70, .senderACK 0]

/-- The configuration of `lossyRun`. -/
def lossyConfig : Config where
  dropThreshold := 1000
  periodicACKInterval := 10
  periodicNAKInterval := 20

/-- The state at the end of `lossyRun`. -/
def lossyEnd : Link :=
  (run step (init lossyConfig 0x7FFFFFFF) lossyRun).getD (init lossyConfig 0x7FFFFFFF)

/-- In every run with fewer than `2^30 - 1` pushed packets, the receiver delivers a
subsequence of what was pushed. The order is kept, no packet comes twice, and each comes
with its payload and the sequence number it was pushed under. -/
theorem delivered_sublist_pushedLabels (config : Config) (x : UInt32) (events : List Event)
    (s : Link) (h : run step (init config x) events = some s)
    (hlen : s.pushed.length < 2 ^ 30 - 1) :
    (s.delivered.map Packet.label).Sublist (s.pushedLabels x) ∧
      (s.delivered.map Packet.seq).Nodup := by
  have hinv := run_inv h hlen
  have hw := window_base x hlen
  have hmax := hw.lt_max
  constructor
  · -- The place of a delivered packet among the pushed ones is its offset, less one.
    refine sublist_of_increasing_index Packet.label
      (fun p => (initialSequenceNumber x).dec.offset p.seq - 1) _ _ ?_ ?_
    · intro p hp
      obtain ⟨k, q, hq, hl⟩ := (hinv.delivered p hp).1
      have hk := (List.getElem?_eq_some_iff.mp hq).1
      have hseq : p.seq = (initialSequenceNumber x).dec.plus (k + 1) := congrArg Prod.fst hl
      show (s.pushedLabels x)[(initialSequenceNumber x).dec.offset p.seq - 1]? = some p.label
      rw [hseq, offset_plus hw.wf (by omega), Nat.add_sub_cancel, hl]
      exact getElem?_pushedLabels hlen hq
    · refine hinv.increasing.imp_of_mem ?_
      intro p q hp hq hlt
      have hpos := ((hinv.delivered p hp).1.inWindow hw).2
      omega
  · refine List.pairwise_map.mpr (hinv.increasing.imp ?_)
    intro p q hlt he
    rw [he] at hlt
    exact Nat.lt_irrefl _ hlt

/-- In `lossyRun` the packets 1 and 3 are delivered. -/
theorem delivered_lossyEnd : lossyEnd.delivered.map Packet.payload = [[1], [3]] ∧
    (lossyEnd.delivered.map Packet.label).Sublist (lossyEnd.pushedLabels 0x7FFFFFFF) ∧
    (lossyEnd.delivered.map Packet.seq).Nodup :=
  ⟨by decide +kernel, delivered_sublist_pushedLabels lossyConfig 0x7FFFFFFF lossyRun lossyEnd
    (by decide +kernel) (by decide +kernel)⟩

/-- In every run with fewer than `2^30 - 1` pushed packets, each packet that an ACK has
freed at the sender is one that the receiver has acknowledged, and that it received or gave
up. -/
theorem freed_acknowledged (config : Config) (x : UInt32) (events : List Event) (s : Link)
    (h : run step (init config x) events = some s) (hlen : s.pushed.length < 2 ^ 30 - 1) :
    ∀ p ∈ s.freed, p.seq.lte s.receiver.lastACKSequenceNumber = true ∧ s.Accounted p.seq := by
  intro p hp
  have hinv := run_inv h hlen
  have hw := window_base x hlen
  have hnarrow := hw.narrow
  obtain ⟨i, hpos, hle, hseq⟩ := hinv.freed p hp
  have hack := hinv.ordered.lastACK
  have hoff := hack.2
  rw [hseq]
  refine ⟨?_, hinv.accounted i hpos hle⟩
  rw [hack.1, plus_lte_plus hw.wf (by omega) (by omega)]
  exact decide_eq_true hle

/-- In `lossyRun` the sender frees all three packets. The second one was never received. -/
theorem freed_lossyEnd : lossyEnd.freed.map Packet.payload = [[1], [2], [3]] ∧
    lossyEnd.arrived.map Packet.payload = [[3], [1], [3]] ∧
    ∀ p ∈ lossyEnd.freed, p.seq.lte lossyEnd.receiver.lastACKSequenceNumber = true ∧
      lossyEnd.Accounted p.seq :=
  ⟨by decide +kernel, by decide +kernel, freed_acknowledged lossyConfig 0x7FFFFFFF lossyRun
    lossyEnd (by decide +kernel) (by decide +kernel)⟩

end Link

end Gosrt
