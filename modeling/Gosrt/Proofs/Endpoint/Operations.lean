import Gosrt.Proofs.Endpoint.Invariant

/-!
# `Gosrt.Proofs.Endpoint.Operations`: each operation of an end keeps its invariant

One lemma for each operation of `Endpoint`, of the form `Moves`. The operations of the sender use
the lemmas on `pop` (`Gosrt.Proofs.Endpoint.Seal`), those of the receiver the ones on its buffer
(`Gosrt.Proofs.Live.Receive`).
-/

set_option autoImplicit false

namespace Gosrt

open Lib Number

open Link (IsPushed)

/-- `Push` numbers a fresh packet. -/
theorem Sender.push_queued (s : Sender) (p : Packet) :
    ∃ q, (s.push p).packetList = s.packetList ++ [q] ∧
      q.label = (s.nextSequenceNumber, p.payload) ∧ q.header.messageNumber = 1 ∧
      q.header.isControlPacket = p.header.isControlPacket ∧
      q.header.retransmittedPacketFlag = p.header.retransmittedPacketFlag := by
  unfold push
  dsimp only
  split
  · exact ⟨_, rfl, rfl, rfl, rfl, rfl⟩
  · exact ⟨_, rfl, rfl, rfl, rfl, rfl⟩

namespace Endpoint

section
variable {t : Terms} {config : Config} {peer : Peer} {x x' : Endpoint}

/-- An operation on the data of this end that leaves the rest alone. -/
theorem Moves.of_sends {out : List Bytes} (h : x.Local t config peer) (hgrows : x.Grows x')
    (hhs : x'.hsRequests = x.hsRequests)
    (hkm : x'.kmRequests = x.kmRequests) (hread : x'.readSize = x.readSize)
    (hrecv : x'.recv = x.recv) (hreceives : x'.Receives t peer) (hsends : x'.Sends t config)
    (hwire : ∀ m ∈ out, x'.Emits t config m) : Moves t config peer x x' out where
  grows := hgrows
  forward := by
    unfold acked
    rw [hrecv]
  inv :=
    { version := hgrows.same.version.trans h.version
      configured := hgrows.same.config.trans h.configured
      hsRequests := hhs.trans h.hsRequests
      kmRequests := hkm.trans h.kmRequests
      fits := hread ▸ h.fits
      room := hread ▸ h.room
      sends := hsends
      receives := hreceives
      acked_le := Nat.le_trans h.acked_le hgrows.pushed.length_le }
  wire := hwire

/-- The connection changes, but not its ends and its key. -/
theorem connection_moves (h : x.Local t config peer) {c : Connection}
    (hsame : x.conn.SameEnds c.conn) (huses : c.conn.Uses t.cipher x.history.popped) :
    Moves t config peer x { x with connection := c } [] :=
  .of_sends h ⟨hsame, List.prefix_rfl, Nat.le_refl _⟩ rfl rfl rfl rfl { h.receives with }
    { h.sends with uses := huses } (by simp)

/-! ### The sender -/

theorem write_moves (h : x.Local t config peer) {call : Writing.Call}
    (hx : x.write call = some x') : Moves t config peer x x' [] := by
  obtain ⟨w, hw, rfl⟩ := Option.map_eq_some_iff.mp hx
  have hsize : x.writeSize = writeDataLength 5 config := by
    unfold writeSize
    rw [h.version, h.configured]
  rw [hsize] at hw
  refine .of_sends h ⟨.refl _, List.prefix_rfl, Nat.le_refl _⟩ rfl rfl rfl rfl
    { h.receives with } ?_ (by simp)
  exact
    { h.sends with
      enqueued := by
        show x.history.enqueued ++ w.enqueued = x.history.pushed ++ (x.writeQueue ++ w.enqueued)
        rw [h.sends.enqueued, List.append_assoc]
      fresh := fun p hp => (List.mem_append.mp hp).elim (h.sends.fresh p) (fresh_perform hw p) }

theorem sendQueued_moves (h : x.Local t config peer) (hx : x.sendQueued = some x') :
    Moves t config peer x x' [] := by
  unfold sendQueued at hx
  split at hx
  · cases hx
  rename_i p rest hqueue
  cases hx
  have hle : x.history.pushed <+: x.history.pushed ++ [p] := List.prefix_append _ _
  have hfresh := h.sends.fresh p (by rw [hqueue]; exact List.mem_cons_self)
  refine .of_sends h ⟨.refl _, hle, Nat.le_refl _⟩ rfl rfl rfl rfl { h.receives with } ?_ (by simp)
  exact
    { h.sends with
      enqueued := by
        show x.history.enqueued = x.history.pushed ++ [p] ++ rest
        rw [h.sends.enqueued, hqueue, List.append_assoc, List.singleton_append]
      fresh := fun q hq => h.sends.fresh q (by rw [hqueue]; exact List.mem_cons_of_mem p hq)
      next := by
        show x.snd.nextSequenceNumber.inc = t.base.plus ((x.history.pushed ++ [p]).length + 1)
        rw [h.sends.next, inc_plus t.isNumber.wf, List.length_append, List.length_singleton]
      queued := by
        intro q hq
        obtain ⟨q', hlist, hlabel, hmessage, hcontrol, hflag⟩ := x.snd.push_queued p
        change q ∈ (x.snd.push p).packetList at hq
        rw [hlist] at hq
        rcases List.mem_append.mp hq with hq | hq
        · exact (h.sends.queued q hq).mono hle
        · rw [List.mem_singleton.mp hq]
          refine ⟨hcontrol.trans hfresh.control, hmessage, ?_, hflag.trans hfresh.plain, ?_⟩
          · rw [show q'.payload = p.payload from congrArg Prod.snd hlabel]
            exact hfresh.size
          · rw [hlabel, h.sends.next]
            exact Link.isPushed_last t.base x.history.pushed p
      stored := fun q hq => (h.sends.stored q hq).mono hle }

/-- The datagrams of a round of `pop`. -/
theorem emits_of_onWire {sent : List Packet}
    (h : ∀ q ∈ sent, (t.stream config x.history.pushed).OnWire q) :
    ∀ m ∈ datagrams sent, x.Emits t config m := by
  intro m hm
  obtain ⟨q, hq, rfl⟩ := List.mem_map.mp hm
  exact ⟨q, rfl, .data (h q hq)⟩

/-- The sender's packets leave encrypted, with their numbers. -/
theorem sndTickDeliver_moves (h : x.Local t config peer) (now : UInt64) (inputs : List PopInput)
    (hbounded : (x.sndTickDeliver t.prim now inputs).1.Bounded t config) :
    Moves t config peer x (x.sndTickDeliver t.prim now inputs).1
      (x.sndTickDeliver t.prim now inputs).2 := by
  have hqueued : ∀ p ∈ (x.snd.tickDeliver now).2, (t.stream config x.history.pushed).Queued p :=
    fun p hp => h.sends.queued p (Sender.mem_of_mem_tickDeliver hp)
  have hearly : SrtConn.Early t.cipher x.conn.config
      (x.history.popped + (x.snd.tickDeliver now).2.length) := h.configured ▸ hbounded.early
  obtain ⟨hpops, hcarries⟩ := Stream.popDue_spec (s := t.stream config x.history.pushed)
    (x.snd.tickDeliver now).2 inputs h.sends.uses hearly hqueued
  have huses := hpops.uses
  rw [List.length_map] at huses
  refine .of_sends h ⟨hpops.same, List.prefix_rfl, Nat.le_add_right _ _⟩ rfl rfl rfl rfl
    { h.receives with } ?_ (emits_of_onWire hpops.onWire)
  exact
    { h.sends with
      uses := huses
      queued := fun p hp => h.sends.queued p ((List.dropWhile_sublist _).subset hp)
      stored := fun p hp =>
        (List.mem_append.mp hp).elim (h.sends.stored p) (hcarries p) }

theorem sndTickDrop_moves (h : x.Local t config peer) (now : UInt64) :
    Moves t config peer x (x.sndTickDrop now) [] := by
  refine .of_sends h ⟨.refl _, List.prefix_rfl, Nat.le_refl _⟩ rfl rfl rfl rfl
    { h.receives with } ?_ (by simp)
  exact { h.sends with stored := fun p hp => h.sends.stored p (List.mem_filter.mp hp).1 }

theorem sndTickRate_moves (h : x.Local t config peer) (now : UInt64) :
    Moves t config peer x (x.sndTickRate now) [] := by
  obtain ⟨hqueued, hstored, hnext⟩ := Sender.tickRate_eq x.snd now
  refine .of_sends h ⟨.refl _, List.prefix_rfl, Nat.le_refl _⟩ rfl rfl rfl rfl
    { h.receives with } ?_ (by simp)
  exact
    { h.sends with
      next := hnext.trans h.sends.next
      queued := fun p hp => h.sends.queued p (hqueued ▸ hp)
      stored := fun p hp => h.sends.stored p (hstored ▸ hp) }

/-- `snd.ACK` of a number that the other end has sent: it frees only what that end has
acknowledged. -/
theorem ack_moves (h : x.Local t config peer) (hbounded : x.Bounded t config) {n : Number}
    (hn : ∃ i ≤ peer.acked, n = t.base.plus (i + 1)) : Moves t config peer x (x.ack n) [] := by
  have hw : Window t.base x.history.pushed.length :=
    window_of_isSequenceNumber t.isNumber hbounded.pushed
  refine .of_sends h ⟨.refl _, List.prefix_rfl, Nat.le_refl _⟩ rfl rfl rfl rfl ?_ ?_ (by simp)
  · exact
      { h.receives with
        freed := by
          intro p hp
          rcases List.mem_append.mp hp with hp | hp
          · exact h.receives.freed p hp
          obtain ⟨hmem, hlt⟩ := Sender.mem_ack hp
          obtain ⟨i, hi, rfl⟩ := hn
          -- Both numbers are in the window of the pushed packets.
          obtain ⟨hwin, hpos⟩ := (h.sends.stored p hmem).inWindow hw
          have hle := h.acked_le
          have hnarrow := hw.narrow
          have hoff : t.base.offset p.seq ≤ x.history.pushed.length := hwin.2
          have hseq : p.seq = t.base.plus (t.base.offset p.seq) := hwin.1
          have hpos : 0 < t.base.offset p.seq := hpos
          rw [hseq, plus_lt_plus hw.wf (by omega) (by omega), decide_eq_true_eq] at hlt
          exact ⟨t.base.offset p.seq, hpos, by omega, hseq⟩ }
  · exact
      { h.sends with
        stored := fun p hp => h.sends.stored p ((List.dropWhile_sublist _).subset hp) }

/-- `snd.NAK` of any numbers. -/
theorem nak_moves (h : x.Local t config peer) {ns : List Number} {inputs : List PopInput}
    {out : List Bytes} (hx : x.nak t.prim ns inputs = some (x', out))
    (hbounded : x'.Bounded t config) : Moves t config peer x x' out := by
  unfold nak at hx
  split at hx
  · cases hx
    exact .refl h
  rename_i hne
  simp only [Option.bind_eq_bind, Option.bind_eq_some_iff, Option.pure_def, Option.some.injEq,
    Prod.mk.injEq] at hx
  obtain ⟨⟨snd, resent⟩, hnak, ⟨conn, lossList, sent, rest⟩, hresend, rfl, rfl⟩ := hx
  obtain ⟨hqueue, hnext, -⟩ := Sender.nak_spec hnak
  unfold Sender.nak at hnak
  rw [if_neg hne] at hnak
  simp only [Option.bind_eq_bind, Option.bind_eq_some_iff, Option.pure_def, Option.some.injEq,
    Prod.mk.injEq] at hnak
  obtain ⟨⟨flagged, resent'⟩, hloop, -, rfl⟩ := hnak
  have hearly : SrtConn.Early t.cipher x.conn.config (x.history.popped + resent'.length) :=
    h.configured ▸ hbounded.early
  obtain ⟨hpops, hcarries⟩ := Stream.resend_spec (s := t.stream config x.history.pushed)
    x.snd.lossList h.sends.uses hloop hearly h.sends.stored hresend
  have huses := hpops.uses
  rw [List.length_map] at huses
  refine .of_sends h ⟨hpops.same, List.prefix_rfl, Nat.le_add_right _ _⟩ rfl rfl rfl rfl
    { h.receives with } ?_ (emits_of_onWire hpops.onWire)
  exact
    { h.sends with
      uses := huses
      next := hnext.trans h.sends.next
      queued := fun p hp => h.sends.queued p (hqueue ▸ hp)
      stored := hcarries }

/-! ### The receiver -/

/-- A control packet of this end. -/
theorem emits_controlPacket {controlType : CtrlType} {typeSpecific timestamp : UInt32}
    {payload : Bytes}
    (htype : controlType ∈ [CtrlType.nak, CtrlType.shutdown, CtrlType.ackack]) (c : SrtConn) :
    x.Emits t config
      (c.controlPacket controlType .none typeSpecific timestamp payload).marshal :=
  ⟨_, rfl, .other rfl htype⟩

/-- An operation on the data of the other end that leaves the rest alone. -/
theorem Moves.of_receives {out : List Bytes} (h : x.Local t config peer)
    (hconn : x'.conn = x.conn) (hhs : x'.hsRequests = x.hsRequests)
    (hkm : x'.kmRequests = x.kmRequests) (hread : x'.readSize = x.readSize)
    (hsends : x'.Sends t config) (hpushed : x'.history.pushed = x.history.pushed)
    (hpopped : x'.history.popped = x.history.popped) (hforward : x.acked t ≤ x'.acked t)
    (hreceives : x'.Receives t peer) (hwire : ∀ m ∈ out, x'.Emits t config m) :
    Moves t config peer x x' out where
  grows := ⟨.of_eq hconn, hpushed ▸ List.prefix_rfl, Nat.le_of_eq hpopped.symm⟩
  forward := hforward
  inv :=
    { version := (congrArg SrtConn.version hconn).trans h.version
      configured := (congrArg SrtConn.config hconn).trans h.configured
      hsRequests := hhs.trans h.hsRequests
      kmRequests := hkm.trans h.kmRequests
      fits := hread ▸ h.fits
      room := hread ▸ h.room
      sends := hsends
      receives := hreceives
      acked_le := hpushed ▸ h.acked_le }
  wire := hwire

/-- A number that was accounted for stays so. -/
theorem Accounted.mono {n : Number} (h : x.Accounted n)
    (harrived : ∀ p ∈ x.history.arrived, p ∈ x'.history.arrived)
    (hticks : ∀ tick ∈ x.history.ticks, tick ∈ x'.history.ticks) : x'.Accounted n := by
  rcases h with ⟨p, hp, he⟩ | ⟨tick, htick, hq⟩
  · exact Or.inl ⟨p, harrived p hp, he⟩
  · exact Or.inr ⟨tick, hticks tick htick, hq⟩

/-- `recv.Push` of a packet that the other end pushed. -/
theorem push_moves (h : x.Local t config peer) (hwindow : Window t.base peer.pushed.length)
    {p : Packet} (hp : IsPushed t.base peer.pushed p.label) (timestamp : UInt32) :
    Moves t config peer x (x.push p timestamp).1 (x.push p timestamp).2 := by
  have hin := (hp.inWindow hwindow).1
  have ho := Receiver.push_cases hwindow h.receives.ordered hin
  have hack : (x.push p timestamp).1.acked t = x.acked t :=
    congrArg t.base.offset (Receiver.push_lastACKSequenceNumber x.recv p)
  refine .of_receives h rfl rfl rfl rfl { h.sends with } rfl rfl (Nat.le_of_eq hack.symm) ?_ ?_
  · exact
      { h.receives with
        ordered := h.receives.ordered.push hwindow hin
        buffer := by
          intro q hq
          rcases ho.mem q hq with hq | rfl
          · exact ⟨(h.receives.buffer q hq).1, List.mem_append_left _ (h.receives.buffer q hq).2⟩
          · exact ⟨hp, List.mem_append_right _ (List.mem_singleton.mpr rfl)⟩
        delivered := by
          show ∀ q ∈ x.history.delivered, _ ∧
            _ ≤ t.base.offset (x.recv.push p).1.lastDeliveredSequenceNumber
          rw [Receiver.push_lastDeliveredSequenceNumber]
          exact h.receives.delivered
        accounted := by
          rw [hack]
          intro i hpos hle
          exact (h.receives.accounted i hpos hle).mono (fun q hq => List.mem_append_left _ hq)
            (fun tick htick => htick) }
  · intro m hm
    unfold Endpoint.push at hm
    dsimp only at hm
    split at hm
    · cases hm
    · obtain rfl : m = _ := List.mem_singleton.mp hm
      exact emits_controlPacket (by decide) _

/-- The ACK part of `recv.Tick`. -/
theorem recvTickACK_moves (h : x.Local t config peer)
    (hwindow : Window t.base peer.pushed.length) (now : UInt64) (report : AckReport)
    (timestamp : UInt32) (clock : Int) :
    Moves t config peer x (x.recvTickACK now report timestamp clock).1
      (x.recvTickACK now report timestamp clock).2 := by
  have hspec := Receiver.periodicACK_spec hwindow h.receives.ordered now
  set r := (x.recv.periodicACK now).1 with hr
  -- First the receiver moves on, then the packet is made.
  have hmoved : Moves t config peer x
      { x with
        recv := r
        history := { x.history with ticks := x.history.ticks ++ [(now, x.recv.packetList)] } }
      [] := by
    refine .of_receives h rfl rfl rfl rfl { h.sends with } rfl rfl hspec.forward ?_ (by simp)
    exact
      { h.receives with
        ordered := hspec.ordered
        buffer := fun p hp => h.receives.buffer p (hspec.packetList ▸ hp)
        delivered := by
          show ∀ q ∈ x.history.delivered, _ ∧ _ ≤ t.base.offset r.lastDeliveredSequenceNumber
          rw [hspec.lastDelivered]
          exact h.receives.delivered
        accounted := by
          intro i hpos hle
          -- As for `Link`: old numbers keep their reason, and the loop gives one for the new ones.
          by_cases hold : i ≤ x.acked t
          · exact (h.receives.accounted i hpos hold).mono (fun p hp => hp)
              (fun tick htick => List.mem_append_left _ htick)
          rcases hspec.covered i (Nat.lt_of_not_le hold) hle with ⟨p, hp, he⟩ | ⟨q, hq, hlt, hdue⟩
          · refine Or.inl ⟨p, (h.receives.buffer p hp).2, ?_⟩
            rw [← he]
            exact (h.receives.ordered.packets p hp).1
          · refine Or.inr ⟨(now, x.recv.packetList),
              List.mem_append_right _ (List.mem_singleton.mpr rfl), q, hq, ?_, hdue⟩
            have hqw := h.receives.ordered.packets q hq
            have hoff := hqw.2
            have hnarrow := hwindow.narrow
            rw [hqw.1, plus_lt_plus hwindow.wf (by omega) (by omega)]
            exact decide_eq_true hlt }
  unfold recvTickACK
  dsimp only
  cases hack : (x.recv.periodicACK now).2 with
  | none => exact hmoved
  | some ack =>
    obtain ⟨seq, lite⟩ := ack
    have hconn := x.connection.sendACK_conn seq lite report timestamp clock
    have hnext := connection_moves hmoved.inv
      (c := (x.connection.sendACK seq lite report timestamp clock).1) (.of_eq hconn)
      (hconn.symm ▸ h.sends.uses)
    refine ⟨hmoved.grows.trans hnext.grows, Nat.le_trans hmoved.forward hnext.forward,
      hnext.inv, ?_⟩
    intro m hm
    obtain rfl : m = _ := List.mem_singleton.mp hm
    -- The number is the one after the acknowledged one.
    have hseq : seq = r.lastACKSequenceNumber.inc := hspec.sent seq (by rw [hack]; rfl)
    have hnumber : seq.IsSequenceNumber := by
      rw [hseq]
      exact (t.isNumber.of_inWindow hspec.ordered.lastACK).inc
    refine ⟨_, rfl, .ack rfl rfl (CIFACK.length_marshal_le _) ?_⟩
    intro cif hcif
    have hlast : (x.connection.ackCIF seq lite report).lastACKPacketSequenceNumber = seq := by
      unfold Connection.ackCIF
      cases lite with
      | true => rfl
      | false => rfl
    rw [← hlast] at hnumber
    have hvalue : cif.lastACKPacketSequenceNumber
        = t.base.plus (t.base.offset r.lastACKSequenceNumber + 1) := by
      rw [← Except.ok.inj ((CIFACK.unmarshal_marshal hnumber).symm.trans hcif),
        CIFACK.carried_number, hlast, hseq, ← inc_plus t.isNumber.wf]
      exact congrArg Number.inc hspec.ordered.lastACK.1
    exact ⟨_, Nat.le_refl _, hvalue⟩

/-- A receiver that differs in its counters and intervals only. -/
theorem recv_moves (h : x.Local t config peer) {r : Receiver}
    (hmax : r.maxSeenSequenceNumber = x.recv.maxSeenSequenceNumber)
    (hack : r.lastACKSequenceNumber = x.recv.lastACKSequenceNumber)
    (hdel : r.lastDeliveredSequenceNumber = x.recv.lastDeliveredSequenceNumber)
    (hlist : r.packetList = x.recv.packetList) :
    Moves t config peer x { x with recv := r } [] := by
  have hacked : Endpoint.acked t { x with recv := r } = x.acked t := congrArg t.base.offset hack
  refine .of_receives h rfl rfl rfl rfl { h.sends with } rfl rfl (Nat.le_of_eq hacked.symm) ?_
    (by simp)
  exact
    { h.receives with
      ordered := h.receives.ordered.of_eq hmax hack hdel hlist
      buffer := fun p hp => h.receives.buffer p (hlist ▸ hp)
      delivered := by
        show ∀ q ∈ x.history.delivered, _ ∧ _ ≤ t.base.offset r.lastDeliveredSequenceNumber
        rw [hdel]
        exact h.receives.delivered
      accounted := by
        rw [hacked]
        exact h.receives.accounted }

/-- A NAK that is sent names packets of the peer. -/
theorem recvTickNAK_moves (h : x.Local t config peer) (now : UInt64) (timestamp : UInt32) :
    Moves t config peer x (x.recvTickNAK now timestamp).1 (x.recvTickNAK now timestamp).2 := by
  have hmoved : Moves t config peer x { x with recv := (x.recv.periodicNAK now).1 } [] := by
    unfold Receiver.periodicNAK
    split
    · exact .refl h
    · exact recv_moves h rfl rfl rfl rfl
  refine ⟨hmoved.grows, hmoved.forward, hmoved.inv, ?_⟩
  intro m hm
  unfold recvTickNAK at hm
  dsimp only at hm
  split at hm
  · cases hm
  · obtain rfl : m = _ := List.mem_singleton.mp hm
    exact emits_controlPacket (by decide) _

theorem recvTickRate_moves (h : x.Local t config peer) (now : UInt64) :
    Moves t config peer x (x.recvTickRate now) [] := by
  unfold recvTickRate Receiver.tickRate
  split
  · exact recv_moves h rfl rfl rfl rfl
  · exact recv_moves h rfl rfl rfl rfl

/-- The delivery part of `recv.Tick`. What it hands over comes after all that was delivered
before. -/
theorem recvTickDeliver_moves (h : x.Local t config peer)
    (hwindow : Window t.base peer.pushed.length) (now : UInt64) (keeps : List Bool) :
    Moves t config peer x (x.recvTickDeliver now keeps) [] := by
  have hspec := Receiver.tickDeliver_spec hwindow h.receives.ordered now
  have hacked : (x.recvTickDeliver now keeps).acked t = x.acked t :=
    congrArg t.base.offset hspec.lastACK
  have hnew : ∀ p ∈ (x.recv.tickDeliver now).2, p ∈ x.recv.packetList := fun p hp => by
    rw [hspec.split]
    exact List.mem_append_left _ hp
  have hsorted := h.receives.ordered.sorted
  unfold Increasing at hsorted
  rw [hspec.split] at hsorted
  refine .of_receives h rfl rfl rfl rfl { h.sends with } rfl rfl (Nat.le_of_eq hacked.symm) ?_
    (by simp)
  exact
    { h.receives with
      ordered := hspec.ordered
      buffer := fun p hp => h.receives.buffer p (by
        rw [hspec.split]
        exact List.mem_append_right _ hp)
      delivered := by
        intro p hp
        rcases List.mem_append.mp hp with hp | hp
        · exact ⟨(h.receives.delivered p hp).1,
            Nat.le_trans (h.receives.delivered p hp).2 hspec.forward⟩
        · exact ⟨(h.receives.buffer p (hnew p hp)).1, hspec.below p hp⟩
      increasing := by
        refine List.pairwise_append.mpr
          ⟨h.receives.increasing, (List.pairwise_append.mp hsorted).1, ?_⟩
        intro p hp q hq
        exact Nat.lt_of_le_of_lt (h.receives.delivered p hp).2 (hspec.above q hq)
      reading := h.receives.reading.deliverAll _ keeps
      accounted := by
        rw [hacked]
        exact h.receives.accounted }

/-- A read takes the next bytes of the stream. -/
theorem read_moves (h : x.Local t config peer) {n : Nat} {fromQueue : Bool}
    (hx : x.read n fromQueue = some x') : Moves t config peer x x' [] := by
  simp only [Endpoint.read, Option.bind_eq_bind, Option.bind_eq_some_iff, Option.pure_def,
    Option.some.injEq] at hx
  obtain ⟨⟨reading, result⟩, hread, rfl⟩ := hx
  refine .of_receives h rfl rfl rfl rfl { h.sends with } rfl rfl (Nat.le_refl _) ?_ (by simp)
  exact { h.receives with reading := h.receives.reading.read hread }

theorem readPacket_moves (h : x.Local t config peer) {fromQueue : Bool}
    (hx : x.readPacket fromQueue = some x') : Moves t config peer x x' [] := by
  simp only [Endpoint.readPacket, Option.bind_eq_bind, Option.bind_eq_some_iff, Option.pure_def,
    Option.some.injEq] at hx
  obtain ⟨⟨reading, result⟩, hread, rfl⟩ := hx
  refine .of_receives h rfl rfl rfl rfl { h.sends with } rfl rfl (Nat.le_refl _) ?_ (by simp)
  exact { h.receives with reading := h.receives.reading.readPacket hread }

/-- A datagram of the other end arrives. -/
theorem receive_moves (h : x.Local t config peer) {m : Bytes} {p : Packet} (hm : m = p.marshal)
    (hp : Datagram (t.stream peer.config peer.pushed) peer.acked p) (toQueue : Bool) :
    Moves t config peer x (x.receive m toQueue) [] := by
  unfold receive
  cases hdecode : x.decode m with
  | error e => exact .refl h
  | ok r =>
    dsimp only
    split
    · exact .refl h
    subst hm
    have hr := hp.decode h.fits h.room hdecode
    refine .of_receives h rfl rfl rfl rfl { h.sends with } rfl rfl (Nat.le_refl _) ?_ (by simp)
    refine { h.receives with network := ?_ }
    intro q hq
    rcases mem_offer hq with hq | rfl
    · exact h.receives.network q hq
    · exact hr

/-! ### Closing -/

theorem close_moves (h : x.Local t config peer) (timestamp : UInt32) :
    Moves t config peer x (x.close timestamp).1 (x.close timestamp).2 := by
  unfold close
  split
  · refine .of_receives h rfl rfl rfl rfl { h.sends with } rfl rfl (Nat.le_refl _)
      { h.receives with } ?_
    intro m hm
    obtain rfl : m = _ := List.mem_singleton.mp hm
    exact emits_controlPacket (by decide) _
  · exact .refl h

theorem closing_moves (h : x.Local t config peer) (hx : x.closing = some x') :
    Moves t config peer x x' [] := by
  unfold closing at hx
  split at hx
  · cases hx
  · cases hx
  · cases hx
    refine .of_receives h rfl rfl rfl rfl { h.sends with } rfl rfl (Nat.le_refl _) ?_ (by simp)
    exact { h.receives with reading := h.receives.reading }
  · cases hx
    refine .of_sends h ⟨.refl _, List.prefix_rfl, Nat.le_refl _⟩ rfl rfl rfl rfl
      { h.receives with } ?_ (by simp)
    exact
      { h.sends with
        queued := fun p hp => by cases hp
        stored := fun p hp => by cases hp }
  · cases hx
    refine .of_receives h rfl rfl rfl rfl { h.sends with } rfl rfl (Nat.le_refl _) ?_ (by simp)
    exact
      { h.receives with
        ordered := h.receives.ordered.flush
        buffer := fun p hp => by cases hp }

end

end Endpoint

end Gosrt
