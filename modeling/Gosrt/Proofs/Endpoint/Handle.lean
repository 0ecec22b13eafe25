import Gosrt.Proofs.Endpoint.Operations

/-!
# `Gosrt.Proofs.Endpoint.Handle`: packets of the other end are handled

A datagram of the other end makes `handlePacket` ask for little (`Expected`): a data packet is
decrypted to the packet that was pushed, an ACK carries a number that the other end has
acknowledged, and the rest does not concern the data. Each of these keeps the invariant, and so does
a list of them.

`act_moves` and `receive_moves` together are all that an end can do.
-/

set_option autoImplicit false

namespace Gosrt

open Lib Number

open Link (IsPushed)

/-! ### What is asked for -/

/-- What a datagram of the other end can make `handlePacket` ask for. -/
inductive Expected (t : Terms) (peer : Peer) : Output → Prop where
  | send (p : Packet) (hcontrol : p.header.isControlPacket = true)
      (htype : p.header.controlType = .ackack) : Expected t peer (.send p)
  | push (p : Packet) (hp : IsPushed t.base peer.pushed p.label) : Expected t peer (.push p)
  | ack (n : Number) (hn : ∃ i ≤ peer.acked, n = t.base.plus (i + 1)) : Expected t peer (.ack n)
  | nak (ns : List Number) : Expected t peer (.nak ns)
  | recalculateRTT (rtt : Int) : Expected t peer (.recalculateRTT rtt)
  | setNAKInterval : Expected t peer .setNAKInterval
  | close : Expected t peer (.effect .close)

section
variable {t : Terms} {peer : Peer} {sort : SortSlice} {c c' : Connection} {p : Packet}
  {i : HandleInputs} {outputs : List Output} {popped : Nat}

/-- A connection that uses the cipher gets the pushed payload back. -/
theorem decrypt_label (huses : c.conn.Uses t.cipher popped)
    (hp : (t.stream peer.config peer.pushed).OnWire p) :
    IsPushed t.base peer.pushed (c.decrypt t.prim p).2.label := by
  obtain ⟨payload, hpushed, hsealed⟩ := hp.sealed
  change p.payload = sealPayload t.prim t.cipher p.seq.val payload at hsealed
  have hkey : ∀ k ∈ t.cipher, p.header.keyBaseEncryptionFlag = k.key := hp.key
  suffices hplain : (c.decrypt t.prim p).2.label = (p.seq, payload) by
    rw [hplain]
    exact hpushed
  unfold Connection.decrypt
  cases hcipher : t.cipher with
  | none =>
    rw [hcipher] at huses hsealed
    rw [show c.conn.crypto = none from huses]
    exact Prod.ext rfl hsealed
  | some k =>
    rw [hcipher] at huses hsealed
    obtain ⟨crypto, hcrypto, hsalt, hsek⟩ := huses.crypto
    have hflag := hkey k hcipher
    have hencrypted : p.header.keyBaseEncryptionFlag ≠ .unencryptedPacket := by
      rw [hflag]
      rcases huses.single with h | h <;> rw [h] <;> decide
    rw [hcrypto]
    dsimp only
    rw [if_neg hencrypted, hflag]
    unfold Crypto.encryptOrDecryptPayload
    rw [hsek, hsealed, hsalt]
    -- Both ends use one key stream, so it cancels.
    exact Prod.ext rfl (Crypto.crypt_crypt t.prim k.salt k.sek p.seq.val payload)

/-- What `handlePacket` does with a datagram of the other end. -/
structure Replies (t : Terms) (peer : Peer) (c c' : Connection) (outputs : List Output) :
    Prop where
  conn : ∃ n, c'.conn = { c.conn with pktRecvInvalid := n }
  outputs : ∀ o ∈ outputs, Expected t peer o

/-- A data packet of the peer is decrypted and pushed as one of its packets. -/
theorem handleData_replies (huses : c.conn.Uses t.cipher popped)
    (hp : (t.stream peer.config peer.pushed).OnWire p) :
    Replies t peer c (c.handleData t.prim p).1 (c.handleData t.prim p).2 := by
  obtain ⟨n, hconn, -⟩ := c.handleData_onlyCounts t.prim p
  refine ⟨⟨n, hconn⟩, ?_⟩
  have hmessage : p.header.messageNumber ≠ 0 := by
    rw [hp.message]
    decide
  unfold Connection.handleData
  rw [if_neg hmessage]
  intro o ho
  obtain rfl : o = _ := List.mem_singleton.mp ho
  -- The wrapping period and the time of the packet do not matter for its payload.
  have huses' : (c.updateWrapPeriod p.header.timestamp).conn.Uses t.cipher popped := by
    rw [(c.updateWrapPeriod_fields p.header.timestamp).1]
    exact huses
  exact .push _ (decrypt_label huses' ⟨⟨hp.control, hp.message, hp.size, hp.sealed⟩, hp.key⟩)

/-- An ACK of the peer acknowledges what the peer has. -/
theorem handleACK_replies (hnumber : ∀ cif, CIFACK.unmarshal p.payload = .ok cif →
      ∃ i ≤ peer.acked, cif.lastACKPacketSequenceNumber = t.base.plus (i + 1))
    (timestamp : UInt32) (h : c.handleACK p timestamp = .ok (c', outputs)) :
    Replies t peer c c' outputs := by
  obtain ⟨n, hconn, -⟩ := Connection.handleACK_onlyCounts h
  refine ⟨⟨n, hconn⟩, ?_⟩
  obtain ⟨cif, hcif, h⟩ := bind_eq_ok_iff.mp h
  cases cif with
  | none =>
    cases h
    exact fun o ho => by cases ho
  | some cif =>
    have hack := hnumber cif (eq_ok_of_attempt hcif)
    dsimp only at h
    split at h
    · cases h
      intro o ho
      obtain rfl : o = _ := List.mem_singleton.mp ho
      exact .ack _ hack
    · cases h
      intro o ho
      simp only [List.mem_cons, List.not_mem_nil, or_false] at ho
      rcases ho with rfl | rfl | rfl
      · exact .ack _ hack
      · exact .recalculateRTT _
      · exact .send _ rfl rfl

/-- Whatever the peer has on the wire, handling it asks only for effects that are expected. -/
theorem handlePacket_replies (huses : c.conn.Uses t.cipher popped)
    (hp : Datagram (t.stream peer.config peer.pushed) peer.acked p)
    (h : c.handlePacket t.prim sort p i = .ok (c', outputs)) : Replies t peer c c' outputs := by
  unfold Connection.handlePacket at h
  cases hp with
  | data hp =>
    rw [hp.control, if_neg Bool.false_ne_true] at h
    obtain ⟨rfl, rfl⟩ := Prod.ext_iff.mp (Except.ok.inj h)
    exact handleData_replies huses hp
  | ack hcontrol htype hlength hnumber =>
    rw [if_pos hcontrol] at h
    unfold Connection.handleControl at h
    rw [htype, if_neg (by decide), if_neg (by decide), if_neg (by decide), if_pos rfl] at h
    exact handleACK_replies hnumber i.timestamp h
  | other hcontrol htype =>
    rw [if_pos hcontrol] at h
    unfold Connection.handleControl at h
    simp only [List.mem_cons, List.not_mem_nil, or_false] at htype
    rcases htype with htype | htype | htype
    · rw [htype, if_neg (by decide), if_neg (by decide), if_pos rfl] at h
      obtain ⟨n, hconn, -⟩ := Connection.handleNAK_onlyCounts h
      refine ⟨⟨n, hconn⟩, ?_⟩
      obtain ⟨cif, -, h⟩ := bind_eq_ok_iff.mp h
      cases cif with
      | none =>
        cases h
        exact fun o ho => by cases ho
      | some cif =>
        cases h
        exact fun o ho => List.mem_singleton.mp ho ▸ .nak _
    · rw [htype, if_neg (by decide), if_pos rfl] at h
      cases h
      exact ⟨⟨_, rfl⟩, fun o ho => List.mem_singleton.mp ho ▸ .close⟩
    · rw [htype, if_neg (by decide), if_neg (by decide), if_neg (by decide), if_neg (by decide),
        if_pos rfl] at h
      obtain ⟨rfl, rfl⟩ := Prod.ext_iff.mp (Except.ok.inj h)
      obtain ⟨n, hconn, -⟩ := c.handleACKACK_onlyCounts p i.now
      refine ⟨⟨n, hconn⟩, ?_⟩
      unfold Connection.handleACKACK
      dsimp only
      split
      · intro o ho
        simp only [List.mem_cons, List.not_mem_nil, or_false] at ho
        rcases ho with rfl | rfl
        · exact .recalculateRTT _
        · exact .setNAKInterval
      · exact fun o ho => List.mem_singleton.mp ho ▸ .setNAKInterval

end

namespace Endpoint

/-! ### What is kept -/

section
variable {t : Terms} {config : Config} {peer : Peer} {sort : SortSlice} {x x' : Endpoint}
  {out : List Bytes}

/-- An expected effect keeps the invariant, and what it sends is in order. -/
theorem perform_moves (h : x.Local t config peer) (hwindow : Window t.base peer.pushed.length)
    {inputs : Inputs} {o : Output} (ho : Expected t peer o)
    (hx : x.perform t.prim inputs o = some (x', out)) (hbounded : x'.Bounded t config) :
    Moves t config peer x x' out := by
  cases ho with
  | send p hcontrol htype =>
    cases hx
    refine ⟨.refl x, Nat.le_refl _, h, ?_⟩
    intro m hm
    obtain rfl : m = _ := List.mem_singleton.mp hm
    exact ⟨p, rfl, .other hcontrol (by rw [htype]; decide)⟩
  | push p hp =>
    obtain ⟨rfl, rfl⟩ := Prod.ext_iff.mp (Option.some.inj hx)
    exact push_moves h hwindow hp inputs.handle.timestamp
  | ack n hn =>
    cases hx
    exact ack_moves h ⟨hbounded.pushed, hbounded.early⟩ hn
  | nak ns => exact nak_moves h hx hbounded
  | recalculateRTT rtt =>
    cases hx
    exact .refl h
  | setNAKInterval =>
    cases hx
    exact recv_moves h rfl rfl rfl rfl
  | close =>
    obtain ⟨rfl, rfl⟩ := Prod.ext_iff.mp (Option.some.inj hx)
    exact close_moves h inputs.handle.timestamp

/-- Each packet of an answer is handled before the next one. -/
theorem performAll_moves (hwindow : Window t.base peer.pushed.length) {inputs : Inputs}
    (outputs : List Output) :
    ∀ {x : Endpoint} {out : List Bytes}, x.Local t config peer →
      (∀ o ∈ outputs, Expected t peer o) →
      x.performAll t.prim inputs outputs = some (x', out) → x'.Bounded t config →
      Moves t config peer x x' out := by
  induction outputs with
  | nil =>
    intro x out h _ hx _
    cases hx
    exact .refl h
  | cons o outputs ih =>
    intro x out h ho hx hbounded
    obtain ⟨⟨x₁, sent⟩, hfirst, hx⟩ := Option.bind_eq_some_iff.mp hx
    obtain ⟨⟨x₂, sent'⟩, hrest, hx⟩ := Option.bind_eq_some_iff.mp hx
    cases hx
    obtain ⟨hhead, htail⟩ := List.forall_mem_cons.mp ho
    have hmoved := perform_moves h hwindow hhead hfirst
      (hbounded.of_grows (performAll_steady outputs hrest).toGrows)
    exact hmoved.trans (ih hmoved.inv htail hrest hbounded)

/-- Handling a packet from the network queue keeps the invariant. -/
theorem handle_moves (h : x.Local t config peer) (hwindow : Window t.base peer.pushed.length)
    {inputs : Inputs} (hx : x.handle t.prim sort inputs = some (x', out))
    (hbounded : x'.Bounded t config) : Moves t config peer x x' out := by
  unfold handle at hx
  split at hx
  · cases hx
  rename_i p rest hqueue
  split at hx
  · cases hx
  rename_i c outputs hhandle
  obtain ⟨⟨n, hconn⟩, houtputs⟩ := handlePacket_replies h.sends.uses
    (h.receives.network p (by rw [hqueue]; exact List.mem_cons_self)) hhandle
  -- The packet leaves the queue, and the connection counts.
  have htaken : Moves t config peer x { x with networkQueue := rest } [] := by
    refine .of_receives h rfl rfl rfl rfl { h.sends with } rfl rfl (Nat.le_refl _) ?_ (by simp)
    exact { h.receives with
      network := fun q hq => h.receives.network q (by
        rw [hqueue]
        exact List.mem_cons_of_mem p hq) }
  have hsame : x.conn.SameEnds c.conn := by
    rw [hconn]
    exact ⟨rfl, rfl, rfl, rfl, rfl, rfl, rfl⟩
  have huses : c.conn.Uses t.cipher x.history.popped := by
    rw [hconn]
    exact h.sends.uses.of_eq rfl rfl rfl rfl rfl
  have hcounted := connection_moves htaken.inv (c := c) hsame huses
  exact (htaken.trans hcounted).trans
    (performAll_moves hwindow outputs hcounted.inv houtputs hx hbounded)

/-- Whatever an end does on its own keeps the invariant. -/
theorem act_moves (h : x.Local t config peer) (hwindow : Window t.base peer.pushed.length)
    {e : Event} (hx : x.act t.prim sort e = some (x', out)) (hbounded : x'.Bounded t config) :
    Moves t config peer x x' out := by
  cases e with
  | write call =>
    obtain ⟨y, hy, heq⟩ := Option.map_eq_some_iff.mp hx
    cases heq
    exact write_moves h hy
  | sendQueued =>
    obtain ⟨y, hy, heq⟩ := Option.map_eq_some_iff.mp hx
    cases heq
    exact sendQueued_moves h hy
  | sndTickDeliver now inputs =>
    obtain ⟨rfl, rfl⟩ := Prod.ext_iff.mp (Option.some.inj hx)
    exact sndTickDeliver_moves h now inputs hbounded
  | sndTickDrop now =>
    cases hx
    exact sndTickDrop_moves h now
  | sndTickRate now =>
    cases hx
    exact sndTickRate_moves h now
  | handle inputs => exact handle_moves h hwindow hx hbounded
  | recvTickACK now report timestamp clock =>
    obtain ⟨rfl, rfl⟩ := Prod.ext_iff.mp (Option.some.inj hx)
    exact recvTickACK_moves h hwindow now report timestamp clock
  | recvTickNAK now timestamp =>
    obtain ⟨rfl, rfl⟩ := Prod.ext_iff.mp (Option.some.inj hx)
    exact recvTickNAK_moves h now timestamp
  | recvTickDeliver now keeps =>
    cases hx
    exact recvTickDeliver_moves h hwindow now keeps
  | recvTickRate now =>
    cases hx
    exact recvTickRate_moves h now
  | read n fromQueue =>
    obtain ⟨y, hy, heq⟩ := Option.map_eq_some_iff.mp hx
    cases heq
    exact read_moves h hy
  | readPacket fromQueue =>
    obtain ⟨y, hy, heq⟩ := Option.map_eq_some_iff.mp hx
    cases heq
    exact readPacket_moves h hy
  | hsRequest timestamp =>
    -- A version 5 connection has no such requests.
    unfold act hsRequest at hx
    dsimp only at hx
    rw [h.hsRequests] at hx
    cases hx
  | kmRequest timestamp =>
    unfold act kmRequest at hx
    dsimp only at hx
    rw [h.kmRequests] at hx
    cases hx
  | close timestamp =>
    obtain ⟨rfl, rfl⟩ := Prod.ext_iff.mp (Option.some.inj hx)
    exact close_moves h timestamp
  | closing =>
    obtain ⟨y, hy, heq⟩ := Option.map_eq_some_iff.mp hx
    cases heq
    exact closing_moves h hy

end

end Endpoint

end Gosrt
