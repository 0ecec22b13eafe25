import Gosrt.Proofs.Endpoint.Seal
import Gosrt.Proofs.Endpoint.Wire
import Gosrt.Proofs.Live.Link
import Gosrt.Proofs.Read
import Gosrt.Proofs.Write

/-!
# `Gosrt.Proofs.Endpoint.Invariant`: what holds at one end of a connection

Two ends agree on some `Terms`: the initial number and the cipher. Each end has a stream of data
packets that it sends, and sees of the other end its stream and how far it has acknowledged
(`Local`). A packet from the other end is a data packet of its stream, an ACK that does not claim
too much, or one of three other control packets (`Datagram`).

`Moves` is what one operation does: the end keeps its invariant, what leaves are datagrams of its
own, and nothing goes back. Operations that follow one another compose (`Moves.trans`). There is a
lemma for each operation besides `handle`, which `Gosrt.Proofs.Endpoint.Handle` has.
-/

set_option autoImplicit false

namespace Gosrt

open Lib Number

open Link (IsPushed)

namespace Link

/-- More packets are pushed. -/
theorem IsPushed.mono {b : Number} {pushed pushed' : List Packet} {l : Number × Bytes}
    (h : IsPushed b pushed l) (hle : pushed <+: pushed') : IsPushed b pushed' l := by
  obtain ⟨k, q, hq, hl⟩ := h
  obtain ⟨rest, rfl⟩ := hle
  refine ⟨k, q, ?_, hl⟩
  rw [List.getElem?_append_left (List.getElem?_eq_some_iff.mp hq).1]
  exact hq

theorem IsPushed.isSequenceNumber {b : Number} (hb : b.IsSequenceNumber) {pushed : List Packet}
    {l : Number × Bytes} (h : IsPushed b pushed l) : l.1.IsSequenceNumber := by
  obtain ⟨k, q, -, rfl⟩ := h
  exact hb.plus (k + 1)

end Link

/-! ### What the ends agree on -/

/-- What the handshake settles for both directions. -/
structure Terms where
  prim : Primitives
  base : Number
  cipher : Option Cipher
  isNumber : base.IsSequenceNumber

/-- The stream of a version 5 end with this configuration that pushed these packets. -/
def Terms.stream (t : Terms) (config : Config) (pushed : List Packet) : Stream :=
  ⟨t.prim, t.base, t.cipher, writeDataLength 5 config, pushed⟩

/-- How far an end has acknowledged. -/
def Endpoint.acked (t : Terms) (x : Endpoint) : Nat := t.base.offset x.recv.lastACKSequenceNumber

namespace Stream

section
variable {t : Terms} {config : Config} {pushed pushed' : List Packet} {p : Packet}

theorem Queued.mono (h : (t.stream config pushed).Queued p) (hle : pushed <+: pushed') :
    (t.stream config pushed').Queued p :=
  ⟨h.control, h.message, h.size, h.plain, h.pushed.mono hle⟩

theorem Carries.mono (h : (t.stream config pushed).Carries p) (hle : pushed <+: pushed') :
    (t.stream config pushed').Carries p := by
  obtain ⟨payload, hpushed, hsealed⟩ := h.sealed
  exact ⟨h.control, h.message, h.size, payload, hpushed.mono hle, hsealed⟩

theorem OnWire.mono (h : (t.stream config pushed).OnWire p) (hle : pushed <+: pushed') :
    (t.stream config pushed').OnWire p :=
  ⟨h.toCarries.mono hle, h.key⟩

end

end Stream

/-! ### Datagrams -/

/-- A packet of an end with this stream that has acknowledged this far. -/
inductive Datagram (s : Stream) (acked : Nat) (p : Packet) : Prop where
  | data (h : s.OnWire p)
  /-- The number is that after a packet which the end has acknowledged. -/
  | ack (hcontrol : p.header.isControlPacket = true) (htype : p.header.controlType = .ack)
      (hlength : p.payload.length ≤ 28)
      (hnumber : ∀ cif, CIFACK.unmarshal p.payload = .ok cif →
        ∃ i ≤ acked, cif.lastACKPacketSequenceNumber = s.base.plus (i + 1))
  | other (hcontrol : p.header.isControlPacket = true)
      (htype : p.header.controlType ∈ [CtrlType.nak, CtrlType.shutdown, CtrlType.ackack])

namespace Datagram

/-- A datagram stays one of its stream as the sender goes on. -/
theorem mono {t : Terms} {config : Config} {acked acked' : Nat} {pushed pushed' : List Packet}
    {p : Packet} (h : Datagram (t.stream config pushed) acked p) (hle : pushed <+: pushed')
    (hacked : acked ≤ acked') : Datagram (t.stream config pushed') acked' p := by
  cases h with
  | data h => exact .data (h.mono hle)
  | ack hcontrol htype hlength hnumber =>
    refine .ack hcontrol htype hlength fun cif hcif => ?_
    obtain ⟨i, hi, heq⟩ := hnumber cif hcif
    exact ⟨i, Nat.le_trans hi hacked, heq⟩
  | other hcontrol htype => exact .other hcontrol htype

/-- What the socket of the other end makes of a datagram is one again. -/
theorem decode {t : Terms} {config : Config} {acked : Nat} {pushed : List Packet} {p r : Packet}
    {y : Endpoint} (h : Datagram (t.stream config pushed) acked p)
    (hfits : writeDataLength 5 config + 16 ≤ y.readSize) (hroom : 44 ≤ y.readSize)
    (hr : y.decode p.marshal = .ok r) : Datagram (t.stream config pushed) acked r := by
  cases h with
  | data h =>
    obtain ⟨payload, hpushed, hsealed⟩ := h.sealed
    have hnumber : p.seq.IsSequenceNumber := hpushed.isSequenceNumber t.isNumber
    have hle : p.seq.val ≤ maxSequenceNumber := by
      rw [← hnumber.max_eq]
      exact hnumber.wf.value_le
    have hsize : p.payload.length ≤ writeDataLength 5 config := h.size
    obtain ⟨r', hr', hrestores⟩ := y.decode_data h.control hle (by rw [h.message]; decide)
      (by omega)
    obtain rfl : r' = r := Except.ok.inj (hr'.symm.trans hr)
    obtain ⟨hseq, -, -, -, hkey, -, hmessage⟩ := hrestores.data h.control
    rw [hnumber.new_val] at hseq
    refine .data ⟨⟨hrestores.kind.trans h.control, hmessage.trans h.message, ?_, payload, ?_, ?_⟩,
      fun k hk => hkey.trans (h.key k hk)⟩
    · rw [hrestores.payload]
      exact h.size
    · rw [hseq]
      exact hpushed
    · rw [hrestores.payload, hseq]
      exact hsealed
  | ack hcontrol htype hlength hnumber =>
    obtain ⟨r', hr', hrestores⟩ := y.decode_control (p := p) (by omega) hcontrol
      (by rw [htype]; decide)
    obtain rfl : r' = r := Except.ok.inj (hr'.symm.trans hr)
    have hpayload : r'.payload = p.payload :=
      hrestores.payload.trans (List.take_of_length_le (by omega))
    refine .ack (hrestores.kind.trans hcontrol) ((hrestores.control hcontrol).1.trans htype) ?_ ?_
    · rw [hpayload]
      exact hlength
    · rw [hpayload]
      exact hnumber
  | other hcontrol htype =>
    have hrange : p.header.controlType < 0x8000 := by
      simp only [List.mem_cons, List.not_mem_nil, or_false] at htype
      rcases htype with htype | htype | htype <;> rw [htype] <;> decide
    obtain ⟨r', hr', hrestores⟩ := y.decode_control (p := p) (by omega) hcontrol hrange
    obtain rfl : r' = r := Except.ok.inj (hr'.symm.trans hr)
    refine .other (hrestores.kind.trans hcontrol) ?_
    rw [(hrestores.control hcontrol).1]
    exact htype

end Datagram

/-! ### Reading -/

/-- What `Read` and `ReadPacket` took and what waits for them is a part of what was delivered, in
order. What each of the two returned is a part of what they took. -/
def Streamed (delivered : List Packet) (r : ReadSide) (returned : Bytes)
    (packets : List Packet) : Prop :=
  ∃ taken, (taken ++ r.readQueue).Sublist delivered ∧ packets.Sublist taken ∧
    ∃ kept, kept.Sublist taken ∧ returned ++ r.readBuffer = Reading.payloads kept

namespace Streamed

section
variable {delivered : List Packet} {r r' : ReadSide} {returned : Bytes} {packets : List Packet}

/-- A packet that is taken joins what was taken, or is gone. -/
theorem taken_sublist {taken queue : List Packet} {p : Packet}
    (h : (taken ++ r.readQueue).Sublist delivered) (hqueue : r.readQueue = p :: queue) :
    (taken ++ queue).Sublist delivered ∧ (taken ++ [p] ++ queue).Sublist delivered := by
  rw [hqueue] at h
  refine ⟨((List.Sublist.refl taken).append (List.sublist_cons_self p queue)).trans h, ?_⟩
  rw [List.append_assoc]
  exact h

/-- `Read` continues the stream of bytes. -/
theorem read (h : Streamed delivered r returned packets) {n : Nat} {fromQueue : Bool}
    {result : Go Bytes} (hread : r.read n fromQueue = some (r', result)) :
    Streamed delivered r' (returned ++ result.toOption.getD []) packets := by
  obtain ⟨taken, hsub, hpackets, kept, hkept, hbytes⟩ := h
  cases ReadSide.read_cases hread with
  | buffered hbuffer =>
    refine ⟨taken, hsub, hpackets, kept, hkept, ?_⟩
    rw [List.append_assoc]
    exact (congrArg (returned ++ ·) (List.take_append_drop n r.readBuffer)).trans hbytes
  | closed hdone hbuffer hnext =>
    refine ⟨taken, hsub, hpackets, kept, hkept, ?_⟩
    rw [List.append_assoc]
    exact hbytes
  | outOfOrder p queue hqueue hnext hlt hbuffer =>
    refine ⟨taken, (taken_sublist hsub hqueue).1, hpackets, kept, hkept, ?_⟩
    rw [List.append_assoc]
    exact hbytes
  | handed p queue hqueue hnext hlt hpayload =>
    refine ⟨taken ++ [p], (taken_sublist hsub hqueue).2,
      hpackets.trans (List.sublist_append_left _ _), kept ++ [p], hkept.append (.refl [p]), ?_⟩
    rw [Reading.readBuffer_of_next hnext, List.append_nil] at hbytes
    rw [List.append_assoc, Reading.payloads_append, Reading.payloads_singleton, hbytes]
    exact congrArg (Reading.payloads kept ++ ·) (List.take_append_drop n p.payload)
  | empty p queue hqueue hnext hlt hpayload hn =>
    refine ⟨taken ++ [p], (taken_sublist hsub hqueue).2,
      hpackets.trans (List.sublist_append_left _ _), kept ++ [p], hkept.append (.refl [p]), ?_⟩
    rw [Reading.readBuffer_of_next hnext, List.append_nil] at hbytes
    rw [List.append_assoc, Reading.payloads_append, Reading.payloads_singleton, hbytes, hpayload]
    rfl

/-- `ReadPacket` takes one packet out of the stream. -/
theorem readPacket (h : Streamed delivered r returned packets) {fromQueue : Bool}
    {result : Go Packet} (hread : r.readPacket fromQueue = some (r', result)) :
    Streamed delivered r' returned (packets ++ result.toOption.toList) := by
  obtain ⟨taken, hsub, hpackets, kept, hkept, hbytes⟩ := h
  unfold ReadSide.readPacket at hread
  split at hread
  · split at hread
    · cases hread
      rw [show (Except.error eof : Go Packet).toOption.toList = [] from rfl, List.append_nil]
      exact ⟨taken, hsub, hpackets, kept, hkept, hbytes⟩
    · cases hread
  rename_i p queue hqueue
  split at hread
  · cases hread
    rw [show (Except.error eof : Go Packet).toOption.toList = [] from rfl, List.append_nil]
    exact ⟨taken, hsub, hpackets, kept, hkept, hbytes⟩
  unfold ReadSide.takePacket at hread
  -- The packet is out of order and gone, or it is returned.
  split at hread
  · cases hread
    rw [show (Except.error eof : Go Packet).toOption.toList = [] from rfl, List.append_nil]
    exact ⟨taken, (taken_sublist hsub hqueue).1, hpackets, kept, hkept, hbytes⟩
  · cases hread
    exact ⟨taken ++ [p], (taken_sublist hsub hqueue).2, hpackets.append (.refl [p]), kept,
      hkept.trans (List.sublist_append_left _ _), hbytes⟩

/-- A packet is put into the queue, or it is dropped. -/
theorem deliver (h : Streamed delivered r returned packets) (p : Packet) (keep : Bool) :
    Streamed (delivered ++ [p]) (Endpoint.deliver r p keep) returned packets := by
  obtain ⟨taken, hsub, hrest⟩ := h
  have hmore : (taken ++ r.readQueue).Sublist (delivered ++ [p]) :=
    hsub.trans (List.sublist_append_left delivered [p])
  unfold Endpoint.deliver ReadSide.deliver
  split
  · exact ⟨taken, hmore, hrest⟩
  split
  · refine ⟨taken, ?_, hrest⟩
    rw [← List.append_assoc]
    exact hsub.append (List.Sublist.refl [p])
  · exact ⟨taken, hmore, hrest⟩

/-- The packets that are handed over queue up behind the stream. -/
theorem deliverAll (ps : List Packet) :
    ∀ {delivered : List Packet} {r : ReadSide} (keeps : List Bool),
      Streamed delivered r returned packets →
      Streamed (delivered ++ ps) (Endpoint.deliverAll r ps keeps) returned packets := by
  induction ps with
  | nil =>
    intro delivered r keeps h
    rw [List.append_nil]
    exact h
  | cons p ps ih =>
    intro delivered r keeps h
    rw [List.append_cons]
    exact ih keeps.tail (h.deliver p (keeps.headD true))

end

end Streamed

/-! ### Writing -/

/-- A packet of the write queue. -/
structure Fresh (size : Nat) (p : Packet) : Prop where
  control : p.header.isControlPacket = false
  plain : p.header.retransmittedPacketFlag = false
  size : p.payload.length ≤ size

/-- The loop of `Write` makes fresh packets. -/
theorem fresh_writeLoop (size : Nat) (turns : List Turn) :
    ∀ buffer : Bytes, ∀ p ∈ (writeLoop size turns buffer).1, Fresh size p := by
  induction turns with
  | nil =>
    intro buffer p hp
    cases hp
  | cons turn turns ih =>
    intro buffer p hp
    unfold writeLoop at hp
    split at hp
    · cases hp
    rename_i data rest hread
    have hfresh : Fresh size (dataPacket data turn.timestamp) :=
      ⟨rfl, rfl, Buffer.length_le_of_read hread⟩
    dsimp only at hp
    split at hp
    · cases hp
    split at hp
    · rw [List.mem_singleton.mp hp]
      exact hfresh
    · rcases List.mem_cons.mp hp with rfl | hp
      · exact hfresh
      · exact ih rest p hp

/-- What a call puts into the queue. -/
theorem fresh_perform {size : Nat} {buffer : Bytes} {call : Writing.Call} {w : Written}
    (h : Writing.perform size buffer call = some w) : ∀ p ∈ w.enqueued, Fresh size p := by
  intro p hp
  rcases Writing.perform_eq size buffer call with heq | ⟨-, heq⟩
  · rw [heq] at h
    have hloop := fresh_writeLoop size call.turns (buffer ++ call.bytes)
    unfold write at h
    split at h
    · cases h
    · rename_i hout
      cases h
      exact hloop p (by rw [hout]; exact hp)
    · rename_i hout
      cases h
      exact hloop p (by rw [hout]; exact hp)
  · rw [heq] at h
    cases h
    cases hp

/-! ### The invariant of one end -/

/-- What an end sees of the other one. -/
structure Peer where
  config : Config
  pushed : List Packet
  acked : Nat

def Terms.peer (t : Terms) (y : Endpoint) : Peer := ⟨y.conn.config, y.history.pushed, y.acked t⟩

namespace Endpoint

/-- The number was received, or it was given up: at some tick a packet with a greater number was in
the buffer and was due. -/
def Accounted (x : Endpoint) (n : Number) : Prop :=
  (∃ p ∈ x.history.arrived, p.seq = n) ∨
    ∃ tick ∈ x.history.ticks, ∃ q ∈ tick.2, n.lt q.seq ∧ q.header.pktTsbpdTime ≤ tick.1

/-- The data of this end. -/
structure Sends (t : Terms) (config : Config) (x : Endpoint) : Prop where
  uses : x.conn.Uses t.cipher x.history.popped
  enqueued : x.history.enqueued = x.history.pushed ++ x.writeQueue
  fresh : ∀ p ∈ x.writeQueue, Fresh (writeDataLength 5 config) p
  next : x.snd.nextSequenceNumber = t.base.plus (x.history.pushed.length + 1)
  queued : ∀ p ∈ x.snd.packetList, (t.stream config x.history.pushed).Queued p
  stored : ∀ p ∈ x.snd.lossList, (t.stream config x.history.pushed).Carries p

/-- The data of the other end. -/
structure Receives (t : Terms) (peer : Peer) (x : Endpoint) : Prop where
  network : ∀ p ∈ x.networkQueue, Datagram (t.stream peer.config peer.pushed) peer.acked p
  ordered : x.recv.Ordered t.base peer.pushed.length
  buffer : ∀ p ∈ x.recv.packetList, IsPushed t.base peer.pushed p.label ∧ p ∈ x.history.arrived
  delivered : ∀ p ∈ x.history.delivered, IsPushed t.base peer.pushed p.label ∧
    t.base.offset p.seq ≤ t.base.offset x.recv.lastDeliveredSequenceNumber
  increasing : Increasing t.base x.history.delivered
  reading : Streamed x.history.delivered x.reading x.history.returned x.history.packets
  accounted : ∀ i, 0 < i → i ≤ x.acked t → x.Accounted (t.base.plus i)
  freed : ∀ p ∈ x.history.freed, ∃ i, 0 < i ∧ i ≤ peer.acked ∧ p.seq = t.base.plus i

/-- The invariant of one end. -/
structure Local (t : Terms) (config : Config) (peer : Peer) (x : Endpoint) : Prop where
  version : x.conn.version = 5
  configured : x.conn.config = config
  hsRequests : x.hsRequests = .unset
  kmRequests : x.kmRequests = .unset
  fits : writeDataLength 5 peer.config + 16 ≤ x.readSize
  room : 44 ≤ x.readSize
  sends : x.Sends t config
  receives : x.Receives t peer
  acked_le : peer.acked ≤ x.history.pushed.length

/-- The limits of this end: less than half of the sequence numbers are in use, and the next key is
not announced yet. -/
structure Bounded (t : Terms) (config : Config) (x : Endpoint) : Prop where
  pushed : x.history.pushed.length < 2 ^ 30 - 1
  early : SrtConn.Early t.cipher config x.history.popped

theorem Bounded.of_grows {t : Terms} {config : Config} {x x' : Endpoint}
    (h : x'.Bounded t config) (hgrows : x.Grows x') : x.Bounded t config :=
  ⟨Nat.lt_of_le_of_lt hgrows.pushed.length_le h.pushed, h.early.mono hgrows.popped⟩

/-- The bytes are those of a packet of this end. -/
def Emits (t : Terms) (config : Config) (x : Endpoint) (m : Bytes) : Prop :=
  ∃ p, m = p.marshal ∧ Datagram (t.stream config x.history.pushed) (x.acked t) p

/-- What an operation does. -/
structure Moves (t : Terms) (config : Config) (peer : Peer) (x x' : Endpoint)
    (out : List Bytes) : Prop where
  grows : x.Grows x'
  forward : x.acked t ≤ x'.acked t
  inv : x'.Local t config peer
  wire : ∀ m ∈ out, x'.Emits t config m

section
variable {t : Terms} {config : Config} {peer : Peer} {x x' x'' : Endpoint}

/-- A datagram on the wire stays a true one as its sender goes on. -/
theorem Emits.mono {m : Bytes} (h : x.Emits t config m) (hgrows : x.Grows x')
    (hforward : x.acked t ≤ x'.acked t) : x'.Emits t config m := by
  obtain ⟨p, hm, hp⟩ := h
  exact ⟨p, hm, hp.mono hgrows.pushed hforward⟩

theorem Moves.refl (h : x.Local t config peer) : Moves t config peer x x [] :=
  ⟨.refl x, Nat.le_refl _, h, fun m hm => by cases hm⟩

/-- Two steps of an end are one. -/
theorem Moves.trans {out out' : List Bytes} (h : Moves t config peer x x' out)
    (h' : Moves t config peer x' x'' out') : Moves t config peer x x'' (out ++ out') where
  grows := h.grows.trans h'.grows
  forward := Nat.le_trans h.forward h'.forward
  inv := h'.inv
  wire := fun m hm => (List.mem_append.mp hm).elim
    (fun hm => (h.wire m hm).mono h'.grows h'.forward) (h'.wire m)

/-- The other end goes on. -/
theorem Local.mono {peer' : Peer} (h : x.Local t config peer)
    (hconfig : peer'.config = peer.config) (hpushed : peer.pushed <+: peer'.pushed)
    (hforward : peer.acked ≤ peer'.acked) (hacked : peer'.acked ≤ x.history.pushed.length) :
    x.Local t config peer' where
  version := h.version
  configured := h.configured
  hsRequests := h.hsRequests
  kmRequests := h.kmRequests
  fits := hconfig ▸ h.fits
  room := h.room
  sends := h.sends
  receives :=
    { h.receives with
      network := fun p hp => by
        rw [hconfig]
        exact (h.receives.network p hp).mono hpushed hforward
      ordered := h.receives.ordered.mono hpushed.length_le
      buffer := fun p hp =>
        ⟨(h.receives.buffer p hp).1.mono hpushed, (h.receives.buffer p hp).2⟩
      delivered := fun p hp =>
        ⟨(h.receives.delivered p hp).1.mono hpushed, (h.receives.delivered p hp).2⟩
      freed := fun p hp => by
        obtain ⟨i, hpos, hle, heq⟩ := h.receives.freed p hp
        exact ⟨i, hpos, Nat.le_trans hle hforward, heq⟩ }
  acked_le := hacked

theorem Local.acked_le_pushed (h : x.Local t config peer) : x.acked t ≤ peer.pushed.length :=
  h.receives.ordered.lastACK.2

end

end Endpoint

end Gosrt
