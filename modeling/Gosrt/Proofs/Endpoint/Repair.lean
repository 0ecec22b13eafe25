import Gosrt.Proofs.Endpoint.Handle
import Gosrt.Proofs.Live.NakPath

/-!
# `Gosrt.Proofs.Endpoint.Repair`: what an endpoint does with a loss report and with what was lost

The two halves of a repair. A sender that gets a loss report sends those packets of its loss list
again that the report names (`takes_nak`). A receiver that gets such a packet puts it into the gap
(`takes_data`), and after it has got all of them, in whatever order, exactly the other numbers are
still missing (`takesAll_data`).

A report is cut off at the end of a packet and at the end of the buffer of the other socket. The
results are about a report that is short enough for both.
-/

set_option autoImplicit false

namespace Gosrt

open Lib Number

/-! ### A packet for a gap -/

namespace Receiver

section
variable {b : Number} {k : Nat} {r : Receiver} {pkt : Packet}

/-- The report that is due names what is missing. -/
theorem report_spec (hw : Window b k) (h : r.Ordered b k) {now : UInt64}
    (helapsed : ¬now - r.lastPeriodicNAK < r.periodicNAKInterval) :
    Gaps b k 0 (r.periodicNAK now).2 ∧
      ∀ n, b.InWindow k n → CIFNAK.covers n (r.periodicNAK now).2 = r.missing n := by
  have hreport : (r.periodicNAK now).2 = nakLoop r.lastACKSequenceNumber r.packetList := by
    unfold periodicNAK
    rw [if_neg helapsed]
  rw [hreport]
  refine ⟨(gaps_nakLoop hw r.packetList _ h.lastACK h.packets).mono (Nat.zero_le _), ?_⟩
  intro n hn
  rw [Bool.eq_iff_iff, covers_nakLoop_iff hw hn _ _ h.lastACK h.packets h.sorted,
    missing_iff hw h.lastACK h.packets h.sorted hn]

/-- Making a report changes nothing about what is missing. -/
theorem missing_periodicNAK (r : Receiver) (now : UInt64) (n : Number) :
    (r.periodicNAK now).1.missing n = r.missing n := by
  unfold periodicNAK
  split <;> rfl

/-- A packet between the acknowledged number and one of the buffer goes into the buffer, unless it
is there already. -/
theorem push_gap (hw : Window b k) (h : r.Ordered b k) (hp : b.InWindow k pkt.seq)
    (hlow : b.offset r.lastACKSequenceNumber < b.offset pkt.seq)
    (hhigh : ∃ q ∈ r.packetList, b.offset pkt.seq < b.offset q.seq) :
    (∀ q ∈ r.packetList, q ∈ (r.push pkt).1.packetList) ∧
      (∀ q ∈ (r.push pkt).1.packetList, q ∈ r.packetList ∨ q = pkt) ∧
      ∃ q ∈ (r.push pkt).1.packetList, q.seq = pkt.seq := by
  have ho := push_cases hw h hp
  refine ⟨?_, ho.mem, ?_⟩
  · intro q hq
    cases ho with
    | left hlist => rwa [hlist]
    | put pre post hlist hlist' =>
      rw [hlist] at hq
      rw [hlist']
      simp only [List.mem_append, List.mem_cons] at hq ⊢
      tauto
  · cases ho with
    | left hlist _ hwhy =>
      obtain ⟨q, hq, hlt⟩ := hhigh
      rw [hlist]
      rcases hwhy with hacked | hdup | hlast
      · omega
      · exact hdup
      · exact absurd (hlast q hq) (Nat.lt_asymm hlt)
    | put pre post _ hlist' =>
      refine ⟨pkt, ?_, rfl⟩
      rw [hlist']
      simp

/-- After `Push` of such a packet its number is no longer missing, and the others are as before. -/
theorem missing_push (hw : Window b k) (h : r.Ordered b k) (hp : b.InWindow k pkt.seq)
    (hlow : b.offset r.lastACKSequenceNumber < b.offset pkt.seq)
    (hhigh : ∃ q ∈ r.packetList, b.offset pkt.seq < b.offset q.seq) {n : Number}
    (hn : b.InWindow k n) :
    (r.push pkt).1.missing n = true ↔ r.missing n = true ∧ n ≠ pkt.seq := by
  have h' := h.push hw hp
  obtain ⟨hold, hnew, q, hq, hseq⟩ := push_gap hw h hp hlow hhigh
  obtain ⟨top, htop, hlt⟩ := hhigh
  rw [missing_iff hw h'.lastACK h'.packets h'.sorted hn,
    missing_iff hw h.lastACK h.packets h.sorted hn, push_lastACKSequenceNumber]
  constructor
  · rintro ⟨hafter, ⟨p, hmem, hbefore⟩, hnone⟩
    refine ⟨⟨hafter, ?_, fun p hp => hnone p (hold p hp)⟩, ?_⟩
    · rcases hnew p hmem with hmem | rfl
      · exact ⟨p, hmem, hbefore⟩
      · exact ⟨top, htop, Nat.lt_trans hbefore hlt⟩
    · rintro rfl
      exact hnone q hq (congrArg b.offset hseq)
  · rintro ⟨⟨hafter, ⟨p, hmem, hbefore⟩, hnone⟩, hne⟩
    refine ⟨hafter, ⟨p, hold p hmem, hbefore⟩, fun p hp' => ?_⟩
    rcases hnew p hp' with hmem | rfl
    · exact hnone p hmem
    · exact fun heq => hne ((hn.eq_iff hp).mpr heq.symm)

end

end Receiver

/-! ### Taking a datagram -/

/-- `decrypt` changes the payload only. -/
theorem Connection.decrypt_header (prim : Primitives) (c : Connection) (p : Packet) :
    (c.decrypt prim p).2.header = p.header := by
  unfold Connection.decrypt
  split
  · rfl
  split
  · rfl
  split <;> rfl

/-- The packet with the time at which it is due. -/
def Packet.timed (time : UInt64) (p : Packet) : Packet :=
  { p with header := { p.header with pktTsbpdTime := time } }

/-- A data packet is pushed with its number. -/
theorem Connection.handleData_eq (prim : Primitives) (c : Connection) {p : Packet}
    (hmessage : p.header.messageNumber ≠ 0) :
    ∃ c' p', c.handleData prim p = (c', [.push p']) ∧ p'.seq = p.seq := by
  let c₁ := c.updateWrapPeriod p.header.timestamp
  let p₁ := p.timed (c₁.pktTsbpdTime p.header.timestamp)
  refine ⟨(c₁.decrypt prim p₁).1, (c₁.decrypt prim p₁).2, if_neg hmessage, ?_⟩
  show (c₁.decrypt prim p₁).2.seq = p₁.seq
  exact congrArg PacketHeader.packetSequenceNumber (c₁.decrypt_header prim p₁)

namespace Endpoint

section
variable {t : Terms} {config : Config} {peer : Peer} {sort : SortSlice} {x y : Endpoint}
  {p q : Packet}

/-- A packet for the socket id of the connection, other than a handshake. -/
theorem isFor_of_dest {c : SrtConn} (hdest : p.header.destinationSocketId = c.socketId)
    (hid : c.isCaller = false → c.socketId ≠ 0)
    (htype : p.header.isControlPacket = true → p.header.controlType ≠ .handshake) :
    isFor c p = true := by
  unfold isFor
  rw [hdest, beq_self_eq_true, Bool.true_and]
  cases hrole : c.isCaller with
  | true =>
    cases hcontrol : p.header.isControlPacket with
    | false => rfl
    | true => simpa using htype hcontrol
  | false => simpa using hid hrole

/-- A datagram for this connection is the only one in the queue. -/
theorem receive_of_isFor {m : Bytes} (hqueue : x.networkQueue = [])
    (hdecode : x.decode m = .ok p) (hfor : isFor x.conn p = true) :
    x.receive m true = { x with networkQueue := [p] } := by
  unfold receive
  rw [hdecode]
  dsimp only
  rw [hfor, hqueue, Bool.not_true, Bool.and_false, Bool.or_false, if_neg Bool.false_ne_true]
  rfl

/-- A data packet of the other end goes to `recv.Push`. -/
theorem takes_data (sort : SortSlice) (h : y.Local t config peer) (hqueue : y.networkQueue = [])
    (hq : (t.stream peer.config peer.pushed).OnWire q)
    (hdest : q.header.destinationSocketId = y.conn.socketId)
    (hid : y.conn.isCaller = false → y.conn.socketId ≠ 0) (inputs : Inputs) :
    ∃ p y' out, (y.receive q.marshal true).handle t.prim sort inputs = some (y', out) ∧
      p.seq = q.seq ∧ y'.recv = (y.recv.push p).1 ∧ y'.networkQueue = [] ∧
      y'.history.pushed = y.history.pushed ∧ y'.history.popped = y.history.popped := by
  obtain ⟨payload, hpushed, -⟩ := hq.sealed
  have hnumber : q.seq.IsSequenceNumber := hpushed.isSequenceNumber t.isNumber
  have hle : q.seq.val ≤ maxSequenceNumber := by
    rw [← hnumber.max_eq]
    exact hnumber.wf.value_le
  have hsize : q.payload.length ≤ writeDataLength 5 peer.config := hq.size
  have hfits := h.fits
  obtain ⟨r, hdecode, hrestores⟩ := y.decode_data hq.control hle (by rw [hq.message]; decide)
    (by omega)
  obtain ⟨hseq, -, -, -, -, -, hmessage⟩ := hrestores.data hq.control
  rw [hnumber.new_val] at hseq
  have hcontrol : r.header.isControlPacket = false := hrestores.kind.trans hq.control
  have hreceive := receive_of_isFor hqueue hdecode
    (isFor_of_dest (hrestores.destinationSocketId.trans hdest) hid
      fun htrue => absurd (hcontrol.symm.trans htrue) Bool.false_ne_true)
  have hnonzero : r.header.messageNumber ≠ 0 := by
    rw [hmessage, hq.message]
    decide
  obtain ⟨c, p, hdata, hp⟩ := y.connection.handleData_eq t.prim hnonzero
  have hhandle : { y with networkQueue := [r] }.handle t.prim sort inputs =
      some (({ y with connection := c, networkQueue := [] }.push p inputs.handle.timestamp).1,
        ({ y with connection := c, networkQueue := [] }.push p inputs.handle.timestamp).2 ++
          []) := by
    unfold handle Connection.handlePacket
    dsimp only
    rw [hcontrol, if_neg Bool.false_ne_true, hdata]
    rfl
  rw [hreceive]
  exact ⟨p, _, _, hhandle, hp.trans hseq, rfl, rfl, rfl, rfl⟩

/-! ### Taking a report -/

theorem performAll_singleton {prim : Primitives} (x : Endpoint) (inputs : Inputs) (o : Output) :
    x.performAll prim inputs [o] = x.perform prim inputs o := by
  unfold performAll performAll
  cases x.perform prim inputs o with
  | none => rfl
  | some out =>
    show some (out.1, out.2 ++ []) = some out
    rw [List.append_nil]

/-- A report of whole ranges is handled to the end. -/
theorem resend_of_even (prim : Primitives) {ns : List Number} (heven : ns.length % 2 = 0)
    (ps : List Packet) :
    ∀ (c : SrtConn) (inputs : List PopInput), ∃ out, c.resend prim ns ps inputs = some out := by
  induction ps with
  | nil => exact fun c inputs => ⟨_, rfl⟩
  | cons p ps ih =>
    intro c inputs
    obtain ⟨out, hout⟩ := ih c inputs
    unfold SrtConn.resend
    rw [hout, Sender.nakHits_of_even p.seq ns heven]
    exact ⟨_, rfl⟩

/-- A loss report of the other end reaches `snd.NAK` with all its ranges. -/
theorem handle_nak (sort : SortSlice) {k : Nat} {ns : List Number} (hw : Window t.base k)
    (hgaps : Gaps t.base k 0 ns) (hqueue : x.networkQueue = [])
    (hdest : y.conn.peerSocketId = x.conn.socketId)
    (hid : x.conn.isCaller = false → x.conn.socketId ≠ 0)
    (hwritten : CIFNAK.written 0 ns = ns) (timestamp : UInt32)
    (hroom : (y.conn.sendNAK ns timestamp).payload.length + 16 ≤ x.readSize) (inputs : Inputs) :
    ∃ c : Connection, c.conn = x.conn ∧
      (x.receive (y.conn.sendNAK ns timestamp).marshal true).handle t.prim sort inputs =
        { x with connection := c, networkQueue := [] }.nak t.prim ns inputs.pops := by
  obtain ⟨data, hmarshal, hunmarshal⟩ := hgaps.unmarshal_marshal hw t.isNumber sort
  rw [hwritten] at hunmarshal
  have hpayload : (y.conn.sendNAK ns timestamp).payload = data := by
    show (CIFNAK.marshal _).toOption.getD [] = data
    rw [hmarshal]
    rfl
  rw [hpayload] at hroom
  obtain ⟨r, hdecode, hrestores⟩ :=
    x.decode_control (p := y.conn.sendNAK ns timestamp) (by omega) rfl
      (by show CtrlType.nak < 0x8000; decide)
  have hcontrol : r.header.isControlPacket = true := hrestores.kind
  have htype : r.header.controlType = .nak := (hrestores.control rfl).1
  -- The report fits into the buffer, so that nothing is cut off.
  have hwhole : r.payload = data := by
    rw [hrestores.payload]
    show (y.conn.sendNAK ns timestamp).payload.take (x.readSize - 16) = data
    rw [hpayload, List.take_of_length_le (by omega)]
  have hreceive := receive_of_isFor hqueue hdecode
    (isFor_of_dest (hrestores.destinationSocketId.trans hdest) hid fun _ => by
      rw [htype]
      decide)
  rw [hreceive]
  refine ⟨{ x.connection with statistics := { x.connection.statistics with
    pktRecvNAK := x.connection.statistics.pktRecvNAK + 1 } }, rfl, ?_⟩
  unfold handle Connection.handlePacket Connection.handleControl Connection.handleNAK
  dsimp only
  rw [if_pos hcontrol, htype, if_neg (by decide), if_neg (by decide), if_pos rfl, hwhole,
    hunmarshal]
  exact performAll_singleton _ _ _

/-- `snd.NAK` of a report sends the packets of the loss list again that it names, each of them
once. -/
theorem nak_resends (h : x.Sends t config) (hconfig : x.conn.config = config)
    (hw : Window t.base x.history.pushed.length) {ns : List Number} (hne : ns ≠ [])
    (hgaps : Gaps t.base x.history.pushed.length 0 ns)
    (hearly : SrtConn.Early t.cipher config (x.history.popped + x.snd.lossList.length))
    (inputs : List PopInput) :
    ∃ x' sent, x.nak t.prim ns inputs = some (x', datagrams sent) ∧
      (∀ q ∈ sent, (t.stream config x.history.pushed).OnWire q) ∧
      (∀ q ∈ sent, q.header.destinationSocketId = x.conn.peerSocketId) ∧
      sent.map Packet.seq =
        (x.snd.lossList.filter fun p => CIFNAK.covers p.seq ns).reverse.map Packet.seq ∧
      x'.history.pushed = x.history.pushed ∧
      x'.history.popped = x.history.popped + sent.length := by
  have hwin : ∀ p ∈ x.snd.lossList, t.base.InWindow x.history.pushed.length p.seq :=
    fun p hp => ((h.stored p hp).inWindow hw).1
  have hloop := Sender.nakLoop_of_even hgaps.even x.snd.lossList
  have hresent := hgaps.resent_eq hw hwin
  have hlength : (Sender.resent ns x.snd.lossList).length ≤ x.snd.lossList.length := by
    rw [hresent, List.length_map, List.length_reverse]
    exact List.length_filter_le _ _
  obtain ⟨⟨conn, stored, sent, rest⟩, hresend⟩ :=
    resend_of_even t.prim hgaps.even x.snd.lossList x.conn inputs
  obtain ⟨hpops, -⟩ := Stream.resend_spec (s := t.stream config x.history.pushed)
    x.snd.lossList h.uses hloop (hconfig ▸ hearly.mono (by omega)) h.stored hresend
  have hsame : sent.length = (Sender.resent ns x.snd.lossList).length := by
    rw [← List.length_map (f := Packet.seq), hpops.numbers, List.length_map]
  obtain ⟨x', hnak, hpushed, hpopped⟩ : ∃ x', x.nak t.prim ns inputs = some (x', datagrams sent) ∧
      x'.history.pushed = x.history.pushed ∧
      x'.history.popped = x.history.popped + (Sender.resent ns x.snd.lossList).length := by
    unfold nak
    rw [if_neg (by simpa using hne), Sender.nak_of_even hgaps.even, hresend]
    exact ⟨_, rfl, rfl, rfl⟩
  refine ⟨x', sent, hnak, hpops.onWire, hpops.addressed, ?_, hpushed, hpopped.trans ?_⟩
  · rw [hpops.numbers, hresent, List.map_map]
    rfl
  · rw [hsame]

/-! ### Taking all that was sent again -/

/-- One datagram after the other is taken, each with its inputs. -/
def takesAll (prim : Primitives) (sort : SortSlice) :
    Endpoint → List (Bytes × Inputs) → Option (Endpoint × List Bytes)
  | y, [] => some (y, [])
  | y, (m, inputs) :: rest => do
    let (y, sent) ← (y.receive m true).handle prim sort inputs
    let (y, sent') ← takesAll prim sort y rest
    return (y, sent ++ sent')

/-- Packets for gaps, in any order: they are no longer missing, and the other numbers are as
before. -/
theorem takesAll_data (sort : SortSlice) (hw : Window t.base peer.pushed.length)
    (qs : List (Packet × Inputs)) :
    ∀ {y : Endpoint}, y.Local t config peer → y.Bounded t config → y.networkQueue = [] →
      (y.conn.isCaller = false → y.conn.socketId ≠ 0) →
      (∀ q ∈ qs, (t.stream peer.config peer.pushed).OnWire q.1 ∧
        q.1.header.destinationSocketId = y.conn.socketId ∧
        t.base.offset y.recv.lastACKSequenceNumber < t.base.offset q.1.seq ∧
        ∃ p ∈ y.recv.packetList, t.base.offset q.1.seq < t.base.offset p.seq) →
      ∃ y' out, takesAll t.prim sort y (qs.map fun q => (q.1.marshal, q.2)) = some (y', out) ∧
        ∀ n, t.base.InWindow peer.pushed.length n →
          (y'.recv.missing n = true ↔
            y.recv.missing n = true ∧ ∀ q ∈ qs, n ≠ q.1.seq) := by
  induction qs with
  | nil =>
    intro y _ _ _ _ _
    exact ⟨y, [], rfl, fun n _ => by simp⟩
  | cons q qs ih =>
    intro y h hbounded hqueue hid hqs
    obtain ⟨⟨hwire, hdest, hlow, hhigh⟩, hrest⟩ := List.forall_mem_cons.mp hqs
    obtain ⟨p, y₁, out₁, hhandle, hseq, hrecv, hqueue₁, hpushed, hpopped⟩ :=
      takes_data sort h hqueue hwire hdest hid q.2
    -- The end after this packet keeps its invariant, and its socket id.
    have hreceived := receive_moves h rfl (.data hwire) true
    have hbounded₁ : y₁.Bounded t config := by
      refine ⟨?_, ?_⟩
      · rw [hpushed]
        exact hbounded.pushed
      · rw [hpopped]
        exact hbounded.early
    have hmoves := handle_moves hreceived.inv hw hhandle hbounded₁
    have hsame := (hreceived.grows.trans hmoves.grows).same
    have hp : t.base.InWindow peer.pushed.length p.seq := by
      rw [hseq]
      exact (hwire.inWindow hw).1
    have hpush := Receiver.push_gap hw h.receives.ordered hp (hseq ▸ hlow) (hseq ▸ hhigh)
    obtain ⟨y₂, out₂, hall, hmissing⟩ := ih hmoves.inv hbounded₁ hqueue₁
      (by rw [hsame.isCaller, hsame.socketId]; exact hid) (by
        intro q' hq'
        obtain ⟨hwire', hdest', hlow', p', hp', hlt'⟩ := hrest q' hq'
        refine ⟨hwire', hdest'.trans hsame.socketId.symm, ?_, p', ?_, hlt'⟩
        · rw [hrecv, Receiver.push_lastACKSequenceNumber]
          exact hlow'
        · rw [hrecv]
          exact hpush.1 p' hp')
    refine ⟨y₂, out₁ ++ out₂, ?_, fun n hn => ?_⟩
    · show (do
        let (y, sent) ← (y.receive q.1.marshal true).handle t.prim sort q.2
        let (y, sent') ← takesAll t.prim sort y _
        return (y, sent ++ sent')) = _
      rw [hhandle]
      show (takesAll t.prim sort y₁ _ >>= _) = _
      rw [hall]
      rfl
    · rw [hmissing n hn, hrecv,
        Receiver.missing_push hw h.receives.ordered hp (hseq ▸ hlow) (hseq ▸ hhigh) hn, hseq,
        List.forall_mem_cons, and_assoc]

end

end Endpoint

end Gosrt
