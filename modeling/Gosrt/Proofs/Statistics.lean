import Gosrt.Proofs.Connection
import Gosrt.Proofs.Handle
import Gosrt.Proofs.Live.Accounting
import Gosrt.Spec.Statistics
import Mathlib.Algebra.Order.BigOperators.Group.List

/-!
# `Gosrt.Proofs.Statistics`: what the reported numbers stand for

The two counters of a category change together: by one and the length of the packet, or not at all
(`Moves`). So they count the packets of the history (`Ledger`), and every field that `Stats` reports
is a number of the history in 64 bits (`accumulated_eq_total`). These numbers only grow (`Grows`),
so no difference is negative as long as they fit.

In `ByteRecvLate` the headers are those of the belated packets. The field is right only if there
are as many of them as late packets (`sums_iff`).
-/

set_option autoImplicit false

namespace Gosrt

open Lib

open Sending (payloadBytes payloadBytes_append)

/-! ### Bytes on the wire -/

theorem wireBytes_eq (headerSize : Nat) (ps : List Packet) :
    wireBytes headerSize ps = payloadBytes ps + ps.length * headerSize := by
  induction ps with
  | nil => simp [wireBytes, payloadBytes]
  | cons p ps ih =>
    simp only [wireBytes, payloadBytes, List.map_cons, List.sum_cons, List.length_cons] at ih ⊢
    rw [ih, Nat.add_mul]
    omega

theorem wireBytes_le_of_sublist (headerSize : Nat) {ps qs : List Packet} (h : ps.Sublist qs) :
    wireBytes headerSize ps ≤ wireBytes headerSize qs :=
  (h.map _).sum_le_sum fun _ _ => Nat.zero_le _

theorem payloadBytes_le_of_sublist {ps qs : List Packet} (h : ps.Sublist qs) :
    payloadBytes ps ≤ payloadBytes qs := by
  simpa [wireBytes_eq] using wireBytes_le_of_sublist 0 h

theorem length_le_wireBytes {headerSize : Nat} (hpos : 0 < headerSize) (ps : List Packet) :
    ps.length ≤ wireBytes headerSize ps := by
  rw [wireBytes_eq]
  exact (Nat.le_mul_of_pos_right _ hpos).trans (Nat.le_add_left _ _)

theorem headerSize_pos (localAddr : Option String) : 0 < (headerSize localAddr).toNat := by
  unfold headerSize
  split <;> decide

/-- The bytes on the wire, as `Stats` computes them. -/
theorem Counts.wire {pkt byte : UInt64} {ps : List Packet} (h : Counts pkt byte ps)
    (headerSize : UInt64) :
    byte + pkt * headerSize = UInt64.ofNat (wireBytes headerSize.toNat ps) := by
  rw [wireBytes_eq, UInt64.ofNat_add, UInt64.ofNat_mul, UInt64.ofNat_toNat, h.pkt, h.byte]

/-! ### The counters of a category -/

/-- The counter of the payload bytes. -/
def Category.payload (c : Counters) : Category → UInt64
  | .recv => c.recv.byte
  | .unique => c.recv.byteUnique
  | .belated => c.recv.byteBelated
  | .late => c.recv.byteLate
  | .drop => c.recv.byteDrop
  | .retrans => c.recv.byteRetrans
  | .undecrypt => c.conn.byteRecvUndecrypt

/-- The two counters of a category do not change, or both count the packet. -/
inductive Moves (p : Packet) (category : Category) (c c' : Counters) : Prop where
  | stays (hpkt : c'.accumulated category.pktField = c.accumulated category.pktField)
      (hbyte : category.payload c' = category.payload c)
  | counts (hpkt : c'.accumulated category.pktField = c.accumulated category.pktField + 1)
      (hbyte : category.payload c' = category.payload c + p.len)

theorem moves_retrans {p : Packet} {c c' : Counters}
    (hpkt : c'.recv.pktRetrans = if p.header.retransmittedPacketFlag then c.recv.pktRetrans + 1
      else c.recv.pktRetrans)
    (hbyte : c'.recv.byteRetrans = if p.header.retransmittedPacketFlag then
      c.recv.byteRetrans + p.len else c.recv.byteRetrans) : Moves p .retrans c c' := by
  split at hpkt
  · rename_i hflag
    rw [if_pos hflag] at hbyte
    exact .counts hpkt hbyte
  · rename_i hflag
    rw [if_neg hflag] at hbyte
    exact .stays hpkt hbyte

/-- `Push` counts a packet in the categories of its exit. -/
theorem moves_of_pushed {r r' : Receiver} {p : Packet} (hpush : Receiver.Pushed r p r')
    (c c' : Counters) (hrecv : c.recv = r.statistics) (hrecv' : c'.recv = r'.statistics)
    (hconn : c'.conn = c.conn) (category : Category) : Moves p category c c' := by
  obtain ⟨headerSize, send, usSndDuration, recv, byteLoss, conn, pktSentACK, pktSentNAK⟩ := c
  obtain ⟨headerSize', send', usSndDuration', recv', byteLoss', conn', pktSentACK', pktSentNAK'⟩ :=
    c'
  cases hrecv
  cases hrecv'
  cases hconn
  cases hpush with
  | belated =>
    cases category with
    | recv | belated | drop => exact .counts rfl rfl
    | retrans => exact moves_retrans rfl rfl
    | unique | late | undecrypt => exact .stays rfl rfl
  | dropped =>
    cases category with
    | recv | drop => exact .counts rfl rfl
    | retrans => exact moves_retrans rfl rfl
    | unique | belated | late | undecrypt => exact .stays rfl rfl
  | inserted packets hperm =>
    cases category with
    | recv | unique | late => exact .counts rfl rfl
    | retrans => exact moves_retrans rfl rfl
    | belated | drop | undecrypt => exact .stays rfl rfl
  | appended pktLoss =>
    cases category with
    | recv | unique => exact .counts rfl rfl
    | retrans => exact moves_retrans rfl rfl
    | belated | late | drop | undecrypt => exact .stays rfl rfl
  | skipped hnew hlte hplace =>
    cases category with
    | recv => exact .counts rfl rfl
    | retrans => exact moves_retrans rfl rfl
    | unique | belated | late | drop | undecrypt => exact .stays rfl rfl

theorem updateWrapPeriod_statistics (c : Connection) (timestamp : UInt32) :
    (c.updateWrapPeriod timestamp).statistics = c.statistics := by
  unfold Connection.updateWrapPeriod
  split
  · split <;> rfl
  · split <;> rfl

/-- The decryption counts the packet, or it changes no counter. -/
theorem decrypt_statistics (prim : Primitives) (c : Connection) (p : Packet) :
    (c.decrypt prim p).1.statistics = c.statistics ∨
      (c.decrypt prim p).1.statistics = (c.countUndecrypt p).statistics := by
  unfold Connection.decrypt
  split
  · exact Or.inl rfl
  split
  · exact Or.inr rfl
  split
  · exact Or.inr rfl
  · exact Or.inl rfl

theorem handleData_statistics (prim : Primitives) (c : Connection) (p : Packet) :
    (c.handleData prim p).1.conn = c.conn ∧
      ((c.handleData prim p).1.statistics = c.statistics ∨
        (c.handleData prim p).1.statistics = (c.countUndecrypt p).statistics) := by
  unfold Connection.handleData
  split
  · exact ⟨rfl, Or.inl rfl⟩
  dsimp only
  have hsame := updateWrapPeriod_statistics c p.header.timestamp
  obtain ⟨hconn, -⟩ := c.updateWrapPeriod_fields p.header.timestamp
  generalize c.updateWrapPeriod p.header.timestamp = c₁ at hsame hconn ⊢
  refine ⟨(c₁.decrypt_fields prim _).2.1.trans hconn, ?_⟩
  rw [← hsame]
  refine (decrypt_statistics prim c₁ _).imp id fun h => h.trans ?_
  unfold Connection.countUndecrypt
  rw [hsame]
  rfl

/-- The decryption moves the counters of one category only. -/
theorem moves_undecrypt {connection : Connection} {p : Packet} (c c' : Counters)
    (hc : c.conn = connection.statistics) (hrecv : c'.recv = c.recv)
    (hconn : c'.conn = connection.statistics ∨
      c'.conn = (connection.countUndecrypt p).statistics) (category : Category) :
    Moves p category c c' := by
  obtain ⟨headerSize, send, usSndDuration, recv, byteLoss, conn, pktSentACK, pktSentNAK⟩ := c
  obtain ⟨headerSize', send', usSndDuration', recv', byteLoss', conn', pktSentACK', pktSentNAK'⟩ :=
    c'
  cases hc
  cases hrecv
  rcases hconn with hconn | hconn
  · cases hconn
    cases category <;> exact .stays rfl rfl
  · cases hconn
    cases category with
    | undecrypt => exact .counts rfl rfl
    | recv | unique | belated | late | drop | retrans => exact .stays rfl rfl

/-- All other categories are counted by the receiver. -/
theorem accumulated_pktField_of_recv_eq {c c' : Counters} {category : Category}
    (hrecv : c'.recv = c.recv) (hne : category ≠ .undecrypt) :
    c'.accumulated category.pktField = c.accumulated category.pktField := by
  cases category with
  | undecrypt => exact absurd rfl hne
  | recv | unique | belated | late | drop | retrans =>
    simp only [Category.pktField, Counters.accumulated, hrecv]

namespace Metering

/-! ### The ledger -/

section
variable {s s' : Metering} {p : Packet} {category : Category}

theorem counted_note_of_eq
    (h : s'.counters.accumulated category.pktField = s.counters.accumulated category.pktField) :
    (s.note s' p).counted category = s.counted category := if_pos h

theorem counted_note_of_succ
    (h : s'.counters.accumulated category.pktField
      = s.counters.accumulated category.pktField + 1) :
    (s.note s' p).counted category = s.counted category ++ [p] := by
  refine if_neg ?_
  rw [h]
  simp

theorem counted_note_cases (s s' : Metering) (p : Packet) (category : Category) :
    (s.note s' p).counted category = s.counted category ∨
      (s.note s' p).counted category = s.counted category ++ [p] := by
  unfold note
  dsimp only
  split
  · exact Or.inl rfl
  · exact Or.inr rfl

/-- Counters that move together still count the packets of the history. -/
theorem counts_note (hmoves : Moves p category s.counters s'.counters)
    (h : Counts (s.counters.accumulated category.pktField) (category.payload s.counters)
      (s.counted category)) :
    Counts (s'.counters.accumulated category.pktField) (category.payload s'.counters)
      ((s.note s' p).counted category) := by
  cases hmoves with
  | stays hpkt hbyte =>
    rw [counted_note_of_eq hpkt, hpkt, hbyte]
    exact h
  | counts hpkt hbyte =>
    rw [counted_note_of_succ hpkt, hpkt, hbyte]
    exact h.concat p

end

/-- What the counters stand for. -/
structure Ledger (s : Metering) : Prop where
  counts : ∀ category : Category, Counts (s.counters.accumulated category.pktField)
    (category.payload s.counters) (s.counted category)
  received : ∀ category, category ≠ .undecrypt →
    (s.counted category).Sublist (s.counted .recv)
  missing : s.receiver.statistics.pktLoss = UInt64.ofNat s.missing
  missingBytes : s.byteLoss = UInt64.ofNat s.missingBytes
  lost : s.receiver.statistics.pktLost = UInt64.ofNat s.lost
  acks : s.pktSentACK = UInt64.ofNat s.acks
  naks : s.pktSentNAK = UInt64.ofNat s.naks

/-- The history only gets longer, and what has nothing to do with received packets stays. -/
structure Grows (s s' : Metering) : Prop where
  counted : ∀ category, (s.counted category).Sublist (s'.counted category)
  missing : s.missing ≤ s'.missing
  missingBytes : s.missingBytes ≤ s'.missingBytes
  lost : s.lost ≤ s'.lost
  acks : s.acks ≤ s'.acks
  naks : s.naks ≤ s'.naks
  headerSize : s'.headerSize = s.headerSize
  send : s'.send = s.send
  usSndDuration : s'.usSndDuration = s.usSndDuration
  pktRecvACK : s'.connection.statistics.pktRecvACK = s.connection.statistics.pktRecvACK
  pktRecvNAK : s'.connection.statistics.pktRecvNAK = s.connection.statistics.pktRecvNAK

theorem ledger_init (config : SrtConnConfig) (send : SendStats) (usSndDuration : UInt64)
    (statistics : Statistics) : (init config send usSndDuration statistics).Ledger where
  counts category := by cases category <;> exact .nil
  received _ _ := List.Sublist.refl _
  missing := rfl
  missingBytes := rfl
  lost := rfl
  acks := rfl
  naks := rfl

theorem ofNat_ite_succ {x : UInt64} {n : Nat} {c : Prop} [Decidable c] (h : x = UInt64.ofNat n) :
    (if c then x + 1 else x) = UInt64.ofNat (if c then n + 1 else n) := by
  split
  · rw [h, UInt64.ofNat_add]
    rfl
  · exact h

theorem le_ite_succ {n : Nat} {c : Prop} [Decidable c] : n ≤ if c then n + 1 else n := by
  split <;> omega

theorem sublist_note (s s' : Metering) (p : Packet) (category : Category) :
    (s.counted category).Sublist ((s.note s' p).counted category) := by
  rcases counted_note_cases s s' p category with heq | heq
  · rw [heq]
  · rw [heq]
    exact List.sublist_append_left _ _

section
variable {s s' : Metering} {p : Packet}

/-- A packet is in another category only if it is received or was received before. -/
theorem received_note (h : s.Ledger)
    (hrecv : (∀ category : Category, category ≠ .undecrypt →
        s'.counters.accumulated category.pktField = s.counters.accumulated category.pktField) ∨
      s'.counters.accumulated Category.recv.pktField
        = s.counters.accumulated Category.recv.pktField + 1)
    (category : Category) (hne : category ≠ .undecrypt) :
    ((s.note s' p).counted category).Sublist ((s.note s' p).counted .recv) := by
  have hsub := h.received category hne
  rcases hrecv with hsame | hsucc
  · -- The packet is in no category but that of the packets that could not be decrypted.
    rw [counted_note_of_eq (hsame category hne), counted_note_of_eq (hsame .recv (by decide))]
    exact hsub
  · rw [counted_note_of_succ hsucc]
    rcases counted_note_cases s s' p category with heq | heq
    · rw [heq]
      exact hsub.trans (List.sublist_append_left _ _)
    · rw [heq]
      exact hsub.append (List.Sublist.refl _)

/-- A step that counts a packet keeps the ledger. -/
theorem ledger_note (h : s.Ledger)
    (hmoves : ∀ category, Moves p category s.counters s'.counters)
    (hreceived : ∀ category, category ≠ .undecrypt →
      ((s.note s' p).counted category).Sublist ((s.note s' p).counted .recv))
    (hmissing : s'.receiver.statistics.pktLoss = UInt64.ofNat s'.missing)
    (hmissingBytes : s'.byteLoss = UInt64.ofNat s'.missingBytes)
    (hlost : s'.receiver.statistics.pktLost = UInt64.ofNat s'.lost)
    (hacks : s'.pktSentACK = UInt64.ofNat s'.acks)
    (hnaks : s'.pktSentNAK = UInt64.ofNat s'.naks) : (s.note s' p).Ledger where
  counts category := counts_note (hmoves category) (h.counts category)
  received := hreceived
  missing := hmissing
  missingBytes := hmissingBytes
  lost := hlost
  acks := hacks
  naks := hnaks

end

section
variable {s : Metering}

/-- The decryption of a packet. -/
theorem ledger_handle (h : s.Ledger) (prim : Primitives) (p : Packet) :
    (s.handle prim p).Ledger ∧ s.Grows (s.handle prim p) := by
  obtain ⟨hconn, hstatistics⟩ := handleData_statistics prim s.connection p
  unfold handle
  dsimp only
  generalize s.connection.handleData prim p = out at hconn hstatistics ⊢
  constructor
  · refine ledger_note h (moves_undecrypt s.counters _ rfl rfl hstatistics)
      (received_note h (Or.inl fun category => accumulated_pktField_of_recv_eq rfl)) h.missing
      h.missingBytes h.lost h.acks h.naks
  · exact
      { counted := sublist_note s _ p
        missing := le_rfl
        missingBytes := le_rfl
        lost := le_rfl
        acks := le_rfl
        naks := le_rfl
        headerSize := congrArg (fun conn : SrtConn => Gosrt.headerSize conn.localAddr) hconn
        send := rfl
        usSndDuration := rfl
        pktRecvACK := hstatistics.elim (congrArg ConnStats.pktRecvACK)
          (congrArg ConnStats.pktRecvACK)
        pktRecvNAK := hstatistics.elim (congrArg ConnStats.pktRecvNAK)
          (congrArg ConnStats.pktRecvNAK) }

/-- `Push` finds as many packets missing as it counts. -/
theorem pktLoss_push (r : Receiver) (p : Packet) :
    (r.push p).1.statistics.pktLoss = r.statistics.pktLoss + gap r p := by
  have hzero (x : UInt64) : x = x + 0 := (UInt64.add_zero x).symm
  unfold gap Receiver.push
  dsimp only
  split
  · exact hzero _
  split
  · exact hzero _
  split
  · exact hzero _
  split
  · split <;> exact hzero _
  · rfl

theorem pktLost_of_pushed {r r' : Receiver} {p : Packet} (h : Receiver.Pushed r p r') :
    r'.statistics.pktLost = r.statistics.pktLost := by
  cases h <;> rfl

/-- `Push` of the packet that was decrypted. -/
theorem ledger_push (h : s.Ledger) (p : Packet) (avgPayloadSize : UInt64) :
    (s.push p avgPayloadSize).Ledger ∧ s.Grows (s.push p avgPayloadSize) := by
  have hpush := Receiver.pushed_push s.receiver p
  have hloss := pktLoss_push s.receiver p
  have hpkt : (s.receiver.push p).1.statistics.pkt = s.receiver.statistics.pkt + 1 := by
    generalize (s.receiver.push p).1 = r' at hpush
    cases hpush <;> rfl
  unfold push
  dsimp only
  generalize gap s.receiver p = missing at hloss ⊢
  generalize s.receiver.push p = out at hpush hloss hpkt ⊢
  constructor
  · refine ledger_note h (moves_of_pushed hpush s.counters _ rfl rfl rfl)
      (received_note h (Or.inr hpkt)) ?_ ?_ ((pktLost_of_pushed hpush).trans h.lost) h.acks
      (ofNat_ite_succ h.naks)
    · show out.1.statistics.pktLoss = _
      rw [hloss, h.missing, UInt64.ofNat_add, UInt64.ofNat_toNat]
    · show s.byteLoss + missing * avgPayloadSize = _
      rw [h.missingBytes, UInt64.ofNat_add, UInt64.ofNat_mul, UInt64.ofNat_toNat,
        UInt64.ofNat_toNat]
  · exact
      { counted := sublist_note s _ p
        missing := Nat.le_add_right _ _
        missingBytes := Nat.le_add_right _ _
        lost := le_rfl
        acks := le_rfl
        naks := le_ite_succ
        headerSize := rfl
        send := rfl
        usSndDuration := rfl
        pktRecvACK := rfl
        pktRecvNAK := rfl }

/-- The parts of `Tick` do not change the counters of a category. -/
theorem ledger_tick (h : s.Ledger) {r : Receiver} {pktSentACK pktSentNAK : UInt64}
    {lost acks naks : Nat} (pktBuf byteBuf msBuf : UInt64)
    (hstatistics : r.statistics = { s.receiver.statistics with
      pktBuf := pktBuf
      byteBuf := byteBuf
      msBuf := msBuf
      pktLost := r.statistics.pktLost })
    (hlost : r.statistics.pktLost = UInt64.ofNat lost)
    (hacks : pktSentACK = UInt64.ofNat acks) (hnaks : pktSentNAK = UInt64.ofNat naks) :
    Ledger { s with
      receiver := r
      pktSentACK := pktSentACK
      pktSentNAK := pktSentNAK
      lost := lost
      acks := acks
      naks := naks } where
  counts category := by
    have hcounts := h.counts category
    unfold counters
    dsimp only
    rw [hstatistics]
    cases category <;> exact hcounts
  received := h.received
  missing := by
    show r.statistics.pktLoss = _
    rw [hstatistics]
    exact h.missing
  missingBytes := h.missingBytes
  lost := hlost
  acks := hacks
  naks := hnaks

/-- Reports and the rate do not even touch the packets that wait. -/
theorem ledger_sameBuffer (h : s.Ledger) {r : Receiver} (hsame : s.receiver.SameBuffer r)
    {pktSentACK pktSentNAK : UInt64} {acks naks : Nat} (hacks : pktSentACK = UInt64.ofNat acks)
    (hnaks : pktSentNAK = UInt64.ofNat naks) :
    Ledger { s with
      receiver := r
      pktSentACK := pktSentACK
      pktSentNAK := pktSentNAK
      acks := acks
      naks := naks } := by
  obtain ⟨-, -, -, msBuf, hstatistics⟩ := hsame
  have hlost : r.statistics.pktLost = UInt64.ofNat s.lost := by
    rw [hstatistics]
    exact h.lost
  exact ledger_tick h _ _ msBuf (by rw [hstatistics]) hlost hacks hnaks

theorem grows_tick {r : Receiver} {pktSentACK pktSentNAK : UInt64} {statistics : Statistics}
    {called : Bool} {lost acks naks : Nat} (hlost : s.lost ≤ lost) (hacks : s.acks ≤ acks)
    (hnaks : s.naks ≤ naks) :
    s.Grows { s with
      receiver := r
      pktSentACK := pktSentACK
      pktSentNAK := pktSentNAK
      statistics := statistics
      called := called
      lost := lost
      acks := acks
      naks := naks } where
  counted _ := List.Sublist.refl _
  missing := le_rfl
  missingBytes := le_rfl
  lost := hlost
  acks := hacks
  naks := hnaks
  headerSize := rfl
  send := rfl
  usSndDuration := rfl
  pktRecvACK := rfl
  pktRecvNAK := rfl

/-- Every event keeps the ledger, and the history grows. -/
theorem ledger_step (h : s.Ledger) {prim : Primitives} {e : Event} {s' : Metering}
    (hs : step prim s e = some s') : s'.Ledger ∧ s.Grows s' := by
  cases e with
  | handle p =>
    obtain ⟨-, hs⟩ := Option.ite_none_right_eq_some.mp hs
    cases hs
    exact ledger_handle h prim p
  | push avgPayloadSize =>
    obtain ⟨p, -, rfl⟩ := Option.map_eq_some_iff.mp hs
    exact ledger_push h p avgPayloadSize
  | tickACK now =>
    cases hs
    exact ⟨ledger_sameBuffer h (Receiver.sameBuffer_periodicACK s.receiver now)
      (ofNat_ite_succ h.acks) h.naks, grows_tick le_rfl le_ite_succ le_rfl⟩
  | tickNAK now =>
    cases hs
    exact ⟨ledger_sameBuffer h (Receiver.sameBuffer_periodicNAK s.receiver now) h.acks
      (ofNat_ite_succ h.naks), grows_tick le_rfl le_rfl le_ite_succ⟩
  | tickDeliver now =>
    cases hs
    refine ⟨ledger_tick h _ _ s.receiver.statistics.msBuf rfl ?_ h.acks h.naks,
      grows_tick (Nat.le_add_right _ _) le_rfl le_rfl⟩
    -- Only here packets are given up, and the history counts them in the same way.
    show s.receiver.statistics.pktLost + _ = _
    rw [h.lost, UInt64.ofNat_add, UInt64.ofNat_toNat]
    rfl
  | tickRate now =>
    cases hs
    exact ⟨ledger_sameBuffer h (Receiver.sameBuffer_tickRate s.receiver now) h.acks h.naks,
      grows_tick le_rfl le_rfl le_rfl⟩
  | stats now =>
    obtain ⟨-, hs⟩ := Option.ite_none_right_eq_some.mp hs
    cases hs
    exact ⟨{ h with }, grows_tick le_rfl le_rfl le_rfl⟩

end

/-! ### The reported numbers -/

/-- The number that a field stands for. -/
def total (s : Metering) : StatsField → Nat
  | .pktRecv => (s.counted .recv).length
  | .pktRecvUnique => (s.counted .unique).length
  | .pktRecvBelated => (s.counted .belated).length
  | .pktRecvLate => (s.counted .late).length
  | .pktRecvDrop => (s.counted .drop).length
  | .pktRecvRetrans => (s.counted .retrans).length
  | .pktRecvUndecrypt => (s.counted .undecrypt).length
  | .byteRecv => wireBytes s.headerSize.toNat (s.counted .recv)
  | .byteRecvUnique => wireBytes s.headerSize.toNat (s.counted .unique)
  | .byteRecvBelated => wireBytes s.headerSize.toNat (s.counted .belated)
  | .byteRecvLate =>
    payloadBytes (s.counted .late) + (s.counted .belated).length * s.headerSize.toNat
  | .byteRecvDrop => wireBytes s.headerSize.toNat (s.counted .drop)
  | .byteRecvRetrans => wireBytes s.headerSize.toNat (s.counted .retrans)
  | .byteRecvUndecrypt => wireBytes s.headerSize.toNat (s.counted .undecrypt)
  | .pktRecvLoss => s.missing
  | .byteRecvLoss => s.missingBytes + s.missing * s.headerSize.toNat
  | .pktRecvLost => s.lost
  | .pktSentACK => s.acks
  | .pktSentNAK => s.naks
  -- The other fields do not change in a run.
  | f => (s.counters.accumulated f).toNat

section
variable {s s' : Metering}

/-- Each field has its number, in 64 bits. -/
theorem accumulated_eq_total (h : s.Ledger) (f : StatsField) :
    s.counters.accumulated f = UInt64.ofNat (s.total f) := by
  have hstays (x : UInt64) : x = UInt64.ofNat x.toNat := (UInt64.ofNat_toNat).symm
  cases f with
  | pktRecv => exact (h.counts .recv).pkt
  | pktRecvUnique => exact (h.counts .unique).pkt
  | pktRecvBelated => exact (h.counts .belated).pkt
  | pktRecvLate => exact (h.counts .late).pkt
  | pktRecvDrop => exact (h.counts .drop).pkt
  | pktRecvRetrans => exact (h.counts .retrans).pkt
  | pktRecvUndecrypt => exact (h.counts .undecrypt).pkt
  | byteRecv => exact (h.counts .recv).wire s.headerSize
  | byteRecvUnique => exact (h.counts .unique).wire s.headerSize
  | byteRecvBelated => exact (h.counts .belated).wire s.headerSize
  | byteRecvDrop => exact (h.counts .drop).wire s.headerSize
  | byteRecvRetrans => exact (h.counts .retrans).wire s.headerSize
  | byteRecvUndecrypt => exact (h.counts .undecrypt).wire s.headerSize
  | byteRecvLate =>
    -- `Stats` adds the headers of the belated packets here.
    have hlate : s.receiver.statistics.byteLate = _ := (h.counts .late).byte
    have hbelated : s.receiver.statistics.pktBelated = _ := (h.counts .belated).pkt
    show s.receiver.statistics.byteLate + s.receiver.statistics.pktBelated * s.headerSize = _
    unfold total
    rw [hlate, hbelated, UInt64.ofNat_add, UInt64.ofNat_mul, UInt64.ofNat_toNat]
  | pktRecvLoss => exact h.missing
  | byteRecvLoss =>
    show s.byteLoss + s.receiver.statistics.pktLoss * s.headerSize = _
    unfold total
    rw [h.missingBytes, h.missing, UInt64.ofNat_add, UInt64.ofNat_mul, UInt64.ofNat_toNat]
  | pktRecvLost => exact h.lost
  | pktSentACK => exact h.acks
  | pktSentNAK => exact h.naks
  | _ => exact hstays _

/-- The numbers grow with the history. -/
theorem total_le (h : s.Grows s') (f : StatsField) : s.total f ≤ s'.total f := by
  have hlength (category : Category) := (h.counted category).length_le
  have hwire (category : Category) : wireBytes s.headerSize.toNat (s.counted category)
      ≤ wireBytes s'.headerSize.toNat (s'.counted category) := by
    rw [h.headerSize]
    exact wireBytes_le_of_sublist _ (h.counted category)
  cases f with
  | pktRecv | pktRecvUnique | pktRecvBelated | pktRecvLate | pktRecvDrop | pktRecvRetrans
  | pktRecvUndecrypt => exact hlength _
  | byteRecv | byteRecvUnique | byteRecvBelated | byteRecvDrop | byteRecvRetrans
  | byteRecvUndecrypt => exact hwire _
  | byteRecvLate =>
    unfold total
    rw [h.headerSize]
    exact Nat.add_le_add (payloadBytes_le_of_sublist (h.counted .late))
      (Nat.mul_le_mul_right _ (hlength .belated))
  | byteRecvLoss =>
    unfold total
    rw [h.headerSize]
    exact Nat.add_le_add h.missingBytes (Nat.mul_le_mul_right _ h.missing)
  | pktRecvLoss => exact h.missing
  | pktRecvLost => exact h.lost
  | pktSentACK => exact h.acks
  | pktSentNAK => exact h.naks
  | _ =>
    refine le_of_eq (congrArg UInt64.toNat ?_)
    simp [Counters.accumulated, counters, h.headerSize, h.send, h.usSndDuration, h.pktRecvACK,
      h.pktRecvNAK]

/-- The number of a category: the packets, or the bytes on the wire. -/
theorem total_pktField (s : Metering) (category : Category) :
    s.total category.pktField = (s.counted category).length := by
  cases category <;> rfl

theorem total_byteField (s : Metering) {category : Category} (hne : category ≠ .late) :
    s.total category.byteField = wireBytes s.headerSize.toNat (s.counted category) := by
  cases category with
  | late => exact absurd rfl hne
  | recv | unique | belated | drop | retrans | undecrypt => rfl

/-- A field is exact if its number fits. -/
theorem toNat_accumulated (h : s.Ledger) {f : StatsField} (hfits : s.total f < 2 ^ 64) :
    (s.counters.accumulated f).toNat = s.total f := by
  rw [accumulated_eq_total h]
  exact UInt64.toNat_ofNat_of_lt' hfits

theorem toNat_headerSize_pos (s : Metering) : 0 < s.headerSize.toNat :=
  headerSize_pos s.connection.conn.localAddr

/-- All categories fit if the received packets and those that could not be decrypted do. -/
theorem total_lt (h : s.Ledger)
    (hrecv : wireBytes s.headerSize.toNat (s.counted .recv) < 2 ^ 64)
    (hundecrypt : wireBytes s.headerSize.toNat (s.counted .undecrypt) < 2 ^ 64)
    (category : Category) :
    wireBytes s.headerSize.toNat (s.counted category) < 2 ^ 64 ∧
      s.total category.byteField < 2 ^ 64 ∧ s.total category.pktField < 2 ^ 64 := by
  have hwire : wireBytes s.headerSize.toNat (s.counted category) < 2 ^ 64 := by
    by_cases heq : category = .undecrypt
    · rw [heq]
      exact hundecrypt
    · exact (wireBytes_le_of_sublist _ (h.received category heq)).trans_lt hrecv
  refine ⟨hwire, ?_, ?_⟩
  · by_cases heq : category = .late
    · -- The headers are of other packets, but of received ones too.
      have hpayload := payloadBytes_le_of_sublist (h.received .late (by decide))
      have hheaders := Nat.mul_le_mul_right s.headerSize.toNat
        (h.received .belated (by decide)).length_le
      rw [wireBytes_eq] at hrecv
      rw [heq]
      exact (Nat.add_le_add hpayload hheaders).trans_lt hrecv
    · rw [total_byteField s heq]
      exact hwire
  · rw [total_pktField]
    exact (length_le_wireBytes s.toNat_headerSize_pos _).trans_lt hwire

/-- The accumulated values are right exactly if the late packets are as many as the belated
ones. -/
theorem categories_iff (h : s.Ledger) :
    (∀ category : Category,
      (s.counters.accumulated category.pktField).toNat = (s.counted category).length ∧
        (s.counters.accumulated category.byteField).toNat
          = wireBytes s.headerSize.toNat (s.counted category)) ↔
      (s.counted .late).length = (s.counted .belated).length ∧
        wireBytes s.headerSize.toNat (s.counted .recv) < 2 ^ 64 ∧
        wireBytes s.headerSize.toNat (s.counted .undecrypt) < 2 ^ 64 := by
  constructor
  · intro hsums
    have hfits (category : Category) :
        wireBytes s.headerSize.toNat (s.counted category) < 2 ^ 64 := by
      rw [← (hsums category).2]
      exact UInt64.toNat_lt _
    -- The payload is the same on both sides, so the headers are too.
    have hlate := (hsums .late).2
    rw [toNat_accumulated h (total_lt h (hfits .recv) (hfits .undecrypt) .late).2.1,
      wireBytes_eq] at hlate
    exact ⟨(Nat.eq_of_mul_eq_mul_right s.toNat_headerSize_pos (Nat.add_left_cancel hlate)).symm,
      hfits .recv, hfits .undecrypt⟩
  · rintro ⟨hlate, hrecv, hundecrypt⟩ category
    obtain ⟨-, hbyte, hpkt⟩ := total_lt h hrecv hundecrypt category
    rw [toNat_accumulated h hpkt, toNat_accumulated h hbyte, total_pktField]
    refine ⟨rfl, ?_⟩
    by_cases heq : category = .late
    · rw [heq, wireBytes_eq, hlate]
      rfl
    · exact total_byteField s heq

theorem callStats_eq_some_iff {now : UInt64} : s.callStats now = some s' ↔
    (s.called = true → s.statistics.msTimeStamp ≤ now) ∧
      s' = { s with statistics := s.counters.stats now s.statistics, called := true } := by
  unfold callStats
  rw [Option.ite_none_right_eq_some, Option.some.injEq]
  exact and_congr_right fun _ => eq_comm

/-- A call of `Stats` reports the right sums exactly if it is balanced. -/
theorem sums_iff_balanced (h : s.Ledger) (e : Event) : s.Sums e ↔ s.Balanced e := by
  cases e with
  | stats now =>
    unfold Sums Balanced
    dsimp only
    rw [Option.isSome_iff_exists]
    constructor
    · rintro hsums ⟨s', hs'⟩
      obtain ⟨-, rfl⟩ := callStats_eq_some_iff.mp hs'
      exact (categories_iff h).mp (hsums _ hs')
    · intro hbalanced s' hs'
      have hright := (categories_iff h).mpr (hbalanced ⟨s', hs'⟩)
      obtain ⟨-, rfl⟩ := callStats_eq_some_iff.mp hs'
      exact hright
  | _ => exact Iff.rfl

/-- All fields fit. -/
theorem total_lt_of_fits (h : s.Ledger) {now : UInt64} (hfits : s.Fits (.stats now))
    (f : StatsField) : s.total f < 2 ^ 64 := by
  obtain ⟨hrecv, hundecrypt, hmissing, hlost, hacks, hnaks⟩ := hfits
  have hcategory := total_lt h hrecv hundecrypt
  cases f with
  | pktRecv => exact (hcategory .recv).2.2
  | pktRecvUnique => exact (hcategory .unique).2.2
  | pktRecvBelated => exact (hcategory .belated).2.2
  | pktRecvLate => exact (hcategory .late).2.2
  | pktRecvDrop => exact (hcategory .drop).2.2
  | pktRecvRetrans => exact (hcategory .retrans).2.2
  | pktRecvUndecrypt => exact (hcategory .undecrypt).2.2
  | byteRecv => exact (hcategory .recv).2.1
  | byteRecvUnique => exact (hcategory .unique).2.1
  | byteRecvBelated => exact (hcategory .belated).2.1
  | byteRecvLate => exact (hcategory .late).2.1
  | byteRecvDrop => exact (hcategory .drop).2.1
  | byteRecvRetrans => exact (hcategory .retrans).2.1
  | byteRecvUndecrypt => exact (hcategory .undecrypt).2.1
  | pktRecvLoss =>
    have hle := Nat.le_mul_of_pos_right s.missing s.toNat_headerSize_pos
    exact (hle.trans (Nat.le_add_left _ _)).trans_lt hmissing
  | byteRecvLoss => exact hmissing
  | pktRecvLost => exact hlost
  | pktSentACK => exact hacks
  | pktSentNAK => exact hnaks
  | _ => exact UInt64.toNat_lt _

/-- What was reported is a number that the field had before. -/
def Reported (s : Metering) : Prop :=
  s.called = true → ∀ f, ∃ n ≤ s.total f, s.statistics.accumulated f = UInt64.ofNat n

/-- The fields that fit do not go down. -/
theorem noUnderflow_of_fits (h : s.Ledger) (hreported : s.Reported) (e : Event)
    (hfits : s.Fits e) : s.NoUnderflow e := by
  cases e with
  | stats now =>
    intro s' hs' hcalled
    obtain ⟨hclock, rfl⟩ := callStats_eq_some_iff.mp hs'
    refine ⟨hclock hcalled, fun f => ?_⟩
    -- The earlier number is not larger than one that fits, so it fits too.
    obtain ⟨n, hn, hprevious⟩ := hreported hcalled f
    have hlt := total_lt_of_fits h hfits f
    show _ ≤ s.counters.accumulated f
    rw [UInt64.le_iff_toNat_le, hprevious, toNat_accumulated h hlt,
      UInt64.toNat_ofNat_of_lt' (hn.trans_lt hlt)]
    exact hn
  | _ => trivial

/-- Only a call of `Stats` touches what was reported. -/
theorem reported_step (h : s.Ledger) (hreported : s.Reported) {prim : Primitives} {e : Event}
    (hs : step prim s e = some s') : s'.Reported := by
  obtain ⟨-, hgrows⟩ := ledger_step h hs
  have hkept (hcalled : s'.called = s.called) (hstatistics : s'.statistics = s.statistics) :
      s'.Reported := by
    intro hafter f
    rw [hcalled] at hafter
    obtain ⟨n, hn, hprevious⟩ := hreported hafter f
    rw [hstatistics]
    exact ⟨n, hn.trans (total_le hgrows f), hprevious⟩
  cases e with
  | stats now =>
    obtain ⟨-, rfl⟩ := callStats_eq_some_iff.mp hs
    exact fun _ f => ⟨s.total f, total_le hgrows f, accumulated_eq_total h f⟩
  | handle p =>
    obtain ⟨-, hs⟩ := Option.ite_none_right_eq_some.mp hs
    cases hs
    exact hkept rfl rfl
  | push avgPayloadSize =>
    obtain ⟨p, -, rfl⟩ := Option.map_eq_some_iff.mp hs
    exact hkept rfl rfl
  | tickACK now | tickNAK now | tickDeliver now | tickRate now =>
    cases hs
    exact hkept rfl rfl

end

/-! ### Runs -/

section
variable (prim : Primitives) (config : SrtConnConfig) (send : SendStats) (usSndDuration : UInt64)
  (statistics : Statistics) (events : List Event)

theorem runMeets_sums_iff :
    RunMeets (step prim) Sums (init config send usSndDuration statistics) events ↔
      RunMeets (step prim) Balanced (init config send usSndDuration statistics) events :=
  runMeets_congr_of Ledger (fun _ e _ h => sums_iff_balanced h e)
    (fun _ _ _ _ _ h hs => (ledger_step h hs).1) (runMeets_true _ _ events)
    (ledger_init config send usSndDuration statistics)

/-- For every run of data packets: each report has the packets and bytes of all categories exactly
if there are as many late packets as belated ones and the bytes fit. No difference between two
reports is negative as long as what is counted fits. -/
theorem sums_iff :
    (RunMeets (step prim) Sums (init config send usSndDuration statistics) events ↔
      RunMeets (step prim) Balanced (init config send usSndDuration statistics) events) ∧
    (RunMeets (step prim) Fits (init config send usSndDuration statistics) events →
      RunMeets (step prim) NoUnderflow (init config send usSndDuration statistics) events) := by
  refine ⟨runMeets_sums_iff prim config send usSndDuration statistics events, fun hfits => ?_⟩
  refine runMeets_of (fun s => s.Ledger ∧ s.Reported) ?_ ?_ hfits
    ⟨ledger_init config send usSndDuration statistics, nofun⟩
  · rintro s e s' - ⟨hledger, hreported⟩ hs
    exact ⟨(ledger_step hledger hs).1, reported_step hledger hreported hs⟩
  · rintro s e hfits ⟨hledger, hreported⟩
    exact noUnderflow_of_fits hledger hreported e hfits

end

/-- Three packets of two bytes on a connection without encryption. The second one comes last, in
time to fill the gap. -/
def lateRun : List Event :=
  [.handle (Sample.dataPacket 1), .push 1456, .handle (Sample.dataPacket 3), .push 1274,
    .handle (Sample.dataPacket 2), .push 1114]

/-- The start of the run. -/
def lateInit : Metering :=
  init { Sample.connConfig 4 2 with crypto := none } {} 0 ⟨0, fun _ => 0, 0, fun _ => 0⟩

/-- No packet was belated, so the headers are missing in the bytes of the late packet. -/
theorem lateRun_headers :
    ((runD (step Sample.primitives) lateInit lateRun).counted .late).map Packet.seq
        = [Number.new 2 maxSequenceNumber] ∧
      wireBytes 44 ((runD (step Sample.primitives) lateInit lateRun).counted .late) = 46 ∧
      (runD (step Sample.primitives) lateInit lateRun).counters.accumulated .pktRecvLate = 1 ∧
      (runD (step Sample.primitives) lateInit lateRun).counters.accumulated .byteRecvLate = 2 ∧
      ¬RunMeets (step Sample.primitives) Sums lateInit (lateRun ++ [.stats 1]) := by
  refine ⟨by decide +kernel, by decide +kernel, by decide +kernel, by decide +kernel, ?_⟩
  unfold lateInit
  rw [runMeets_sums_iff]
  decide +kernel

end Metering

end Gosrt
