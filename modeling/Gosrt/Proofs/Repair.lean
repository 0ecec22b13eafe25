import Gosrt.Proofs.Duplex
import Gosrt.Proofs.Endpoint.Repair

/-!
# `Gosrt.Proofs.Repair`: one undisturbed round trip fills the gaps

Loss is repaired by the receiver: it reports the gaps in its buffer, and the sender sends what it
still has of them again. The two halves are in `Gosrt.Proofs.Endpoint.Repair`. Here they are put
into a run of both connections. From any reachable state, after one report that arrives and the
answers to it in any order, exactly those numbers are still missing that the sender had dropped
(`repair_fills`).
-/

set_option autoImplicit false

namespace Gosrt

open Lib Number

namespace Duplex

section
variable {prim : Primitives} {sort : SortSlice} {s : Duplex} {y : Endpoint} {out : List Bytes}

/-- The network brings datagrams to the right end, and it handles one after the other. -/
theorem run_takesAll (m : Nat → Bytes) (index : Nat → Nat) (inputs : Nat → Endpoint.Inputs)
    (order : List Nat) :
    ∀ {s : Duplex} {out : List Bytes}, (∀ i ∈ order, s.fromLeft[index i]? = some (m i)) →
      Endpoint.takesAll prim sort s.right (order.map fun i => (m i, inputs i)) = some (y, out) →
      run (step prim sort) s (order.flatMap fun i =>
          [.receive .right (index i) true, .act .right (.handle (inputs i))]) =
        some { s with right := y, fromRight := s.fromRight ++ out } := by
  induction order with
  | nil =>
    intro s out _ htakes
    cases htakes
    simp
  | cons i order ih =>
    intro s out hsent htakes
    obtain ⟨hi, hrest⟩ := List.forall_mem_cons.mp hsent
    rw [List.map_cons] at htakes
    simp only [Endpoint.takesAll, Option.bind_eq_bind, Option.bind_eq_some_iff, Option.pure_def,
      Option.some.injEq, Prod.mk.injEq] at htakes
    obtain ⟨⟨y₁, out₁⟩, hhandle, ⟨y₂, out₂⟩, htakes, rfl, rfl⟩ := htakes
    have hreceive : (Endpoint.party prim sort).receive s.right (m i) true =
        some (s.right.receive (m i) true, []) := rfl
    have hact : (Endpoint.party prim sort).act (s.right.receive (m i) true) (.handle (inputs i)) =
        some (y₁, out₁) := hhandle
    rw [List.flatMap_cons, List.cons_append, run_cons]
    unfold step
    rw [Pair.step_receive_right hi hreceive, Option.bind_some, List.singleton_append, run_cons,
      Pair.step_act_right hact, Option.bind_some, List.append_nil]
    refine (ih (s := { s with right := y₁, fromRight := s.fromRight ++ out₁ }) hrest
      htakes).trans ?_
    rw [List.append_assoc]

/-- The report is made, it arrives, and the left end answers it. -/
theorem run_report (sort : SortSlice) {t : Terms} {config config' : Config} {r : Repair}
    (hA : s.left.Local t config (t.peer s.right)) (hB : s.right.Local t config' (t.peer s.left))
    (hlen : s.left.history.pushed.length < 2 ^ 30 - 1)
    (hearly : SrtConn.Early t.cipher config
      (s.left.history.popped + s.left.snd.lossList.length))
    (hdest : s.right.conn.peerSocketId = s.left.conn.socketId)
    (hid : s.left.conn.isCaller = false → s.left.conn.socketId ≠ 0) (hreports : s.Reports r) :
    ∃ x sent m, run (step t.prim sort) s
        [.act .right (.recvTickNAK r.now r.timestamp), .receive .left s.fromRight.length true,
          .act .left (.handle r.report)] =
          some ⟨x, (s.right.recvTickNAK r.now r.timestamp).1, s.fromLeft ++ datagrams sent,
            s.fromRight ++ [m]⟩ ∧
      (∀ q ∈ sent, (t.stream config s.left.history.pushed).OnWire q ∧
        q.header.destinationSocketId = s.left.conn.peerSocketId) ∧
      sent.map Packet.seq = s.repairable.reverse.map Packet.seq ∧
      x.history.pushed = s.left.history.pushed ∧
      x.history.popped = s.left.history.popped + sent.length := by
  have hw : Window t.base s.left.history.pushed.length :=
    window_of_isSequenceNumber t.isNumber hlen
  obtain ⟨hgaps, hcovers⟩ : Gaps t.base s.left.history.pushed.length 0 (s.report r) ∧
      ∀ n, t.base.InWindow s.left.history.pushed.length n →
        CIFNAK.covers n (s.report r) = s.right.recv.missing n :=
    Receiver.report_spec hw hB.receives.ordered hreports.elapsed
  let nak := (s.right.conn.sendNAK (s.report r) r.timestamp).marshal
  obtain ⟨c, hc, hhandle⟩ := Endpoint.handle_nak sort (y := s.right) hw hgaps
    hreports.queues.1 hdest hid hreports.whole r.timestamp hreports.room r.report
  -- What the loss list holds of the report is what it holds of the missing numbers.
  have hfilter : (s.left.snd.lossList.filter fun p => CIFNAK.covers p.seq (s.report r)) =
      s.repairable := by
    exact List.filter_congr fun p hp => hcovers p.seq ((hA.sends.stored p hp).inWindow hw).1
  have huses : c.conn.Uses t.cipher s.left.history.popped := hc ▸ hA.sends.uses
  have hsends : Endpoint.Sends t config { s.left with connection := c, networkQueue := [] } :=
    { hA.sends with uses := huses }
  have hconfig : c.conn.config = config := hc ▸ hA.configured
  obtain ⟨x, sent, hnak, hwire, hto, hnumbers, hpushed, hpopped⟩ :=
    Endpoint.nak_resends hsends hconfig hw hreports.some hgaps hearly r.report.pops
  have hreport : s.right.act t.prim sort (.recvTickNAK r.now r.timestamp) =
      some ((s.right.recvTickNAK r.now r.timestamp).1, [nak]) := by
    show some (_, if (s.report r).isEmpty then [] else [nak]) = _
    rw [if_neg (by simpa using hreports.some)]
    rfl
  refine ⟨x, sent, nak, ?_, ?_, ?_, hpushed, hpopped⟩
  · unfold step
    rw [run_cons, Pair.step_act_right hreport, Option.bind_some, run_cons,
      Pair.step_receive_left (m := nak) List.getElem?_concat_length rfl, Option.bind_some,
      run_cons, Pair.step_act_left (hhandle.trans hnak), Option.bind_some, List.append_nil]
    rfl
  · intro q hq
    exact ⟨hwire q hq, (hto q hq).trans (congrArg SrtConn.peerSocketId hc)⟩
  · rw [hnumbers]
    exact congrArg (fun ps => ps.reverse.map Packet.seq) hfilter

/-- The packets that were sent again, in the order in which they arrive. -/
def arriving (sent : List Packet) (order : List Nat) : List Packet :=
  order.map fun i => sent.getD i default

/-- An order of all of them leaves none out. -/
theorem arriving_perm {sent : List Packet} {order : List Nat}
    (horder : order.Perm (List.range sent.length)) : (arriving sent order).Perm sent := by
  refine (horder.map fun i => sent.getD i default).trans (.of_eq ?_)
  refine List.ext_getElem (by simp) fun i hi hi' => ?_
  simp [hi']

/-- The packets for the gaps arrive, in any order. -/
theorem run_answers (sort : SortSlice) {t : Terms} {config : Config} {earlier : List Bytes}
    {sent : List Packet} {order : List Nat} (hB : s.right.Local t config (t.peer s.left))
    (hbounded : s.right.Bounded t config)
    (hw : Window t.base s.left.history.pushed.length) (hqueue : s.right.networkQueue = [])
    (hid : s.right.conn.isCaller = false → s.right.conn.socketId ≠ 0)
    (hfrom : s.fromLeft = earlier ++ datagrams sent)
    (hwire : ∀ q ∈ sent, (t.stream s.left.conn.config s.left.history.pushed).OnWire q)
    (hdest : ∀ q ∈ sent, q.header.destinationSocketId = s.right.conn.socketId)
    (hgap : ∀ q ∈ sent, s.right.recv.missing q.seq = true)
    (horder : order.Perm (List.range sent.length)) (data : Nat → Endpoint.Inputs) :
    ∃ s', run (step t.prim sort) s (order.flatMap fun i =>
        [.receive .right (earlier.length + i) true, .act .right (.handle (data i))]) = some s' ∧
      ∀ n, t.base.InWindow s.left.history.pushed.length n →
        (s'.right.recv.missing n = true ↔
          s.right.recv.missing n = true ∧ ∀ q ∈ sent, n ≠ q.seq) := by
  have hordered := hB.receives.ordered
  have hmem : ∀ i ∈ order, sent.getD i default ∈ sent := fun i hi =>
    (arriving_perm horder).mem_iff.mp (List.mem_map.mpr ⟨i, hi, rfl⟩)
  have hwindow : Window t.base (t.peer s.left).pushed.length := hw
  obtain ⟨y, out, htakes, hmissing⟩ := Endpoint.takesAll_data sort hwindow
    (order.map fun i => (sent.getD i default, data i)) hB hbounded hqueue hid (by
      intro q hq
      obtain ⟨i, hi, rfl⟩ := List.mem_map.mp hq
      have hq := hmem i hi
      obtain ⟨hlow, hhigh, -⟩ := (Receiver.missing_iff hw hordered.lastACK hordered.packets
        hordered.sorted ((hwire _ hq).inWindow hw).1).mp (hgap _ hq)
      exact ⟨hwire _ hq, hdest _ hq, hlow, hhigh⟩)
  rw [List.map_map] at htakes
  have hat : ∀ i ∈ order,
      s.fromLeft[earlier.length + i]? = some (sent.getD i default).marshal := by
    intro i hi
    have hlt : i < sent.length := List.mem_range.mp (horder.mem_iff.mp hi)
    rw [hfrom, List.getElem?_append_right (Nat.le_add_right _ _), Nat.add_sub_cancel_left]
    simp [datagrams, hlt]
  refine ⟨_, run_takesAll _ _ data order hat htakes, fun n hn => ?_⟩
  refine (hmissing n hn).trans (and_congr_right fun _ => ?_)
  rw [List.forall_mem_map]
  constructor
  · intro h q hq
    obtain ⟨i, hi, rfl⟩ := List.mem_map.mp ((arriving_perm horder).mem_iff.mpr hq)
    exact h i hi
  · exact fun h i hi => h _ (hmem i hi)

end

section
variable {a b : SrtConnConfig} {readA readB : Nat} {prim : Primitives} {sort : SortSlice}
  {s : Duplex} {events : List Event}

/-- The addresses of both ends stay. -/
theorem run_addressed (haddr : Addressed a b)
    (hrun : run (step prim sort) (init a b readA readB) events = some s) :
    s.left.conn.peerSocketId = s.right.conn.socketId ∧
      s.right.conn.peerSocketId = s.left.conn.socketId ∧
      (s.left.conn.isCaller = false → s.left.conn.socketId ≠ 0) ∧
      (s.right.conn.isCaller = false → s.right.conn.socketId ≠ 0) := by
  obtain ⟨hleft, hright⟩ := run_steady hrun
  rw [hleft.same.peerSocketId, hleft.same.socketId, hleft.same.isCaller,
    hright.same.peerSocketId, hright.same.socketId, hright.same.isCaller]
  exact ⟨haddr.left, haddr.right, haddr.leftId, haddr.rightId⟩

/-- From every reachable state of two matching connections within their limits: if the right end
reports what it misses, the report arrives, and the packets that the left end sends again arrive in
whatever order, then exactly those numbers are still missing that the left end no longer had. -/
theorem repair_fills (prim : Primitives) (sort : SortSlice) (a b : SrtConnConfig)
    (readA readB : Nat) (events : List Event) (s : Duplex) (h : Matched a b readA readB)
    (haddr : Addressed a b)
    (hrun : run (step prim sort) (init a b readA readB) events = some s)
    (hpushed : s.left.history.pushed.length < 2 ^ 30 - 1)
    (hearly : a.crypto ≠ none →
      s.left.history.popped + s.left.snd.lossList.length + a.config.kmPreAnnounce.toNat <
        steps a.config.kmRefreshRate)
    (hright : WithinLimits b s.right) (r : Repair) (hreports : s.Reports r) (order : List Nat)
    (horder : order.Perm (List.range s.repairable.length)) :
    ∃ s', run (step prim sort) s (repair s r order) = some s' ∧
      ∀ n, a.initialPacketSequenceNumber.dec.InWindow s.left.history.pushed.length n →
        (s'.right.recv.missing n = true ↔
          s.right.recv.missing n = true ∧ ∀ p ∈ s.left.snd.lossList, p.seq ≠ n) := by
  have hleft : WithinLimits a s.left := ⟨hpushed, fun hcrypto => by
    have := hearly hcrypto
    omega⟩
  obtain ⟨hA, hB⟩ := run_sound h hrun hleft hright
  obtain ⟨hto, hdest, hid, hid'⟩ := run_addressed haddr hrun
  have hw : Window (h.terms prim).base s.left.history.pushed.length :=
    window_of_isSequenceNumber (h.terms prim).isNumber hpushed
  obtain ⟨x, sent, m, hround, hsent, hnumbers, hpushed₁, hpopped₁⟩ :=
    run_report sort hA hB hpushed (early_of_limit hearly) hdest hid hreports
  have hlength : sent.length = s.repairable.length := by
    rw [← List.length_map (f := Packet.seq), hnumbers, List.length_map, List.length_reverse]
  have hmem : ∀ n, (∃ q ∈ sent, q.seq = n) ↔ ∃ p ∈ s.repairable, p.seq = n := by
    intro n
    rw [← List.mem_map, ← List.mem_map, hnumbers, List.map_reverse, List.mem_reverse]
  -- The state after the report is reachable too, and within the limits.
  let s₁ : Duplex := ⟨x, (s.right.recvTickNAK r.now r.timestamp).1, s.fromLeft ++ datagrams sent,
    s.fromRight ++ [m]⟩
  have hrun₁ : run (step prim sort) (init a b readA readB) (events ++
      [.act .right (.recvTickNAK r.now r.timestamp), .receive .left s.fromRight.length true,
        .act .left (.handle r.report)]) = some s₁ := by
    rw [run_append, hrun]
    exact hround
  have hleft₁ : WithinLimits a s₁.left := by
    refine ⟨by rw [hpushed₁]; exact hpushed, fun hcrypto => ?_⟩
    have hle : s.repairable.length ≤ s.left.snd.lossList.length := List.length_filter_le _ _
    have := hearly hcrypto
    rw [hpopped₁, hlength]
    omega
  have hright₁ : WithinLimits b s₁.right := ⟨hright.pushed, hright.popped⟩
  have hB₁ := (run_sound h hrun₁ hleft₁ hright₁).2
  have hw₁ : Window (h.terms prim).base s₁.left.history.pushed.length := by
    rw [hpushed₁]
    exact hw
  have hsame : ∀ n, s₁.right.recv.missing n = s.right.recv.missing n :=
    s.right.recv.missing_periodicNAK r.now
  obtain ⟨s', hanswers, hmissing⟩ := run_answers sort (s := s₁) hB₁
    (hright₁.bounded h.keys.cipher_eq.symm) hw₁ hreports.queues.2 hid' rfl
    (by
      intro q hq
      rw [(run_config hrun₁).1, hpushed₁]
      exact (hsent q hq).1)
    (fun q hq => (hsent q hq).2.trans hto)
    (by
      intro q hq
      obtain ⟨p, hp, hseq⟩ := (hmem q.seq).mp ⟨q, hq, rfl⟩
      rw [← hseq]
      exact (hsame p.seq).trans (List.mem_filter.mp hp).2)
    (hlength ▸ horder) r.data
  refine ⟨s', ?_, fun n hn => ?_⟩
  · unfold repair
    rw [run_append]
    change run (step prim sort) s _ = _ at hround
    rw [hround]
    exact hanswers
  · rw [← hpushed₁] at hn
    rw [hmissing n hn, hsame]
    refine and_congr_right fun hn => ?_
    -- Of the packets that the left end still has, these are the ones with this number.
    constructor
    · intro h p hp hseq
      obtain ⟨q, hq, hqn⟩ := (hmem n).mpr
        ⟨p, List.mem_filter.mpr ⟨hp, by rw [hseq]; exact hn⟩, hseq⟩
      exact h q hq hqn.symm
    · intro h q hq hqn
      obtain ⟨p, hp, hseq⟩ := (hmem n).mp ⟨q, hq, hqn.symm⟩
      exact h p (List.mem_filter.mp hp).1 hseq

/-- The caller writes three packets, and only the last one arrives. -/
def gapEvents : List Event :=
  [.act .left (.write (.write [1, 2, 3] [⟨100, true⟩])),
    .act .left (.write (.write [4, 5] [⟨200, true⟩])),
    .act .left (.write (.write [6] [⟨250, true⟩])),
    .act .left .sendQueued, .act .left .sendQueued, .act .left .sendQueued,
    .act .left (.sndTickDeliver 300 []),
    .receive .right 2 true, .act .right (.handle sampleInputs)]

def gapEnd : Duplex :=
  runD (step Sample.primitives SortSlice.insertion) (init sampleCaller sampleListener 1500 1500)
    gapEvents

def gapRepair : Repair := ⟨20000, 400, sampleInputs, fun _ => sampleInputs⟩

/-- The NAK names both lost packets. They come in the other order, and none is missing. -/
theorem repair_fills_twoLost :
    gapEnd.repairable.length = 2 ∧
      ∃ s', run (step Sample.primitives SortSlice.insertion) gapEnd
          (repair gapEnd gapRepair [1, 0]) = some s' ∧
        ∀ n, sampleCaller.initialPacketSequenceNumber.dec.InWindow
            gapEnd.left.history.pushed.length n →
          (s'.right.recv.missing n = true ↔ gapEnd.right.recv.missing n = true ∧
            ∀ p ∈ gapEnd.left.snd.lossList, p.seq ≠ n) := by
  have hrun : run (step Sample.primitives SortSlice.insertion)
      (init sampleCaller sampleListener 1500 1500) gapEvents = some gapEnd :=
    run_eq_some_runD (by decide +kernel)
  obtain ⟨⟨hpushed, hearly⟩, hright, hreports, horder, hlost⟩ :
      (gapEnd.left.history.pushed.length < 2 ^ 30 - 1 ∧
        gapEnd.left.history.popped + gapEnd.left.snd.lossList.length +
          sampleCaller.config.kmPreAnnounce.toNat < steps sampleCaller.config.kmRefreshRate) ∧
      WithinLimits sampleListener gapEnd.right ∧ gapEnd.Reports gapRepair ∧
      [1, 0].Perm (List.range gapEnd.repairable.length) ∧ gapEnd.repairable.length = 2 := by
    decide +kernel
  exact ⟨hlost, repair_fills Sample.primitives SortSlice.insertion sampleCaller sampleListener
    1500 1500 gapEvents gapEnd sample_matched (by decide) hrun hpushed (fun _ => hearly) hright
    gapRepair hreports [1, 0] horder⟩

end

end Duplex

end Gosrt
