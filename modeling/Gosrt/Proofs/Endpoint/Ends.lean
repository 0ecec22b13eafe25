import Gosrt.Proofs.Handle
import Gosrt.Spec.Endpoint

/-!
# `Gosrt.Proofs.Endpoint.Ends`: what no step of a connection changes or takes back

The two ends of a connection and its configuration stay as `newSRTConn` got them (`SameEnds`):
`pop` and the handlers of all packets, whatever the peer sends, change keys, countdowns, delays and
counters only. The history only grows (`Grows`). Both hold for every step of an endpoint, without
any condition (`act_steady`).
-/

set_option autoImplicit false

namespace Gosrt

open Lib

namespace SrtConn

/-- The two connections have the same ends and the same configuration. -/
structure SameEnds (c c' : SrtConn) : Prop where
  version : c'.version = c.version
  isCaller : c'.isCaller = c.isCaller
  localAddr : c'.localAddr = c.localAddr
  remoteAddr : c'.remoteAddr = c.remoteAddr
  config : c'.config = c.config
  socketId : c'.socketId = c.socketId
  peerSocketId : c'.peerSocketId = c.peerSocketId

theorem SameEnds.refl (c : SrtConn) : SameEnds c c := ⟨rfl, rfl, rfl, rfl, rfl, rfl, rfl⟩

theorem SameEnds.of_eq {c c' : SrtConn} (h : c' = c) : SameEnds c c' := h ▸ .refl c

theorem SameEnds.trans {c₁ c₂ c₃ : SrtConn} (h : SameEnds c₁ c₂) (h' : SameEnds c₂ c₃) :
    SameEnds c₁ c₃ where
  version := h'.version.trans h.version
  isCaller := h'.isCaller.trans h.isCaller
  localAddr := h'.localAddr.trans h.localAddr
  remoteAddr := h'.remoteAddr.trans h.remoteAddr
  config := h'.config.trans h.config
  socketId := h'.socketId.trans h.socketId
  peerSocketId := h'.peerSocketId.trans h.peerSocketId

/-- `pop` changes keys, countdowns and counters. -/
theorem pop_sameEnds (prim : Primitives) (c : SrtConn) (p : Packet) (timestamp : UInt32)
    (random : Entropy) : c.SameEnds (c.pop prim p timestamp random).1 := by
  unfold pop
  dsimp only
  split
  · exact .refl c
  split
  · exact .refl c
  · unfold regenerate switchKeys announce countDown
    dsimp only
    split <;> split <;> split <;> exact ⟨rfl, rfl, rfl, rfl, rfl, rfl, rfl⟩

section
variable {prim : Primitives} {c c' : SrtConn} {p : Packet} {draws : Draws} {outputs : List Output}

theorem handleHSRequest_sameEnds (h : c.handleHSRequest p = .ok (c', outputs)) :
    c.SameEnds c' := by
  cases handleHSRequest_cases h with
  | invalid _ => exact ⟨rfl, rfl, rfl, rfl, rfl, rfl, rfl⟩
  | refused cif _ _ => exact .refl c
  | accepted cif _ _ answer => exact ⟨rfl, rfl, rfl, rfl, rfl, rfl, rfl⟩

theorem handleHSResponse_sameEnds (h : c.handleHSResponse p = .ok (c', outputs)) :
    c.SameEnds c' := by
  obtain ⟨cif, -, h⟩ := bind_eq_ok_iff.mp h
  cases cif with
  | none =>
    cases h
    exact ⟨rfl, rfl, rfl, rfl, rfl, rfl, rfl⟩
  | some cif =>
    dsimp only at h
    split at h
    · cases h
      exact .refl c
    split at h
    · cases h
      exact .refl c
    · cases h
      exact .refl c

theorem prepareCrypto_sameEnds {cif : CIFKeyMaterialExtension}
    (h : c.prepareCrypto cif draws = some c') : c.SameEnds c' := by
  rcases prepareCrypto_cases h with rfl | ⟨-, -, crypto, -, rfl⟩
  · exact .refl _
  · exact ⟨rfl, rfl, rfl, rfl, rfl, rfl, rfl⟩

/-- A request changes keys only. -/
theorem handleKMRequest_sameEnds (h : c.handleKMRequest prim p draws = .ok (c', outputs)) :
    c.SameEnds c' := by
  unfold handleKMRequest at h
  have hcount : c.SameEnds { c with pktRecvKM := c.pktRecvKM + 1 } :=
    ⟨rfl, rfl, rfl, rfl, rfl, rfl, rfl⟩
  obtain ⟨cif, -, h⟩ := bind_eq_ok_iff.mp h
  cases cif with
  | none =>
    cases h
    exact ⟨rfl, rfl, rfl, rfl, rfl, rfl, rfl⟩
  | some cif =>
    dsimp only at h
    split at h
    · cases h
      exact hcount
    rename_i c₁ hprepare
    -- From here on the connection is the one that has a crypto context.
    refine (hcount.trans (prepareCrypto_sameEnds hprepare)).trans ?_
    split at h
    · cases h
      exact .refl _
    split at h
    · cases h
      exact ⟨rfl, rfl, rfl, rfl, rfl, rfl, rfl⟩
    · obtain ⟨done, -, h⟩ := bind_eq_ok_iff.mp h
      cases done with
      | none =>
        cases h
        exact ⟨rfl, rfl, rfl, rfl, rfl, rfl, rfl⟩
      | some _ =>
        cases h
        exact ⟨rfl, rfl, rfl, rfl, rfl, rfl, rfl⟩

theorem handleKMResponse_sameEnds (c : SrtConn) (p : Packet) :
    c.SameEnds (c.handleKMResponse p).1 := by
  unfold handleKMResponse
  dsimp only
  repeat' split
  all_goals exact ⟨rfl, rfl, rfl, rfl, rfl, rfl, rfl⟩

end

end SrtConn

/-- No packet changes the ends of the connection that handles it. -/
theorem Connection.handlePacket_sameEnds {prim : Primitives} {sort : SortSlice}
    {c c' : Connection} {p : Packet} {i : HandleInputs} {outputs : List Output}
    (h : c.handlePacket prim sort p i = .ok (c', outputs)) : c.conn.SameEnds c'.conn := by
  cases handlePacket_handledBy h with
  | hsRequest _ h => exact SrtConn.handleHSRequest_sameEnds h
  | hsResponse _ h => exact SrtConn.handleHSResponse_sameEnds h
  | kmRequest _ h => exact SrtConn.handleKMRequest_sameEnds h
  | kmResponse _ hconn _ =>
    rw [hconn]
    exact c.conn.handleKMResponse_sameEnds p
  | other _ _ n hconn _ =>
    rw [hconn]
    exact ⟨rfl, rfl, rfl, rfl, rfl, rfl, rfl⟩

/-- `sendACK` notes the number of the ACK. -/
theorem Connection.sendACK_conn (c : Connection) (seq : Number) (lite : Bool) (report : AckReport)
    (timestamp : UInt32) (now : Int) :
    (c.sendACK seq lite report timestamp now).1.conn = c.conn := by
  unfold sendACK
  cases lite with
  | true => rfl
  | false => rfl

namespace SrtConn

section
variable {prim : Primitives}

theorem popTimes_sameEnds (n : Nat) :
    ∀ (c : SrtConn) (p : Packet) (inputs : List PopInput),
      c.SameEnds (c.popTimes prim p n inputs).1 := by
  induction n with
  | zero => exact fun c _ _ => .refl c
  | succ n ih =>
    intro c p inputs
    exact (c.pop_sameEnds prim p _ _).trans (ih _ _ _)

theorem popDue_sameEnds (ps : List Packet) :
    ∀ (c : SrtConn) (inputs : List PopInput), c.SameEnds (c.popDue prim ps inputs).1 := by
  induction ps with
  | nil => exact fun c _ => .refl c
  | cons p ps ih =>
    intro c inputs
    exact (popTimes_sameEnds 1 c p inputs).trans (ih _ _)

/-- A retransmission leaves the addresses, the ids and the configuration. -/
theorem resend_sameEnds {ns : List Number} (ps : List Packet) :
    ∀ {c c' : SrtConn} {inputs rest : List PopInput} {stored sent : List Packet},
      c.resend prim ns ps inputs = some (c', stored, sent, rest) → c.SameEnds c' := by
  induction ps with
  | nil =>
    intro c c' inputs rest stored sent h
    cases h
    exact .refl _
  | cons p ps ih =>
    intro c c' inputs rest stored sent h
    simp only [resend, Option.bind_eq_bind, Option.bind_eq_some_iff, Option.pure_def,
      Option.some.injEq, Prod.mk.injEq] at h
    obtain ⟨⟨c₁, stored₁, sent₁, inputs₁⟩, h, hits, -, rfl, -, -, -⟩ := h
    exact (ih h).trans (popTimes_sameEnds hits c₁ _ inputs₁)

end

end SrtConn

namespace Endpoint

/-- The ends stay, and the history goes on. -/
structure Grows (x x' : Endpoint) : Prop where
  same : x.conn.SameEnds x'.conn
  pushed : x.history.pushed <+: x'.history.pushed
  popped : x.history.popped ≤ x'.history.popped

theorem Grows.refl (x : Endpoint) : x.Grows x := ⟨.refl _, List.prefix_rfl, Nat.le_refl _⟩

theorem Grows.trans {x₁ x₂ x₃ : Endpoint} (h : x₁.Grows x₂) (h' : x₂.Grows x₃) : x₁.Grows x₃ :=
  ⟨h.same.trans h'.same, h.pushed.trans h'.pushed, Nat.le_trans h.popped h'.popped⟩

/-- What every step does: besides, the buffer of the socket keeps its length, and a closed
connection stays closed. -/
structure Steady (x x' : Endpoint) : Prop extends Grows x x' where
  readSize : x'.readSize = x.readSize
  closed : x.stage = .closed → x'.stage = .closed

theorem Steady.refl (x : Endpoint) : x.Steady x := ⟨.refl x, rfl, id⟩

theorem Steady.trans {x₁ x₂ x₃ : Endpoint} (h : x₁.Steady x₂) (h' : x₂.Steady x₃) :
    x₁.Steady x₃ :=
  ⟨h.toGrows.trans h'.toGrows, h'.readSize.trans h.readSize, h'.closed ∘ h.closed⟩

section
variable {prim : Primitives} {sort : SortSlice} {x x' : Endpoint} {out : List Bytes}

theorem nak_steady {ns : List Number} {inputs : List PopInput}
    (h : x.nak prim ns inputs = some (x', out)) : x.Steady x' := by
  unfold nak at h
  split at h
  · cases h
    exact .refl x
  · simp only [Option.bind_eq_bind, Option.bind_eq_some_iff, Option.pure_def, Option.some.injEq,
      Prod.mk.injEq] at h
    obtain ⟨⟨snd, resent⟩, -, ⟨conn, lossList, sent, rest⟩, hresend, rfl, rfl⟩ := h
    exact ⟨⟨SrtConn.resend_sameEnds _ hresend, List.prefix_rfl, Nat.le_add_right _ _⟩, rfl, id⟩

/-- The start of `close` is a stage and a packet. -/
theorem close_steady (x : Endpoint) (timestamp : UInt32) : x.Steady (x.close timestamp).1 := by
  unfold close
  split
  · rename_i hrunning
    exact ⟨⟨.refl _, List.prefix_rfl, Nat.le_refl _⟩, rfl, fun hclosed => by
      rw [hrunning] at hclosed
      cases hclosed⟩
  · exact .refl x

/-- An effect of a handler keeps the connection's ends and only adds to the history. -/
theorem perform_steady {inputs : Inputs} {o : Output}
    (h : x.perform prim inputs o = some (x', out)) : x.Steady x' := by
  cases o with
  | nak ns => exact nak_steady h
  | stopHSRequests =>
    obtain ⟨r, -, heq⟩ := Option.map_eq_some_iff.mp h
    cases heq
    exact ⟨⟨.refl _, List.prefix_rfl, Nat.le_refl _⟩, rfl, id⟩
  | effect e =>
    cases e with
    | close =>
      obtain ⟨rfl, rfl⟩ := Prod.ext_iff.mp (Option.some.inj h)
      exact x.close_steady inputs.handle.timestamp
    | stopKMRequests =>
      obtain ⟨r, -, heq⟩ := Option.map_eq_some_iff.mp h
      cases heq
      exact ⟨⟨.refl _, List.prefix_rfl, Nat.le_refl _⟩, rfl, id⟩
  | _ =>
    cases h
    exact ⟨⟨.refl _, List.prefix_rfl, Nat.le_refl _⟩, rfl, id⟩

theorem performAll_steady {inputs : Inputs} (outputs : List Output) :
    ∀ {x : Endpoint} {out : List Bytes},
      x.performAll prim inputs outputs = some (x', out) → x.Steady x' := by
  induction outputs with
  | nil =>
    intro x out h
    cases h
    exact .refl _
  | cons o outputs ih =>
    intro x out h
    obtain ⟨⟨x₁, sent⟩, hfirst, h⟩ := Option.bind_eq_some_iff.mp h
    obtain ⟨⟨x₂, sent'⟩, hrest, h⟩ := Option.bind_eq_some_iff.mp h
    cases h
    exact (perform_steady hfirst).trans (ih hrest)

/-- So does handling a packet. -/
theorem handle_steady {inputs : Inputs} (h : x.handle prim sort inputs = some (x', out)) :
    x.Steady x' := by
  unfold handle at h
  split at h
  · cases h
  split at h
  · cases h
  · rename_i hhandle
    have hsteady := performAll_steady _ h
    exact ⟨⟨(Connection.handlePacket_sameEnds hhandle).trans hsteady.same, hsteady.pushed,
      hsteady.popped⟩, hsteady.readSize, hsteady.closed⟩

/-- A datagram that arrives only goes to the queue. -/
theorem receive_steady (x : Endpoint) (data : Bytes) (toQueue : Bool) :
    x.Steady (x.receive data toQueue) := by
  unfold receive
  split
  · exact .refl x
  split
  · exact .refl x
  · exact ⟨⟨.refl _, List.prefix_rfl, Nat.le_refl _⟩, rfl, id⟩

/-- Whatever an end does, it keeps its addresses and only adds to its history. -/
theorem act_steady {e : Event} (h : x.act prim sort e = some (x', out)) : x.Steady x' := by
  cases e with
  | write call =>
    obtain ⟨y, hy, heq⟩ := Option.map_eq_some_iff.mp h
    cases heq
    obtain ⟨w, -, rfl⟩ := Option.map_eq_some_iff.mp hy
    exact ⟨⟨.refl _, List.prefix_rfl, Nat.le_refl _⟩, rfl, id⟩
  | sendQueued =>
    obtain ⟨y, hy, heq⟩ := Option.map_eq_some_iff.mp h
    cases heq
    unfold sendQueued at hy
    split at hy
    · cases hy
    · cases hy
      exact ⟨⟨.refl _, List.prefix_append _ _, Nat.le_refl _⟩, rfl, id⟩
  | sndTickDeliver now inputs =>
    cases h
    exact ⟨⟨SrtConn.popDue_sameEnds _ _ inputs, List.prefix_rfl, Nat.le_add_right _ _⟩, rfl, id⟩
  | handle inputs => exact handle_steady h
  | recvTickACK now report timestamp clock =>
    obtain ⟨rfl, rfl⟩ := Prod.ext_iff.mp (Option.some.inj h)
    unfold recvTickACK
    dsimp only
    split
    · exact ⟨⟨.refl _, List.prefix_rfl, Nat.le_refl _⟩, rfl, id⟩
    · rename_i seq lite _
      refine ⟨⟨?_, List.prefix_rfl, Nat.le_refl _⟩, rfl, id⟩
      exact .of_eq (x.connection.sendACK_conn seq lite report timestamp clock)
  | read n fromQueue =>
    obtain ⟨y, hy, heq⟩ := Option.map_eq_some_iff.mp h
    cases heq
    obtain ⟨⟨reading, result⟩, -, hy⟩ := Option.bind_eq_some_iff.mp hy
    cases hy
    exact ⟨⟨.refl _, List.prefix_rfl, Nat.le_refl _⟩, rfl, id⟩
  | readPacket fromQueue =>
    obtain ⟨y, hy, heq⟩ := Option.map_eq_some_iff.mp h
    cases heq
    obtain ⟨⟨reading, result⟩, -, hy⟩ := Option.bind_eq_some_iff.mp hy
    cases hy
    exact ⟨⟨.refl _, List.prefix_rfl, Nat.le_refl _⟩, rfl, id⟩
  | hsRequest timestamp =>
    unfold act hsRequest at h
    dsimp only at h
    split at h
    · cases h
      exact ⟨⟨.refl _, List.prefix_rfl, Nat.le_refl _⟩, rfl, id⟩
    · cases h
  | kmRequest timestamp =>
    unfold act kmRequest at h
    dsimp only at h
    split at h
    · cases h
      exact ⟨⟨⟨rfl, rfl, rfl, rfl, rfl, rfl, rfl⟩, List.prefix_rfl, Nat.le_refl _⟩, rfl, id⟩
    · cases h
  | close timestamp =>
    obtain ⟨rfl, rfl⟩ := Prod.ext_iff.mp (Option.some.inj h)
    exact x.close_steady timestamp
  | closing =>
    obtain ⟨y, hy, heq⟩ := Option.map_eq_some_iff.mp h
    cases heq
    unfold closing at hy
    split at hy
    all_goals rename_i hstage
    all_goals cases hy
    all_goals exact ⟨⟨.refl _, List.prefix_rfl, Nat.le_refl _⟩, rfl, by simp [hstage]⟩
  | _ =>
    cases h
    exact ⟨⟨.refl _, List.prefix_rfl, Nat.le_refl _⟩, rfl, id⟩

end

end Endpoint

end Gosrt
