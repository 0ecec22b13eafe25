import Gosrt.Proofs.Config
import Gosrt.Spec.ReadWrite

/-!
# `Gosrt.Proofs.Write`: what `Write` puts into the queue

The loop of `Write` empties the write buffer into the queue (`writeLoop_drains`), so what it does is
known from the library on buffers. A packet that the queue refuses in the middle of a call leaves
the rest of the bytes in the buffer, and the next call sends them. A run of calls is consistent
exactly if no call is cut in this way (`consistent_iff`).

The loop makes progress as long as `writeData` has a length. A connection of version 4 rounds the
payload size down to whole MPEG-TS chunks, and this can be zero (`progresses_iff`).
-/

set_option autoImplicit false

namespace Gosrt

open Lib

/-! ### The loop of `Write` -/

/-- The loop of `Write` empties the buffer, with a packet for each piece. -/
theorem writeLoop_drains (size : Nat) (turns : List Turn) (buffer : Bytes) :
    Buffer.Drains size (turns.map Turn.accepted) buffer
      ((writeLoop size turns buffer).1.map Packet.payload) (writeLoop size turns buffer).2.1
      (writeLoop size turns buffer).2.2 := by
  have hsame : ∀ buffer, Buffer.drain size (turns.map Turn.accepted) buffer
      = ((writeLoop size turns buffer).1.map Packet.payload, (writeLoop size turns buffer).2) := by
    induction turns with
    | nil => exact fun _ => rfl
    | cons turn turns ih =>
      intro buffer
      unfold writeLoop
      rw [List.map_cons, Buffer.drain]
      cases Buffer.read size buffer with
      | none => rfl
      | some read =>
        obtain ⟨data, rest⟩ := read
        dsimp only
        split
        · rfl
        split
        · rfl
        · rw [ih rest]
          rfl
  have hdrains := Buffer.drain_drains size (turns.map Turn.accepted) buffer
  rw [hsame] at hdrains
  exact hdrains

/-- How a call of `Write` ends. -/
inductive WriteCase (size : Nat) (buffer b : Bytes) (turns : List Turn) :
    Option Written → Prop where
  | unfinished
      (hdrains : ∃ pieces rest, Buffer.Drains size (turns.map Turn.accepted) (buffer ++ b) pieces
        rest .unfinished) : WriteCase size buffer b turns none
  | emptied (ps : List Packet) (rest : Bytes)
      (hdrains : Buffer.Drains size (turns.map Turn.accepted) (buffer ++ b)
        (ps.map Packet.payload) rest .emptied) :
      WriteCase size buffer b turns (some ⟨ps, [], .ok b.length⟩)
  | failed (ps : List Packet) (rest : Bytes) (outcome : Buffer.Outcome)
      (houtcome : outcome = .refused ∨ outcome = .ended)
      (hdrains : Buffer.Drains size (turns.map Turn.accepted) (buffer ++ b)
        (ps.map Packet.payload) rest outcome) :
      WriteCase size buffer b turns (some ⟨ps, rest, .error eof⟩)

/-- Every `Write` is one of these cases. -/
theorem write_cases (size : Nat) (buffer b : Bytes) (turns : List Turn) :
    WriteCase size buffer b turns (write size buffer b turns) := by
  have hdrains := writeLoop_drains size turns (buffer ++ b)
  unfold write
  generalize writeLoop size turns (buffer ++ b) = out at hdrains
  obtain ⟨ps, rest, outcome⟩ := out
  cases outcome with
  | unfinished => exact .unfinished ⟨_, _, hdrains⟩
  | emptied => exact .emptied ps rest hdrains
  | refused => exact .failed ps rest _ (Or.inl rfl) hdrains
  | ended => exact .failed ps rest _ (Or.inr rfl) hdrains

namespace Writing

/-- Every call is a `Write` of its bytes, or it does nothing. -/
theorem perform_eq (size : Nat) (buffer : Bytes) (call : Call) :
    perform size buffer call = write size buffer call.bytes call.turns ∨
      call.bytes = [] ∧ perform size buffer call = some ⟨[], buffer, .ok 0⟩ := by
  cases call with
  | write b turns => exact Or.inl rfl
  | writePacket p turns =>
    unfold perform writePacket Call.bytes
    dsimp only
    split
    · exact Or.inr ⟨rfl, rfl⟩
    · exact Or.inl rfl

/-- A call that is not cut leaves nothing behind. -/
theorem writeBuffer_of_notCut {size : Nat} {call : Call} (hcut : NotCut size call) {w : Written}
    (hw : write size [] call.bytes call.turns = some w) : w.writeBuffer = [] := by
  have hcases := write_cases size [] call.bytes call.turns
  rw [hw] at hcases
  cases hcases with
  | emptied ps rest hdrains => rfl
  | failed ps rest outcome houtcome hdrains =>
    rcases houtcome with rfl | rfl
    · -- All bytes were read before the packet was refused.
      obtain ⟨k, hk, rfl⟩ := hdrains.rest_of_refused
      exact List.drop_eq_nil_iff.mpr (hcut k hk)
    · exact hdrains.buffer_of_ended.2

/-- On an empty buffer a call is consistent exactly if it is not cut, and then the buffer is empty
again. -/
theorem consistent_iff_notCut (size : Nat) (call : Call) :
    (Consistent size [] call ↔ NotCut size call) ∧
      (NotCut size call → ∀ w, perform size [] call = some w → w.writeBuffer = []) := by
  obtain hperform | ⟨hbytes, hperform⟩ := perform_eq size [] call
  swap
  · -- A control packet: there are no bytes, and nothing happens.
    unfold Consistent NotCut
    rw [hperform, hbytes]
    refine ⟨⟨fun _ k _ => Nat.zero_le _, fun _ w hw => ?_⟩, fun _ w hw => ?_⟩
    · cases hw
      exact ⟨rfl, rfl, List.forall_mem_nil _⟩
    · cases hw
      rfl
  unfold Consistent
  rw [hperform]
  have hcases := write_cases size [] call.bytes call.turns
  refine ⟨⟨fun hconsistent k hk => ?_, fun hcut w hw => ?_⟩,
    fun hcut w hw => writeBuffer_of_notCut hcut hw⟩
  · -- A piece is refused while there is more: the call fails, and what comes after it stays.
    by_contra hcut
    have hmore : (k + 1) * size < ([] ++ call.bytes).length := Nat.lt_of_not_le hcut
    generalize write size [] call.bytes call.turns = result at hcases hconsistent
    cases hcases with
    | unfinished hdrains =>
      obtain ⟨pieces, rest, hdrains⟩ := hdrains
      cases (hdrains.refused_of_firstRefusal hk hmore).1
    | emptied ps rest hdrains => cases (hdrains.refused_of_firstRefusal hk hmore).1
    | failed ps rest outcome _ hdrains =>
      obtain ⟨-, hleft⟩ := hdrains.refused_of_firstRefusal hk hmore
      rcases hconsistent _ rfl with hnil | hnil
      · rw [hnil] at hmore
        simp at hmore
      · rw [show rest = [] from hnil] at hleft
        exact hcut (List.drop_eq_nil_iff.mp hleft.symm)
  · have hempty := writeBuffer_of_notCut hcut hw
    rw [hw] at hcases
    cases hcases with
    | emptied ps rest hdrains =>
      exact ⟨rfl, hdrains.flatten_of_emptied,
        fun p hp => hdrains.length_le _ (List.mem_map_of_mem hp)⟩
    | failed ps rest outcome _ hdrains => exact Or.inr hempty

/-- A run of calls is consistent exactly if no packet but the last one of its call is the first
that the queue refuses. -/
theorem consistent_iff (size : Nat) (calls : List Call) :
    RunMeets (step size) (Consistent size) [] calls ↔
      RunMeets (step size) (fun _ => NotCut size) [] calls := by
  refine runMeets_congr_of (fun buffer => buffer = []) ?_ ?_ (runMeets_true _ _ calls) rfl
  · rintro _ call - rfl
    exact (consistent_iff_notCut size call).1
  · rintro _ call buffer' - hconsistent rfl hstep
    obtain ⟨w, hw, rfl⟩ := Option.map_eq_some_iff.mp hstep
    obtain ⟨hiff, hempty⟩ := consistent_iff_notCut size call
    exact hempty (hiff.mp hconsistent) w hw

/-- With the smallest payload size: a call with one byte more than a packet holds, whose first
packet is refused, and then a call with one byte. -/
def cutCalls : List Call :=
  [.write (List.replicate 33 7) [⟨10, false⟩], .write [9] [⟨20, true⟩]]

/-- The first call returns an error, and the second one sends the last byte of it before its own. -/
theorem cutCalls_inconsistent :
    writeDataLength 5 { payloadSize := minPayloadSize } = 32 ∧
      perform 32 [] (.write (List.replicate 33 7) [⟨10, false⟩]) = some ⟨[], [7], .error eof⟩ ∧
      perform 32 [7] (.write [9] [⟨20, true⟩]) = some ⟨[dataPacket [7, 9] 20], [], .ok 1⟩ ∧
      ¬RunMeets (step 32) (Consistent 32) [] cutCalls := by
  have hfirst : perform 32 [] (.write (List.replicate 33 7) [⟨10, false⟩])
      = some ⟨[], [7], .error eof⟩ := by decide
  refine ⟨rfl, hfirst, by decide, fun h => ?_⟩
  rcases h.1 _ hfirst with hnil | hnil
  · cases hnil
  · cases hnil

end Writing

/-! ### Progress of the loop -/

/-- The loop of a call of `Write` makes progress: each pass takes at least one byte out of the
buffer, only packets with a payload are put into the queue, and as many passes as the call has
bytes are enough, whatever the queue does. -/
structure Progresses (size : Nat) (writeBuffer b : Bytes) : Prop where
  consumes : ∀ buffer : Bytes, buffer ≠ [] →
    ∃ data rest, Buffer.read size buffer = some (data, rest) ∧ rest.length < buffer.length
  nonempty : ∀ turns, ∀ p ∈ (writeLoop size turns (writeBuffer ++ b)).1, p.payload ≠ []
  ends : ∀ turns : List Turn, b.length ≤ turns.length →
    (write size writeBuffer b turns).isSome = true

/-- A size of at least one, and not too many bytes from before. -/
theorem progresses_iff_size (size : Nat) {writeBuffer b : Bytes} (hb : b ≠ []) :
    Progresses size writeBuffer b ↔ (writeBuffer ++ b).length ≤ b.length * size := by
  have hlen := List.length_pos_iff.mpr hb
  constructor
  · intro h
    by_contra hmore
    -- A queue that takes everything, for as many passes as there are bytes.
    have hends := h.ends (List.replicate b.length ⟨0, true⟩) (by rw [List.length_replicate])
    have hcases := write_cases size writeBuffer b (List.replicate b.length ⟨0, true⟩)
    have hunfinished : ∀ {pieces rest outcome},
        Buffer.Drains size ((List.replicate b.length (⟨0, true⟩ : Turn)).map Turn.accepted)
          (writeBuffer ++ b) pieces rest outcome → outcome = .unfinished := by
      intro pieces rest outcome hdrains
      refine hdrains.eq_unfinished ?_ ?_
      · simp
      · rw [List.length_map, List.length_replicate]
        exact Nat.lt_of_not_le hmore
    generalize write size writeBuffer b (List.replicate b.length ⟨0, true⟩) = result
      at hcases hends
    cases hcases with
    | unfinished _ => cases hends
    | emptied ps rest hdrains => cases hunfinished hdrains
    | failed ps rest outcome houtcome hdrains =>
      rw [hunfinished hdrains] at houtcome
      rcases houtcome with h | h <;> cases h
  · intro henough
    have hsize : 0 < size := by
      rw [List.length_append] at henough
      refine Nat.pos_of_ne_zero ?_
      rintro rfl
      omega
    refine ⟨fun buffer hne => ?_, fun turns p hp => ?_, fun turns hturns => ?_⟩
    · have hpos := List.length_pos_iff.mpr hne
      exact ⟨_, _, Buffer.read_of_ne_nil size hne, by rw [List.length_drop]; omega⟩
    · exact (writeLoop_drains size turns _).ne_nil hsize _ (List.mem_map_of_mem hp)
    · have hcases := write_cases size writeBuffer b turns
      generalize write size writeBuffer b turns = result at hcases ⊢
      cases hcases with
      | unfinished hdrains =>
        obtain ⟨pieces, rest, hdrains⟩ := hdrains
        refine absurd rfl (hdrains.ne_unfinished ?_ ?_)
        · intro hnil
          rw [List.map_eq_nil_iff] at hnil
          rw [hnil, List.length_nil] at hturns
          omega
        · rw [List.length_map]
          exact henough.trans (Nat.mul_le_mul_right size hturns)
      | emptied ps rest _ => rfl
      | failed ps rest outcome _ _ => rfl

/-- The rounding to whole MPEG-TS chunks gives nothing for less than one of them. -/
theorem writeDataLength_pos_iff {c config : Config} (hvalid : c.validate = .ok config)
    {version : UInt32} (hversion : version = 4 ∨ version = 5) :
    0 < writeDataLength version config ↔ ¬(version = 4 ∧ config.payloadSize < 188) := by
  have hmin : 32 ≤ config.payloadSize.toNat := Config.minPayloadSize_of_validate hvalid
  rw [UInt32.lt_iff_toNat_lt, show (188 : UInt32).toNat = 188 from rfl]
  unfold writeDataLength
  rcases hversion with rfl | rfl
  · rw [if_pos rfl, UInt32.toNat_mul, UInt32.toNat_div, show (188 : UInt32).toNat = 188 from rfl,
      Nat.mod_eq_of_lt (by have := config.payloadSize.toNat_lt; omega)]
    simp only [true_and]
    omega
  · rw [if_neg (by decide)]
    simp only [show ¬(5 : UInt32) = 4 by decide, false_and, not_false_eq_true, iff_true]
    omega

/-- The loop of `Write` makes progress exactly if the connection is not one of version 4 with less
than an MPEG-TS chunk of payload, and earlier calls have not left more in the buffer than the
passes of this call can take besides its own bytes. -/
theorem progresses_iff {c config : Config} (hvalid : c.validate = .ok config) {version : UInt32}
    (hversion : version = 4 ∨ version = 5) {writeBuffer b : Bytes} (hb : b ≠ []) :
    Progresses (writeDataLength version config) writeBuffer b ↔
      ¬(version = 4 ∧ config.payloadSize < 188) ∧
        writeBuffer.length ≤ b.length * (writeDataLength version config - 1) := by
  have hlen := List.length_pos_iff.mpr hb
  rw [progresses_iff_size _ hb, ← writeDataLength_pos_iff hvalid hversion, List.length_append,
    Nat.mul_sub_one]
  constructor
  · intro henough
    have hpos : 0 < writeDataLength version config := by
      refine Nat.pos_of_ne_zero fun hzero => ?_
      rw [hzero] at henough
      omega
    exact ⟨hpos, by omega⟩
  · rintro ⟨hpos, henough⟩
    have hge := Nat.le_mul_of_pos_right b.length hpos
    omega

/-- A version 4 connection with a payload of 400 bytes, which is two MPEG-TS chunks and a rest. An
earlier call has left 100 bytes, and this one writes 1000. -/
theorem progresses_chunks :
    Config.validate { payloadSize := 400 } = .ok { payloadSize := 400 } ∧
      writeDataLength 4 { payloadSize := 400 } = 376 ∧
      Progresses (writeDataLength 4 { payloadSize := 400 }) (List.replicate 100 1)
        (List.replicate 1000 2) := by
  have hvalid : Config.validate { payloadSize := 400 } = .ok { payloadSize := 400 } := by
    decide +kernel
  have hlength : writeDataLength 4 { payloadSize := 400 } = 376 := by decide
  refine ⟨hvalid, hlength, (progresses_iff hvalid (Or.inl rfl) ?_).mpr ⟨by decide, ?_⟩⟩
  · exact List.ne_nil_of_length_pos (by rw [List.length_replicate]; omega)
  · rw [List.length_replicate, List.length_replicate, hlength]
    omega

/-- A valid configuration with the payload size 100, on a version 4 connection: `writeData` is
empty, and after any number of passes the loop has put as many empty packets into the queue, and
has not ended. -/
theorem write_stalls :
    Config.validate { payloadSize := 100 } = .ok { payloadSize := 100 } ∧
      writeDataLength 4 { payloadSize := 100 } = 0 ∧
      (∀ passes, write 0 [] [1] (List.replicate passes ⟨0, true⟩) = none) ∧
      (∀ passes, (writeLoop 0 (List.replicate passes ⟨0, true⟩) [1]).1
        = List.replicate passes (dataPacket [] 0)) ∧
      ¬Progresses (writeDataLength 4 { payloadSize := 100 }) [] [1] := by
  have hloop : ∀ passes, writeLoop 0 (List.replicate passes ⟨0, true⟩) [1]
      = (List.replicate passes (dataPacket [] 0), [1], .unfinished) := by
    intro passes
    induction passes with
    | zero => rfl
    | succ passes ih =>
      rw [List.replicate_succ]
      unfold writeLoop
      rw [Buffer.read_zero]
      dsimp only
      rw [if_neg (by decide), if_neg (by decide), ih]
      rfl
  refine ⟨by decide +kernel, by decide, fun passes => ?_, fun passes => ?_, fun h => ?_⟩
  · unfold write
    rw [List.nil_append, hloop]
  · rw [hloop]
  · have hends := h.ends (List.replicate 1 ⟨0, true⟩) (by decide)
    revert hends
    decide

end Gosrt
