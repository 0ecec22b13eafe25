import Gosrt.Proofs.Connection
import Gosrt.Spec.Stream

/-!
# `Gosrt.Proofs.Resend`: packets that are sent again

A data packet is encrypted once, when it is sent for the first time. When it is sent again,
`pop` keeps its payload but overwrites its key flag with the key in use at that time. So the
flag is right exactly as long as no packet is sent again after a key switch
(`decryptable_iff_flagCurrent`). The payload is right always: `Sealed` is the part of
`Decryptable` that no step can break.
-/

set_option autoImplicit false

namespace Gosrt

open Lib

/-- The payload is the plaintext under the SEK that was in use, whatever the flag says. -/
structure Transmission.Sealed (prim : Primitives) (t : Transmission) : Prop where
  data : t.packet.header.isControlPacket = false
  payload : ∃ sek, t.sek = some sek ∧
    t.packet.payload = Crypto.crypt prim t.salt sek t.packet.seq.val t.plaintext

namespace Resend

section
variable {prim : Primitives} {s s' : Resend}

/-- The invariant: the connection is encrypted, and what is stored or was sent is decryptable. -/
structure Inv (prim : Primitives) (s : Resend) : Prop where
  conn : s.conn.Encrypted
  stored : ∀ t ∈ s.stored, t.Sealed prim ∧ t.packet.header.keyBaseEncryptionFlag = t.key
  emitted : ∀ t ∈ s.emitted, t.Decryptable prim

theorem inv_init {conn : SrtConn} (h : conn.Encrypted) : Inv prim (init conn) where
  conn := h
  stored := by
    intro t ht
    cases ht
  emitted := by
    intro t ht
    cases ht

/-- A packet as `pop` leaves it after its first transmission. -/
theorem sealed_record {conn : SrtConn} {crypto : Crypto} {p : Packet} (hkey : conn.Encrypted)
    (hdata : p.header.isControlPacket = false)
    (hfirst : p.header.retransmittedPacketFlag = false) :
    Transmission.Sealed prim
      { record conn crypto p with packet := conn.encrypt prim crypto (conn.address p) } where
  data := hdata
  payload := by
    obtain ⟨sek, hsek⟩ := crypto.exists_sek hkey.key
    refine ⟨sek, hsek, ?_⟩
    show (if p.header.retransmittedPacketFlag then p.payload
      else (crypto.encryptOrDecryptPayload prim p.payload conn.keyBaseEncryption
        p.seq.val).toOption.getD p.payload) = _
    rw [hfirst, if_neg Bool.false_ne_true]
    unfold Crypto.encryptOrDecryptPayload
    rw [hsek]
    rfl

/-- Sending a sealed packet again keeps the payload. -/
theorem sealed_again {conn : SrtConn} {crypto : Crypto} {t : Transmission} (h : t.Sealed prim) :
    Transmission.Sealed prim
      { t with
        packet := conn.encrypt prim crypto (conn.address (Sender.retransmitted t.packet)) } where
  data := h.data
  payload := h.payload

/-- What a step does to the history: it adds one record. For a first transmission the flag
is right. For a packet that is sent again it is the flag of the key in use. -/
theorem step_cases (h : s.conn.Encrypted)
    (hstored : ∀ t ∈ s.stored, t.Sealed prim) {e : Event} (hs : step prim s e = some s') :
    s'.conn.Encrypted ∧ ∃ t, t.Sealed prim ∧
      t.packet.header.keyBaseEncryptionFlag = s.conn.keyBaseEncryption ∧
      s'.emitted = s.emitted ++ [t] ∧
      ((∃ p timestamp random, e = .first p timestamp random ∧ t.key = s.conn.keyBaseEncryption ∧
          s'.stored = s.stored ++ [t]) ∨
        ∃ i timestamp random old, e = .again i timestamp random ∧ s.stored[i]? = some old ∧
          t.key = old.key ∧ s'.stored = s.stored.set i t) := by
  obtain ⟨crypto, hcrypto⟩ := h.crypto
  cases e with
  | first p timestamp random =>
    simp only [step] at hs
    split at hs
    · cases hs
    rename_i hp
    rw [Bool.or_eq_true, not_or, Bool.not_eq_true, Bool.not_eq_true] at hp
    rw [hcrypto, Option.map_some, Option.some.injEq] at hs
    have hpop := SrtConn.pop_data prim timestamp random hp.1 hcrypto
    have hconn := h.pop prim timestamp random hp.1
    cases hs
    refine ⟨hconn, { record s.conn crypto p with
      packet := s.conn.encrypt prim crypto (s.conn.address p) },
      sealed_record h hp.1 hp.2, rfl, ?_, Or.inl ⟨p, timestamp, random, rfl, rfl, ?_⟩⟩
    · rw [hpop]
    · rw [hpop]
  | again i timestamp random =>
    simp only [step] at hs
    obtain ⟨t, ht, hs⟩ := Option.map_eq_some_iff.mp hs
    -- The payload is not encrypted again, so its key is still that of the first transmission.
    have hseal := hstored t (List.mem_of_getElem? ht)
    have hdata : (Sender.retransmitted t.packet).header.isControlPacket = false := hseal.data
    have hpop := SrtConn.pop_data prim timestamp random hdata hcrypto
    have hconn := h.pop prim timestamp random hdata
    cases hs
    refine ⟨hconn, { t with
      packet := s.conn.encrypt prim crypto (s.conn.address (Sender.retransmitted t.packet)) },
      sealed_again hseal, rfl, ?_, Or.inr ⟨i, timestamp, random, t, rfl, ht, rfl, ?_⟩⟩
    · rw [hpop]
    · rw [hpop]

/-- A sealed packet is decryptable exactly when its flag is right. -/
theorem decryptable_iff {t : Transmission} (h : t.Sealed prim) :
    t.Decryptable prim ↔ t.packet.header.keyBaseEncryptionFlag = t.key :=
  ⟨fun hd => hd.1, fun hflag => ⟨hflag, h.payload⟩⟩

/-- A step under `FlagCurrent` keeps the invariant. -/
theorem Inv.step (h : Inv prim s) {e : Event} (hC : FlagCurrent s e)
    (hs : Resend.step prim s e = some s') : Inv prim s' := by
  obtain ⟨hconn, t, hseal, hflag, hemitted, hcase⟩ :=
    step_cases h.conn (fun t ht => (h.stored t ht).1) hs
  -- The new record has the right flag: a first transmission always, a repeated one because the
  -- condition says that its old flag is the current one.
  have hkey : t.packet.header.keyBaseEncryptionFlag = t.key := by
    rcases hcase with ⟨p, _, _, rfl, hkey, -⟩ | ⟨i, _, _, old, rfl, hold, hkey, -⟩
    · rw [hflag, hkey]
    · rw [hflag, ← hC old hold, hkey]
      exact (h.stored old (List.mem_of_getElem? hold)).2
  constructor
  · exact hconn
  · intro u hu
    rcases hcase with ⟨_, _, _, -, -, hstored⟩ | ⟨_, _, _, _, -, -, -, hstored⟩
    · rw [hstored] at hu
      rcases List.mem_append.mp hu with hu | hu
      · exact h.stored u hu
      · cases List.mem_singleton.mp hu
        exact ⟨hseal, hkey⟩
    · rw [hstored] at hu
      rcases List.mem_or_eq_of_mem_set hu with hu | rfl
      · exact h.stored u hu
      · exact ⟨hseal, hkey⟩
  · intro u hu
    rw [hemitted] at hu
    rcases List.mem_append.mp hu with hu | hu
    · exact h.emitted u hu
    · cases List.mem_singleton.mp hu
      exact (decryptable_iff hseal).mpr hkey

/-- A decryptable packet that is sent again had the flag of the key in use. -/
theorem Inv.flagCurrent (h : Inv prim s) {e : Event} (hs : Resend.step prim s e = some s')
    (hgood : ∀ t ∈ s'.emitted, t.Decryptable prim) : FlagCurrent s e := by
  obtain ⟨-, t, -, hflag, hemitted, hcase⟩ :=
    step_cases h.conn (fun t ht => (h.stored t ht).1) hs
  rcases hcase with ⟨p, _, _, rfl, -, -⟩ | ⟨i, _, _, old, rfl, hold, hkey, -⟩
  · trivial
  · intro u hu
    rw [hold] at hu
    cases hu
    have ht : t ∈ s'.emitted := by
      rw [hemitted]
      exact List.mem_append_right _ (List.mem_singleton.mpr rfl)
    rw [(h.stored old (List.mem_of_getElem? hold)).2, ← hkey, ← (hgood t ht).1, hflag]

/-- What was sent stays in the history. -/
theorem emitted_subset_step {e : Event} (hs : Resend.step prim s e = some s') :
    ∀ t ∈ s.emitted, t ∈ s'.emitted := by
  intro t ht
  cases e with
  | first p timestamp random =>
    simp only [Resend.step] at hs
    split at hs
    · cases hs
    · obtain ⟨crypto, -, rfl⟩ := Option.map_eq_some_iff.mp hs
      exact List.mem_append_left _ ht
  | again i timestamp random =>
    simp only [Resend.step] at hs
    obtain ⟨old, -, rfl⟩ := Option.map_eq_some_iff.mp hs
    exact List.mem_append_left _ ht

/-- Every packet of a run is decryptable exactly when each packet that was sent again had the
flag of the key in use at that time. -/
theorem decryptable_iff_flagCurrent {conn : SrtConn} (hconn : conn.Encrypted)
    {events : List Event} (hrun : run (Resend.step prim) (init conn) events = some s) :
    RunMeets (Resend.step prim) FlagCurrent (init conn) events ↔
      ∀ t ∈ s.emitted, t.Decryptable prim :=
  runMeets_iff (fun _ _ _ hC h hs => h.step hC hs) (fun _ h => h.emitted)
    (fun _ _ _ h hs hgood => h.flagCurrent hs hgood)
    (fun _ _ _ hs hgood t ht => hgood t (emitted_subset_step hs t ht))
    (inv_init hconn) hrun

end

/-- A connection that switches keys after three packets. -/
def switchingConn : SrtConn := newSRTConn (Sample.connConfig 3 1)

/-- Two packets are sent, and the first one again before the switch. -/
def promptEvents : List Event :=
  [.first (Sample.dataPacket 1) 10 (some Sample.newSEK), .first (Sample.dataPacket 2) 20 none,
    .again 0 30 none]

def promptEnd : Resend := runD (step Sample.primitives) (init switchingConn) promptEvents

/-- The key did not change, so all three packets can be decrypted. -/
theorem flagCurrent_promptEvents :
    switchingConn.Encrypted ∧
      run (step Sample.primitives) (init switchingConn) promptEvents = some promptEnd ∧
      promptEnd.emitted.length = 3 ∧
      RunMeets (step Sample.primitives) FlagCurrent (init switchingConn) promptEvents :=
  ⟨⟨⟨_, rfl⟩, Or.inl rfl⟩, run_eq_some_runD (by decide +kernel), by decide +kernel,
    (decryptable_iff_flagCurrent ⟨⟨_, rfl⟩, Or.inl rfl⟩
        (run_eq_some_runD (by decide +kernel))).mpr
      (by decide +kernel : ∀ t ∈ promptEnd.emitted, t.Decryptable Sample.primitives)⟩

/-- Three packets are sent, so the connection is at its odd key. Then the first one is sent
again. -/
def lateEvents : List Event :=
  [.first (Sample.dataPacket 1) 10 (some Sample.newSEK), .first (Sample.dataPacket 2) 20 none,
    .first (Sample.dataPacket 3) 30 none, .again 0 40 none]

def lateEnd : Resend := runD (step Sample.primitives) (init switchingConn) lateEvents

/-- The last packet of this run was encrypted with the even key and names the odd one. -/
theorem not_decryptable_lateEnd :
    switchingConn.Encrypted ∧
      run (step Sample.primitives) (init switchingConn) lateEvents = some lateEnd ∧
      ∃ t ∈ lateEnd.emitted, t.key = .evenKeyEncrypted ∧
        t.packet.header.keyBaseEncryptionFlag = .oddKeyEncrypted ∧
        ¬t.Decryptable Sample.primitives :=
  ⟨⟨⟨_, rfl⟩, Or.inl rfl⟩, run_eq_some_runD (by decide +kernel), by decide +kernel⟩

end Resend

end Gosrt
