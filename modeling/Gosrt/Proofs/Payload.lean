import Gosrt.Proofs.Connection

/-!
# `Gosrt.Proofs.Payload`: what two ends with the same keys do to a payload

Encryption is an exclusive or with a key stream, so the same operation decrypts
(`crypt_crypt`). The key stream of a packet is made from the counter blocks of its sequence
number. `counterBlock_add_inj` says that no two packets share one, as long as a payload has at
most `2 ^ 16` blocks: the sequence number stands above the 16 bits of the block counter.

`keyMaterial_roundTrip` follows key material from one context to another, over the wire.

A message that `UnmarshalKM` rejects can leave its salt behind, because the salt is copied before
the keys are unwrapped. `rejected_keeps_iff` says for which messages it does not.
-/

set_option autoImplicit false

namespace Gosrt

open Lib

namespace Crypto

/-! ### Counter mode -/

/-- The key stream is as long as it is asked for. -/
theorem length_keyStream (prim : Primitives) (key iv : Bytes) (n : Nat) :
    (keyStream prim key iv n).length = n := by
  have hblock : ∀ b ∈ (List.range ((n + 15) / 16)).map fun i =>
      prim.aesEncrypt key (bytesOfNat 16 (natOfBytes iv + i)), b.length = 16 := by
    intro b hb
    obtain ⟨i, -, rfl⟩ := List.mem_map.mp hb
    exact prim.length_aesEncrypt key _ (length_bytesOfNat 16 _)
  unfold keyStream
  rw [List.length_take, List.flatMap_def, length_flatten_of_length hblock, List.length_map,
    List.length_range]
  omega

/-- Encryption keeps the length. -/
@[simp] theorem length_crypt (prim : Primitives) (salt sek : Bytes)
    (packetSequenceNumber : UInt32) (data : Bytes) :
    (crypt prim salt sek packetSequenceNumber data).length = data.length := by
  unfold crypt
  rw [length_xorBytes, length_keyStream, Nat.min_self]

/-- Encrypting twice gives the payload back. -/
theorem crypt_crypt (prim : Primitives) (salt sek : Bytes) (packetSequenceNumber : UInt32)
    (data : Bytes) :
    crypt prim salt sek packetSequenceNumber (crypt prim salt sek packetSequenceNumber data)
      = data := by
  have hlen := length_crypt prim salt sek packetSequenceNumber data
  have hkey := length_keyStream prim sek (counterBlock salt packetSequenceNumber) data.length
  unfold crypt at hlen ⊢
  rw [hlen]
  exact xorBytes_xorBytes (Nat.le_of_eq hkey.symm)

/-- The number of a counter block: the block counter is in its lowest 16 bits. -/
theorem natOfBytes_counterBlock (salt : Bytes) (packetSequenceNumber : UInt32) :
    natOfBytes (counterBlock salt packetSequenceNumber) =
      natOfBytes (xorBytes (List.replicate 10 0 ++ be32 packetSequenceNumber) (salt.take 14))
        * 2 ^ 16 := by
  unfold counterBlock
  rw [show ([0, 0] : Bytes) = [0] ++ [0] from rfl, ← List.append_assoc, natOfBytes_concat,
    natOfBytes_concat]
  show (_ * 2 ^ 8 + 0) * 2 ^ 8 + 0 = _
  omega

/-- The blocks of two sequence numbers are different, and so are the blocks of one. -/
theorem counterBlock_add_inj {salt : Bytes} (hsalt : salt.length = 16) {x y : UInt32} {i j : Nat}
    (hi : i < 2 ^ 16) (hj : j < 2 ^ 16)
    (h : bytesOfNat 16 (natOfBytes (counterBlock salt x) + i)
      = bytesOfNat 16 (natOfBytes (counterBlock salt y) + j)) : x = y ∧ i = j := by
  have hnonce : ∀ z : UInt32,
      (xorBytes (List.replicate 10 0 ++ be32 z) (salt.take 14)).length = 14 := by
    intro z
    rw [length_xorBytes, List.length_append, List.length_replicate, length_be32, List.length_take,
      hsalt]
    rfl
  -- The upper 14 bytes of a block are a number below `2 ^ 112`, so that adding the block counter
  -- does not leave the 16 bytes.
  have hlt : ∀ z : UInt32,
      natOfBytes (xorBytes (List.replicate 10 0 ++ be32 z) (salt.take 14)) < 2 ^ 112 := by
    intro z
    have hz := natOfBytes_lt (xorBytes (List.replicate 10 0 ++ be32 z) (salt.take 14))
    rwa [hnonce] at hz
  have hx := hlt x
  have hy := hlt y
  have hnat := congrArg natOfBytes h
  rw [natOfBytes_bytesOfNat, natOfBytes_bytesOfNat, natOfBytes_counterBlock,
    natOfBytes_counterBlock, Nat.mod_eq_of_lt (by omega), Nat.mod_eq_of_lt (by omega)] at hnat
  have hupper := natOfBytes_inj ((hnonce x).trans (hnonce y).symm) (by omega)
  have hlen : ∀ z : UInt32,
      (List.replicate 10 (0 : UInt8) ++ be32 z).length ≤ (salt.take 14).length := by
    intro z
    rw [List.length_append, List.length_replicate, length_be32, List.length_take, hsalt]
    exact Nat.le_refl 14
  have hwords := xorBytes_right_inj (hlen x) (hlen y) hupper
  exact ⟨be32_inj (List.append_cancel_left hwords), by omega⟩

/-! ### Key material over the wire -/

/-- Encryption with one context is undone by another that has its salt and the key. -/
theorem decrypts_of_sek_eq (prim : Primitives) {a b : Crypto} (hsalt : b.salt = a.salt)
    {key : PacketEncryption} {sek : Bytes} (ha : a.sek key = some sek) (hb : b.sek key = some sek)
    (data : Bytes) (packetSequenceNumber : UInt32) :
    ∃ encrypted,
      a.encryptOrDecryptPayload prim data key packetSequenceNumber = .ok encrypted ∧
      b.encryptOrDecryptPayload prim encrypted key packetSequenceNumber = .ok data := by
  refine ⟨crypt prim a.salt sek packetSequenceNumber data, ?_, ?_⟩
  · unfold encryptOrDecryptPayload
    rw [ha]
  · unfold encryptOrDecryptPayload
    rw [hb]
    dsimp only
    rw [hsalt, crypt_crypt]

end Crypto

/-- A payload keeps its length, also where the key in use is not a single one. -/
theorem SrtConn.length_encrypt (prim : Primitives) (c : SrtConn) (crypto : Crypto) (p : Packet) :
    (c.encrypt prim crypto p).payload.length = p.payload.length := by
  unfold encrypt Crypto.encryptOrDecryptPayload
  dsimp only
  split
  · rfl
  · cases crypto.sek c.keyBaseEncryption with
    | none => rfl
    | some sek => exact Crypto.length_crypt prim _ _ _ _

/-- The selector names a key: it is that key, or both. -/
def PacketEncryption.Names (selector key : PacketEncryption) : Prop :=
  (key = .evenKeyEncrypted ∨ key = .oddKeyEncrypted) ∧
    (selector = key ∨ selector = .evenAndOddKey)

instance (selector key : PacketEncryption) : Decidable (selector.Names key) :=
  inferInstanceAs (Decidable (_ ∧ _))

namespace Crypto

/-- Copying the keys of another context gives the named ones and leaves the other alone. -/
theorem sek_copyKeys (c d : Crypto) (hlen : d.keyLength = c.keyLength)
    {selector : PacketEncryption} (hselector : selector ≠ .unencryptedPacket)
    (key : PacketEncryption) :
    (d.copyKeys selector (c.plainKeys selector)).sek key
      = if selector.Names key then c.sek key else d.sek key := by
  have heven : copyBytes d.evenSEK c.evenSEK = c.evenSEK :=
    copyBytes_of_length_eq (by rw [c.length_evenSEK, d.length_evenSEK, hlen])
  have hodd : copyBytes d.oddSEK c.oddSEK = c.oddSEK :=
    copyBytes_of_length_eq (by rw [c.length_oddSEK, d.length_oddSEK, hlen])
  have htake : (c.evenSEK ++ c.oddSEK).take d.keyLength = c.evenSEK :=
    List.take_left' (c.length_evenSEK.trans hlen.symm)
  have hdrop : (c.evenSEK ++ c.oddSEK).drop d.keyLength = c.oddSEK :=
    List.drop_left' (c.length_evenSEK.trans hlen.symm)
  cases selector with
  | unencryptedPacket => exact absurd rfl hselector
  | evenKeyEncrypted =>
    cases key with
    | evenKeyEncrypted => exact congrArg some heven
    | _ => rfl
  | oddKeyEncrypted =>
    cases key with
    | oddKeyEncrypted => exact congrArg some hodd
    | _ => rfl
  | evenAndOddKey =>
    cases key with
    | evenKeyEncrypted =>
      show some (copyBytes d.evenSEK ((c.evenSEK ++ c.oddSEK).take d.keyLength)) = some c.evenSEK
      rw [htake, heven]
    | oddKeyEncrypted =>
      show some (copyBytes d.oddSEK ((c.evenSEK ++ c.oddSEK).drop d.keyLength)) = some c.oddSEK
      rw [hdrop, hodd]
    | _ => rfl

/-- Key material that `a` makes, encodes and sends gives `b` its salt and the named keys. The
other key of `b` stays, and what `a` encrypts with a named key `b` decrypts. -/
theorem keyMaterial_roundTrip (prim : Primitives) (a b : Crypto) (hlen : b.keyLength = a.keyLength)
    (km : CIFKeyMaterialExtension) (passphrase : Bytes) (selector : PacketEncryption)
    (hok : (a.marshalKM prim km passphrase selector).2 = .ok ()) :
    ∃ data received b',
      (a.marshalKM prim km passphrase selector).1.marshal = .ok data ∧
      CIFKeyMaterialExtension.unmarshal {} data = .ok received ∧
      b.unmarshalKM prim received passphrase = (b', .ok ()) ∧
      b'.salt = a.salt ∧
      (∀ key, selector.Names key → b'.sek key = a.sek key) ∧
      (∀ key, ¬selector.Names key → b'.sek key = b.sek key) ∧
      ∀ key, selector.Names key → ∀ payload packetSequenceNumber, ∃ encrypted,
        a.encryptOrDecryptPayload prim payload key packetSequenceNumber = .ok encrypted ∧
        b'.encryptOrDecryptPayload prim encrypted key packetSequenceNumber = .ok payload := by
  have hselector : selector ≠ .unencryptedPacket := by
    rintro rfl
    cases hok
  obtain ⟨kek, hkek⟩ := a.exists_kek_of_marshalKM prim km hselector hok
  obtain ⟨wrap, hmarshal, hwrap, hunwrap⟩ := a.marshalKM_eq prim km hselector hkek
  -- What reaches the other end is well formed: only the reserved bits and the error of the
  -- message that was filled in can differ.
  set sent : CIFKeyMaterialExtension := { a.marshalKMFields km selector with wrap := wrap }
  have hwf : sent.carried.WellFormed :=
    a.marshalKMFields_wrap_wellFormed km.carried rfl
      (CIFKeyMaterialExtension.resv1_masked km.resv1).2 hselector hwrap
  have hdata := hwf.marshal_eq
  have hreceived := CIFKeyMaterialExtension.unmarshal_marshalData hwf []
  rw [List.append_nil] at hreceived
  have hunmarshal : b.unmarshalKM prim sent.carried passphrase
      = ((b.copySalt a.salt).copyKeys selector (a.plainKeys selector), .ok ()) :=
    b.unmarshalKM_ok prim sent.carried hselector (by rw [hlen]; exact hwrap) a.length_salt
      (by rw [hlen]; exact hkek) hunwrap (by rw [hlen]; exact a.length_plainKeys hselector)
  have hsek := a.sek_copyKeys (b.copySalt a.salt) hlen hselector
  have hsalt : ((b.copySalt a.salt).copyKeys selector (a.plainKeys selector)).salt = a.salt := by
    have hcopy : (b.copySalt a.salt).salt = a.salt :=
      copyBytes_of_length_eq (a.length_salt.trans b.length_salt.symm)
    cases selector <;> exact hcopy
  have hnamed : ∀ key, selector.Names key →
      ((b.copySalt a.salt).copyKeys selector (a.plainKeys selector)).sek key = a.sek key := by
    intro key hkey
    rw [hsek key, if_pos hkey]
  rw [hmarshal]
  refine ⟨_, sent.carried, _, ?_, hreceived, hunmarshal, hsalt, hnamed, ?_, ?_⟩
  · unfold CIFKeyMaterialExtension.marshal at hdata ⊢
    rwa [sent.marshalData_carried] at hdata ⊢
  · intro key hkey
    rw [hsek key, if_neg hkey]
    rfl
  · intro key hkey payload packetSequenceNumber
    obtain ⟨sek, ha⟩ : ∃ sek, a.sek key = some sek := by
      obtain ⟨rfl | rfl, -⟩ := hkey <;> exact ⟨_, rfl⟩
    exact decrypts_of_sek_eq prim hsalt ha ((hnamed key hkey).trans ha) payload
      packetSequenceNumber

/-- The even key reaches a context that had other keys and another salt, and its odd key stays. -/
theorem keyMaterial_roundTrip_evenSEK :
    ∃ data received b',
      (Sample.crypto.marshalKM Sample.primitives {} Sample.passphrase .evenKeyEncrypted).1.marshal
        = .ok data ∧
      CIFKeyMaterialExtension.unmarshal {} data = .ok received ∧
      ((Sample.crypto.copySalt (List.replicate 16 7)).copyEvenSEK Sample.newSEK).unmarshalKM
        Sample.primitives received Sample.passphrase = (b', .ok ()) ∧
      b'.salt = Sample.salt ∧ b'.evenSEK = Sample.evenSEK ∧ b'.oddSEK = Sample.oddSEK := by
  obtain ⟨data, received, b', hdata, hreceived, hb', hsalt, hnamed, hother, -⟩ :=
    keyMaterial_roundTrip Sample.primitives Sample.crypto
      ((Sample.crypto.copySalt (List.replicate 16 7)).copyEvenSEK Sample.newSEK) rfl {}
      Sample.passphrase .evenKeyEncrypted (by decide +kernel)
  refine ⟨data, received, b', hdata, hreceived, hb', hsalt, ?_, ?_⟩
  · exact Option.some.inj (hnamed .evenKeyEncrypted (by decide))
  · exact Option.some.inj (hother .oddKeyEncrypted (by decide))

/-! ### Rejected key material -/

/-- The keys of the message unwrap under the passphrase, with the salt that `UnmarshalKM` has by
then. -/
def Opens (prim : Primitives) (c : Crypto) (km : CIFKeyMaterialExtension) (passphrase : Bytes) :
    Prop :=
  ∃ kek keys, calculateKEK prim passphrase (copyBytes c.salt km.salt) c.keyLength = some kek ∧
    Keywrap.unwrap prim kek km.wrap = .ok keys ∧ keys.length = km.keyCount * c.keyLength

/-- The context stays as it is when its salt does. -/
theorem copySalt_eq_self {c : Crypto} {salt : Bytes} (h : copyBytes c.salt salt = c.salt) :
    c.copySalt salt = c := by
  unfold copySalt
  congr

section
variable (prim : Primitives) {c : Crypto} {km : CIFKeyMaterialExtension} (passphrase : Bytes)

/-- The message names no key, or its keys have the wrong length: nothing is touched. -/
theorem unmarshalKM_of_malformed
    (h : km.keyBasedEncryption = .unencryptedPacket ∨
      km.wrap.length ≠ km.keyCount * c.keyLength + 8) :
    (c.unmarshalKM prim km passphrase).1 = c := by
  unfold unmarshalKM
  by_cases hkey : km.keyBasedEncryption = .unencryptedPacket
  · rw [if_pos hkey]
  · rw [if_neg hkey]
    dsimp only
    rw [if_pos (h.resolve_left hkey)]

/-- A message that passes the first two checks: its salt is copied, and its keys if they unwrap. -/
theorem unmarshalKM_attempt (hkey : km.keyBasedEncryption ≠ .unencryptedPacket)
    (hwrap : km.wrap.length = km.keyCount * c.keyLength + 8) :
    (∃ kek keys, calculateKEK prim passphrase (copyBytes c.salt km.salt) c.keyLength = some kek ∧
      Keywrap.unwrap prim kek km.wrap = .ok keys ∧ keys.length = km.keyCount * c.keyLength ∧
      c.unmarshalKM prim km passphrase
        = ((c.copySalt km.salt).copyKeys km.keyBasedEncryption keys, .ok ())) ∨
    (¬Opens prim c km passphrase ∧
      ∃ e, c.unmarshalKM prim km passphrase = (c.copySalt km.salt, .error e)) := by
  have hsalt : (if km.salt.isEmpty then c else c.copySalt km.salt) = c.copySalt km.salt := by
    split
    · rename_i hempty
      have hnothing : copyBytes c.salt km.salt = c.salt := by
        rw [List.isEmpty_iff.mp hempty]
        simp [copyBytes]
      exact (copySalt_eq_self hnothing).symm
    · rfl
  unfold unmarshalKM
  rw [if_neg hkey]
  dsimp only
  rw [if_neg (not_not.mpr hwrap), hsalt]
  rw [show (c.copySalt km.salt).salt = copyBytes c.salt km.salt from rfl,
    show (c.copySalt km.salt).keyLength = c.keyLength from rfl]
  cases hkek : calculateKEK prim passphrase (copyBytes c.salt km.salt) c.keyLength with
  | none =>
    refine Or.inr ⟨?_, _, rfl⟩
    rintro ⟨kek, keys, hsome, -⟩
    rw [hkek] at hsome
    cases hsome
  | some kek =>
    dsimp only
    cases hunwrap : Keywrap.unwrap prim kek km.wrap with
    | error e =>
      refine Or.inr ⟨?_, _, rfl⟩
      rintro ⟨kek', keys, hsome, hok, -⟩
      cases hkek.symm.trans hsome
      cases hunwrap.symm.trans hok
    | ok keys =>
      dsimp only
      by_cases hlen : keys.length = km.keyCount * c.keyLength
      · rw [if_neg (not_not.mpr hlen)]
        exact Or.inl ⟨kek, keys, rfl, hunwrap, hlen, rfl⟩
      · rw [if_pos hlen]
        refine Or.inr ⟨?_, _, rfl⟩
        rintro ⟨kek', keys', hsome, hok, hlen'⟩
        cases hkek.symm.trans hsome
        cases hunwrap.symm.trans hok
        exact hlen hlen'

/-- The error is that of the unwrapping. -/
theorem unmarshalKM_of_wellFormed (hkey : km.keyBasedEncryption ≠ .unencryptedPacket)
    (hwrap : km.wrap.length = km.keyCount * c.keyLength + 8) :
    (Opens prim c km passphrase ∧ (c.unmarshalKM prim km passphrase).2 = .ok ()) ∨
    (¬Opens prim c km passphrase ∧
      ∃ e, c.unmarshalKM prim km passphrase = (c.copySalt km.salt, .error e)) := by
  obtain ⟨kek, keys, hkek, hunwrap, hlen, hok⟩ | hclosed :=
    unmarshalKM_attempt prim passphrase hkey hwrap
  · exact Or.inl ⟨⟨kek, keys, hkek, hunwrap, hlen⟩, by rw [hok]⟩
  · exact Or.inr hclosed

/-- A rejected message leaves the salt and both keys as they were, and with them the decryption
of every packet, exactly when it is rejected before its salt is copied, or its salt is the one of
the context already, or it is not rejected at all. -/
theorem rejected_keeps_iff (prim : Primitives) (c : Crypto) (km : CIFKeyMaterialExtension)
    (passphrase : Bytes) :
    (∀ c' e, c.unmarshalKM prim km passphrase = (c', .error e) →
      c'.salt = c.salt ∧ c'.evenSEK = c.evenSEK ∧ c'.oddSEK = c.oddSEK ∧
      ∀ data key packetSequenceNumber,
        c'.encryptOrDecryptPayload prim data key packetSequenceNumber
          = c.encryptOrDecryptPayload prim data key packetSequenceNumber) ↔
    km.keyBasedEncryption = .unencryptedPacket ∨
      km.wrap.length ≠ km.keyCount * c.keyLength + 8 ∨
      copyBytes c.salt km.salt = c.salt ∨ Opens prim c km passphrase := by
  constructor
  · intro hkeeps
    by_contra hnot
    simp only [not_or, not_not] at hnot
    obtain ⟨hkey, hwrap, hsalt, hopens⟩ := hnot
    obtain ⟨hopen, -⟩ | ⟨-, e, herror⟩ := unmarshalKM_of_wellFormed prim passphrase hkey hwrap
    · exact hopens hopen
    · exact hsalt (hkeeps _ e herror).1
  · rintro hcases c' e herror
    -- In each of the cases the context is the old one.
    have hsame : c' = c := by
      by_cases hmalformed : km.keyBasedEncryption = .unencryptedPacket ∨
          km.wrap.length ≠ km.keyCount * c.keyLength + 8
      · have hkeep := unmarshalKM_of_malformed prim passphrase hmalformed
        rw [herror] at hkeep
        exact hkeep
      have hcopied := (or_assoc.mpr hcases).resolve_left hmalformed
      simp only [not_or, not_not] at hmalformed
      obtain ⟨-, hok⟩ | ⟨hclosed, e', herror'⟩ :=
        unmarshalKM_of_wellFormed prim passphrase hmalformed.1 hmalformed.2
      · rw [herror] at hok
        cases hok
      · rw [herror] at herror'
        rw [(Prod.mk.inj herror').1]
        exact copySalt_eq_self (hcopied.resolve_right hclosed)
    rw [hsame]
    exact ⟨rfl, rfl, rfl, fun _ _ _ => rfl⟩

end

/-- Key material with a salt of its own, whose keys do not unwrap. -/
def forgedKM : CIFKeyMaterialExtension where
  version := 1
  packetType := 2
  sign := 0x2029
  keyBasedEncryption := .oddKeyEncrypted
  cipher := 2
  streamEncapsulation := 2
  sLen := 16
  kLen := 16
  salt := List.replicate 16 7
  wrap := List.replicate 24 9

/-- The forged message is rejected, but the even key, which it does not name, does not decrypt any
more what it did before. -/
theorem rejected_forgedKM_disturbs :
    ∃ c' e,
      Sample.crypto.unmarshalKM Sample.primitives forgedKM Sample.passphrase = (c', .error e) ∧
      c'.salt ≠ Sample.crypto.salt ∧
      c'.encryptOrDecryptPayload Sample.primitives [1, 2, 3] .evenKeyEncrypted 5
        ≠ Sample.crypto.encryptOrDecryptPayload Sample.primitives [1, 2, 3] .evenKeyEncrypted 5 :=
  ⟨Sample.crypto.copySalt forgedKM.salt, .error "keywrap: failed to unwrap key",
    by decide +kernel, by decide +kernel, by decide +kernel⟩

end Crypto

end Gosrt
