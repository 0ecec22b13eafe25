import Gosrt.Proofs.KeyMaterial
import Gosrt.Spec.Crypto

/-!
# `Gosrt.Proofs.Crypto`: key material carries the keys

Unwrapping undoes wrapping (`Keywrap.unwrap_wrap`): a step of one is the inverse of a step of
the other, because AES decryption is the inverse of AES encryption, and the library on
passes does the rest.

On top of this, key material that one context makes gives the salt and the named keys to
another context with the same key length and passphrase (`unmarshalKM_marshalKM`).
-/

set_option autoImplicit false

namespace Gosrt

open Lib

namespace Keywrap

/-- A step of `Unwrap` undoes a step of `Wrap` on halves of eight bytes. -/
theorem wrapStep_inverse (prim : Primitives) (key : Bytes) :
    Inverse (wrapStep prim key) (unwrapStep prim key) (fun a => a.length = 8)
      (fun r => r.length = 8) := by
  have hlen : ∀ a r : Bytes, a.length = 8 → r.length = 8 →
      (prim.aesEncrypt key (a ++ r)).length = 16 := by
    intro a r ha hr
    exact prim.length_aesEncrypt key _ (by rw [List.length_append, ha, hr])
  constructor
  · intro t a r ha hr
    have hb := hlen a r ha hr
    have hdec := prim.aesDecrypt_aesEncrypt key (a ++ r) (by rw [List.length_append, ha, hr])
    show ((prim.aesDecrypt key (xorBytes (xorBytes ((prim.aesEncrypt key (a ++ r)).take 8)
        (be64 (UInt64.ofNat t))) (be64 (UInt64.ofNat t))
        ++ (prim.aesEncrypt key (a ++ r)).drop 8)).take 8,
      (prim.aesDecrypt key (xorBytes (xorBytes ((prim.aesEncrypt key (a ++ r)).take 8)
        (be64 (UInt64.ofNat t))) (be64 (UInt64.ofNat t))
        ++ (prim.aesEncrypt key (a ++ r)).drop 8)).drop 8) = (a, r)
    -- The two exclusive ors cancel, and what is left is a block that was encrypted.
    rw [xorBytes_xorBytes (by rw [List.length_take, length_be64]; omega),
      List.take_append_drop, hdec, List.take_left' ha, List.drop_left' ha]
  · intro t a r ha hr
    have hb := hlen a r ha hr
    show (xorBytes _ _).length = 8
    rw [length_xorBytes, List.length_take, length_be64]
    omega
  · intro t a r ha hr
    have hb := hlen a r ha hr
    show (List.drop 8 _).length = 8
    rw [List.length_drop]
    omega

/-- Wrapping succeeds on whole blocks with a valid key, adds eight bytes, and unwrapping
gives the text back. -/
theorem unwrap_wrap (prim : Primitives) {key plainText : Bytes}
    (hkey : validKeyLength key.length = true) (hlen : plainText.length % 8 = 0) :
    ∃ cipherText, wrap prim key plainText = .ok cipherText ∧
      cipherText.length = plainText.length + 8 ∧
      unwrap prim key cipherText = .ok plainText := by
  have hinv := wrapStep_inverse prim key
  have hcover : plainText.length = plainText.length / 8 * 8 := by omega
  have hblocks := length_of_mem_blocks 8 (Nat.le_of_eq hcover.symm)
  have hround := backwardRounds_forwardRounds hinv (plainText.length / 8) 6
    (initialValue, blocks 8 (plainText.length / 8) plainText) rfl hblocks
  obtain ⟨ha, hrs, hn⟩ := forwardRounds_keeps hinv (plainText.length / 8) 6
    (initialValue, blocks 8 (plainText.length / 8) plainText) rfl hblocks
  unfold wrap
  rw [if_neg (not_not.mpr hlen), if_neg (by rw [hkey]; decide)]
  dsimp only
  generalize forwardRounds (wrapStep prim key) (plainText.length / 8) 6
    (initialValue, blocks 8 (plainText.length / 8) plainText) = out at hround ha hrs hn
  obtain ⟨a, rs⟩ := out
  dsimp only at ha hrs hn ⊢
  rw [length_blocks] at hn
  have htext : (a ++ rs.flatten).length = plainText.length + 8 := by
    rw [List.length_append, length_flatten_of_length hrs, ha, hn]
    omega
  refine ⟨_, rfl, htext, ?_⟩
  -- The register and the blocks are where `Unwrap` looks for them.
  unfold unwrap
  rw [if_neg (by omega), if_neg (by rw [hkey]; decide), if_neg (by omega)]
  dsimp only
  rw [htext, show (plainText.length + 8) / 8 - 1 = plainText.length / 8 by omega,
    List.take_left' ha, List.drop_left' ha]
  have hcut : blocks 8 (plainText.length / 8) rs.flatten = rs := by
    rw [← hn]
    exact blocks_flatten hrs
  rw [hcut, hround, if_neg (not_not.mpr rfl), flatten_blocks hcover]

/-- What was wrapped unwraps under the same key. -/
theorem unwrap_of_wrap {prim : Primitives} {key plainText cipherText : Bytes}
    (h : wrap prim key plainText = .ok cipherText) :
    cipherText.length = plainText.length + 8 ∧ unwrap prim key cipherText = .ok plainText := by
  have hchecks : plainText.length % 8 = 0 ∧ validKeyLength key.length = true := by
    unfold wrap at h
    obtain ⟨hlen, h⟩ := check_eq_ok_iff.mp h
    obtain ⟨hkey, -⟩ := check_eq_ok_iff.mp h
    exact ⟨not_not.mp hlen, by simpa using hkey⟩
  obtain ⟨cipherText', hwrap, hlen, hunwrap⟩ := unwrap_wrap prim hchecks.2 hchecks.1
  obtain rfl := Except.ok.inj (h.symm.trans hwrap)
  exact ⟨hlen, hunwrap⟩

/-- Unwrapping reads the length of the key, and what AES decrypts with it. -/
theorem unwrap_congr {prim : Primitives} {key key' : Bytes} (hlen : key.length = key'.length)
    (haes : prim.aesDecrypt key = prim.aesDecrypt key') (cipherText : Bytes) :
    unwrap prim key cipherText = unwrap prim key' cipherText := by
  unfold unwrap unwrapStep
  rw [hlen, haes]

end Keywrap

namespace Crypto

variable {key : PacketEncryption}

/-- The length of the keys that a message for `key` carries. -/
theorem length_plainKeys (c : Crypto) (hkey : key ≠ .unencryptedPacket) :
    (c.plainKeys key).length = key.keyCount * c.keyLength := by
  cases key with
  | unencryptedPacket => exact absurd rfl hkey
  | evenKeyEncrypted =>
    show c.evenSEK.length = 1 * c.keyLength
    rw [c.length_evenSEK, Nat.one_mul]
  | oddKeyEncrypted =>
    show c.oddSEK.length = 1 * c.keyLength
    rw [c.length_oddSEK, Nat.one_mul]
  | evenAndOddKey =>
    show (c.evenSEK ++ c.oddSEK).length = 2 * c.keyLength
    rw [List.length_append, c.length_evenSEK, c.length_oddSEK]
    omega

/-- The keys that are copied are the ones that are there afterwards. -/
theorem plainKeys_copyKeys (c : Crypto) {keys : Bytes} (hkey : key ≠ .unencryptedPacket)
    (hlen : keys.length = key.keyCount * c.keyLength) :
    (c.copyKeys key keys).plainKeys key = keys := by
  cases key with
  | unencryptedPacket => exact absurd rfl hkey
  | evenKeyEncrypted =>
    rw [show PacketEncryption.evenKeyEncrypted.keyCount = 1 from rfl, Nat.one_mul] at hlen
    exact copyBytes_of_length_eq (hlen.trans c.length_evenSEK.symm)
  | oddKeyEncrypted =>
    rw [show PacketEncryption.oddKeyEncrypted.keyCount = 1 from rfl, Nat.one_mul] at hlen
    exact copyBytes_of_length_eq (hlen.trans c.length_oddSEK.symm)
  | evenAndOddKey =>
    rw [show PacketEncryption.evenAndOddKey.keyCount = 2 from rfl] at hlen
    have heven : (keys.take c.keyLength).length = c.evenSEK.length := by
      rw [List.length_take, c.length_evenSEK]
      omega
    have hodd : (keys.drop c.keyLength).length = c.oddSEK.length := by
      rw [List.length_drop, c.length_oddSEK]
      omega
    show copyBytes c.evenSEK (keys.take c.keyLength) ++ copyBytes c.oddSEK (keys.drop c.keyLength)
      = keys
    rw [copyBytes_of_length_eq heven, copyBytes_of_length_eq hodd, List.take_append_drop]

/-- The key length as a number and on the wire. -/
theorem keyLength_cases (c : Crypto) :
    c.keyLength = 16 ∨ c.keyLength = 24 ∨ c.keyLength = 32 := by
  have h := c.validKeyLength_keyLength
  simp only [validKeyLength, Bool.or_eq_true, beq_iff_eq] at h
  omega

theorem toNat_ofNat_keyLength (c : Crypto) : (UInt16.ofNat c.keyLength).toNat = c.keyLength := by
  rcases c.keyLength_cases with h | h | h <;> rw [h] <;> rfl

/-- A new context has the key length that was asked for. -/
theorem keyLength_of_new {keyLength : Int} {salt even odd : Entropy} {c : Crypto}
    (h : Crypto.new keyLength salt even odd = .ok c) : c.keyLength = keyLength.toNat := by
  unfold Crypto.new at h
  split at h
  · split at h
    · cases h
    · cases h
    · cases h
    · cases h
      rfl
  · cases h

/-- The fixed fields of a message from `MarshalKM` pass the checks of `Unmarshal`. -/
theorem marshalKMFields_wellFormed (c : Crypto) {km : CIFKeyMaterialExtension}
    (herror : km.error = 0) (hresv1 : km.resv1 < 64)
    (hkey : key ≠ .unencryptedPacket) : (c.marshalKMFields km key).WellFormedFixed where
  error := herror
  s := rfl
  version := rfl
  packetType := rfl
  sign := rfl
  resv1 := hresv1
  key := hkey
  keki := rfl
  streamEncapsulation := rfl
  sLen := Or.inr rfl
  kLen := by
    show UInt16.ofNat c.keyLength = 16 ∨ UInt16.ofNat c.keyLength = 24 ∨
      UInt16.ofNat c.keyLength = 32
    rcases c.keyLength_cases with h | h | h <;> rw [h] <;> decide

/-- With wrapped keys of the right length the whole message is well formed. -/
theorem marshalKMFields_wrap_wellFormed (c : Crypto) (km : CIFKeyMaterialExtension)
    (herror : km.error = 0) (hresv1 : km.resv1 < 64)
    (hkey : key ≠ .unencryptedPacket) {wrap : Bytes}
    (hwrap : wrap.length = key.keyCount * c.keyLength + 8) :
    ({ c.marshalKMFields km key with wrap := wrap } : CIFKeyMaterialExtension).WellFormed :=
  { c.marshalKMFields_wellFormed herror hresv1 hkey with
    salt := Or.inl ⟨rfl, c.length_salt⟩
    wrap := by
      show wrap.length = key.keyCount * (UInt16.ofNat c.keyLength).toNat + 8
      rw [hwrap, c.toNat_ofNat_keyLength] }

/-- What `MarshalKM` makes of any message where the key derivation gives a key: the fixed
fields, and the wrapped keys. -/
theorem marshalKM_eq (prim : Primitives) (c : Crypto) (km : CIFKeyMaterialExtension)
    {passphrase kek : Bytes} (hkey : key ≠ .unencryptedPacket)
    (hkek : calculateKEK prim passphrase c.salt c.keyLength = some kek) :
    ∃ wrap, c.marshalKM prim km passphrase key
        = ({ c.marshalKMFields km key with wrap := wrap }, .ok ()) ∧
      wrap.length = key.keyCount * c.keyLength + 8 ∧
      Keywrap.unwrap prim kek wrap = .ok (c.plainKeys key) := by
  -- The derived key is as long as the SEK, so it is a key for AES and the keys fill whole blocks.
  have hvalid : validKeyLength kek.length = true := by
    rw [prim.length_pbkdf2 _ _ _ _ hkek]
    exact c.validKeyLength_keyLength
  have hplain := c.length_plainKeys hkey
  have hblocks : (c.plainKeys key).length % 8 = 0 := by
    rw [hplain]
    rcases c.keyLength_cases with h | h | h <;> rw [h] <;> omega
  obtain ⟨wrap, hwrap, hlen, hunwrap⟩ := Keywrap.unwrap_wrap prim hvalid hblocks
  refine ⟨wrap, ?_, ?_, hunwrap⟩
  · unfold marshalKM
    rw [if_neg hkey]
    dsimp only
    rw [hkek]
    dsimp only
    rw [hwrap]
  · rw [hlen, hplain]

/-- What `MarshalKM` makes of an empty message: a well-formed one with the salt and the wrapped
keys. -/
theorem marshalKM_spec (prim : Primitives) (c : Crypto) {passphrase kek : Bytes}
    (hkey : key ≠ .unencryptedPacket)
    (hkek : calculateKEK prim passphrase c.salt c.keyLength = some kek) :
    ∃ wrap, c.marshalKM prim {} passphrase key
        = ({ c.marshalKMFields {} key with wrap := wrap }, .ok ()) ∧
      ({ c.marshalKMFields {} key with wrap := wrap } : CIFKeyMaterialExtension).WellFormed ∧
      Keywrap.unwrap prim kek wrap = .ok (c.plainKeys key) := by
  obtain ⟨wrap, hmarshal, hlen, hunwrap⟩ := c.marshalKM_eq prim {} hkey hkek
  exact ⟨wrap, hmarshal, c.marshalKMFields_wrap_wellFormed {} rfl (by decide) hkey hlen, hunwrap⟩

/-- `MarshalKM` succeeds only where the key derivation gives a key. -/
theorem exists_kek_of_marshalKM (prim : Primitives) (c : Crypto) (km : CIFKeyMaterialExtension)
    {passphrase : Bytes} (hkey : key ≠ .unencryptedPacket)
    (h : (c.marshalKM prim km passphrase key).2 = .ok ()) :
    ∃ kek, calculateKEK prim passphrase c.salt c.keyLength = some kek := by
  unfold marshalKM at h
  rw [if_neg hkey] at h
  cases hkek : calculateKEK prim passphrase c.salt c.keyLength with
  | none =>
    rw [hkek] at h
    cases h
  | some kek => exact ⟨kek, rfl⟩

/-- `UnmarshalKM` of a message with a salt and with keys that unwrap. -/
theorem unmarshalKM_ok (prim : Primitives) (d : Crypto) (km : CIFKeyMaterialExtension)
    {passphrase kek keys : Bytes} (hkey : km.keyBasedEncryption ≠ .unencryptedPacket)
    (hwrap : km.wrap.length = km.keyCount * d.keyLength + 8) (hsalt : km.salt.length = 16)
    (hkek : calculateKEK prim passphrase km.salt d.keyLength = some kek)
    (hunwrap : Keywrap.unwrap prim kek km.wrap = .ok keys)
    (hkeys : keys.length = km.keyCount * d.keyLength) :
    d.unmarshalKM prim km passphrase
      = ((d.copySalt km.salt).copyKeys km.keyBasedEncryption keys, .ok ()) := by
  have hcopy : (d.copySalt km.salt).salt = km.salt :=
    copyBytes_of_length_eq (hsalt.trans d.length_salt.symm)
  have hne : ¬km.salt.isEmpty = true := by
    intro h
    rw [List.isEmpty_iff.mp h] at hsalt
    cases hsalt
  unfold unmarshalKM
  rw [if_neg hkey]
  dsimp only
  rw [if_neg (not_not.mpr hwrap), if_neg hne, hcopy,
    show (d.copySalt km.salt).keyLength = d.keyLength from rfl, hkek]
  dsimp only
  rw [hunwrap]
  dsimp only
  rw [if_neg (not_not.mpr hkeys)]

/-- Key material from `c` gives its salt and the named keys to every context with the same
key length and passphrase. -/
theorem unmarshalKM_marshalKM (prim : Primitives) (c d : Crypto) {passphrase kek : Bytes}
    (hkey : key ≠ .unencryptedPacket)
    (hkek : calculateKEK prim passphrase c.salt c.keyLength = some kek)
    (hlen : d.keyLength = c.keyLength) :
    d.unmarshalKM prim (c.marshalKM prim {} passphrase key).1 passphrase
      = ((d.copySalt c.salt).copyKeys key (c.plainKeys key), .ok ()) := by
  obtain ⟨wrap, hmarshal, hwf, hunwrap⟩ := c.marshalKM_spec prim hkey hkek
  have hwrap : wrap.length = key.keyCount * d.keyLength + 8 := by
    rw [hlen, ← c.toNat_ofNat_keyLength]
    exact hwf.wrap
  rw [hmarshal]
  exact unmarshalKM_ok prim d { c.marshalKMFields {} key with wrap := wrap } hkey hwrap
    c.length_salt (by rw [hlen]; exact hkek) hunwrap (by rw [c.length_plainKeys hkey, hlen]; rfl)

end Crypto

/-! ### Sample values

AES is given by the blocks that a few concrete runs use: a table of blocks and their
encryptions for each key. A table stands for the permutation that exchanges the two sides of
each of its entries, so that it is invertible whatever it holds.
-/

namespace Sample

/-- Exchange two numbers. -/
def exchange (x y n : Nat) : Nat := if n = x then y else if n = y then x else n

theorem exchange_exchange (x y n : Nat) : exchange x y (exchange x y n) = n := by
  unfold exchange
  grind

/-- Exchange the sides of each entry, from the last to the first. -/
def forth (table : List (Nat × Nat)) (n : Nat) : Nat :=
  table.foldr (fun e => exchange e.1 e.2) n

/-- The same exchanges in the other order. -/
def back (table : List (Nat × Nat)) (n : Nat) : Nat :=
  table.foldl (fun n e => exchange e.1 e.2 n) n

/-- The way back undoes the exchanges in reverse order. -/
theorem back_forth (table : List (Nat × Nat)) (n : Nat) : back table (forth table n) = n := by
  induction table with
  | nil => rfl
  | cons e table ih =>
    show back table (exchange e.1 e.2 (exchange e.1 e.2 (forth table n))) = n
    rw [exchange_exchange]
    exact ih

/-- Exchanges below a bound stay below it. -/
theorem forth_lt {table : List (Nat × Nat)} {bound n : Nat}
    (htable : ∀ e ∈ table, e.1 < bound ∧ e.2 < bound) (hn : n < bound) :
    forth table n < bound := by
  induction table with
  | nil => exact hn
  | cons e table ih =>
    have he := htable e List.mem_cons_self
    have hrest := ih fun e' he' => htable e' (List.mem_cons_of_mem _ he')
    show exchange e.1 e.2 (forth table n) < bound
    unfold exchange
    split
    · exact he.2
    split
    · exact he.1
    · exact hrest

def passphrase : Bytes := "gosrt-secret".toUTF8.toList

def salt : Bytes := bytesOfNat 16 0x000102030405060708090a0b0c0d0e0f

def evenSEK : Bytes := bytesOfNat 16 0x101112131415161718191a1b1c1d1e1f

def oddSEK : Bytes := bytesOfNat 16 0x202122232425262728292a2b2c2d2e2f

/-- A SEK that is drawn later. -/
def newSEK : Bytes := bytesOfNat 16 0x303132333435363738393a3b3c3d3e3f

/-- PBKDF2 of the passphrase and the last eight bytes of the salt. -/
def kek : Bytes := bytesOfNat 16 0xdbdbfbc941260b0ef7317bf32daeef2f

/-- The key wraps of the three SEKs. -/
def wrapTable : List (Nat × Nat) := [
    (0xa6a6a6a6a6a6a6a61011121314151617, 0x195ed0ece89030345697983ee9f88cd9),
    (0x195ed0ece890303518191a1b1c1d1e1f, 0xc1a93fa50e6100e9ed049d4a8251517e),
    (0xc1a93fa50e6100eb5697983ee9f88cd9, 0x1753cbe4fc3fbfb92c0fcddbb96f35c3),
    (0x1753cbe4fc3fbfbaed049d4a8251517e, 0x11f0e2e833a3ec41e543a602546dd153),
    (0x11f0e2e833a3ec452c0fcddbb96f35c3, 0x8241edcb4acde22d9da583eadaddd7c2),
    (0x8241edcb4acde228e543a602546dd153, 0x8c88550de19673af7142d815d910d719),
    (0x8c88550de19673a99da583eadaddd7c2, 0xe0e1fea8ba9c192f987388e69c8c714c),
    (0xe0e1fea8ba9c19287142d815d910d719, 0x6337e37bac0b51d0a98eed290bcedc8c),
    (0x6337e37bac0b51d8987388e69c8c714c, 0x142ee1b2d13e983727fb8f35d70f5f75),
    (0x142ee1b2d13e983ea98eed290bcedc8c, 0x5a14fbac18c0c99ff02256f63e298e3c),
    (0x5a14fbac18c0c99527fb8f35d70f5f75, 0xece02a1e147a28f9ebffd80e4fc8c2b5),
    (0xece02a1e147a28f2f02256f63e298e3c, 0x3d6322fa1d0efa0d5ca39c1d4c3ecc98),
    (0xa6a6a6a6a6a6a6a62021222324252627, 0x7ca62a9bb1b0e377c74d8dce40b561f0),
    (0x7ca62a9bb1b0e37628292a2b2c2d2e2f, 0x9c9d59f679e9280d49ff0e36e828c1b5),
    (0x9c9d59f679e9280fc74d8dce40b561f0, 0xa1132477b13069e086030ae56f5e4a7f),
    (0xa1132477b13069e349ff0e36e828c1b5, 0x4663124b3f56da8b1d363be102fdc1c3),
    (0x4663124b3f56da8f86030ae56f5e4a7f, 0x9d6f9bf717b05f856536fdc95a5d6b36),
    (0x9d6f9bf717b05f801d363be102fdc1c3, 0x0c9699d775624c6aa0192963d8e88e6a),
    (0x0c9699d775624c6c6536fdc95a5d6b36, 0xbe75267e11b871b1a618eb07e7695217),
    (0xbe75267e11b871b6a0192963d8e88e6a, 0x27e34561ef1eec8f79dbb58d3f9599bd),
    (0x27e34561ef1eec87a618eb07e7695217, 0x22038ecb870a9339915f00ddbd78d801),
    (0x22038ecb870a933079dbb58d3f9599bd, 0xbfe4e02516542023dc1331b38209df13),
    (0xbfe4e02516542029915f00ddbd78d801, 0xe91d8342bfdbd6e7370a44c1e7084f67),
    (0xe91d8342bfdbd6ecdc1331b38209df13, 0x75fd17dc6fc4217897832d53eaed2446),
    (0xa6a6a6a6a6a6a6a63031323334353637, 0x2581fcc306bfebe6f366082464c039ce),
    (0x2581fcc306bfebe738393a3b3c3d3e3f, 0xbc6591e6d4d21e86d4086a02ecf6b260),
    (0xbc6591e6d4d21e84f366082464c039ce, 0x3e59482897be9a54617fe4487cbdc3d4),
    (0x3e59482897be9a57d4086a02ecf6b260, 0x41f3824ea52c804701d5a1a93ae9daae),
    (0x41f3824ea52c8043617fe4487cbdc3d4, 0xf0f12a98d2ba903e5b5a7e99a47dcaf3),
    (0xf0f12a98d2ba903b01d5a1a93ae9daae, 0x193758c210bf7534a7a047efa277f2b2),
    (0x193758c210bf75325b5a7e99a47dcaf3, 0x44e0f6946c65eecb5f45e053aa66c071),
    (0x44e0f6946c65eecca7a047efa277f2b2, 0x3c5c2251953c87ca680d0aa16f3aa7b2),
    (0x3c5c2251953c87c25f45e053aa66c071, 0x455b3e59591cd73eed941075cf0d76dd),
    (0x455b3e59591cd737680d0aa16f3aa7b2, 0x99f72c9138ee3ea04322f58b3f32eb1e),
    (0x99f72c9138ee3eaaed941075cf0d76dd, 0xc95a72badfee5fcc2bbb4eb27f3199f3),
    (0xc95a72badfee5fc74322f58b3f32eb1e, 0x96b6b8eb308e1ae08989b4227e7935dd)]

/-- The counter blocks of the packets 1 to 4 under the even SEK. -/
def evenTable : List (Nat × Nat) := [
    (0x000102030405060708090a0b0c0c0000, 0xde54f1f4aadfbe77b0577455af0ab6e8),
    (0x000102030405060708090a0b0c0f0000, 0x64a318b7086cf0a09952375d653a08f8),
    (0x000102030405060708090a0b0c0e0000, 0xd8a8220ccf84b10fc822f8f4e4f99fa3),
    (0x000102030405060708090a0b0c090000, 0xb8954e85ba36cc033a7e403d4be7b72d)]

/-- The counter blocks of the packets 1 to 4 under the new SEK. -/
def newTable : List (Nat × Nat) := [
    (0x000102030405060708090a0b0c0c0000, 0x6b7bd7d353dc2c4c9f3986b69ea573c3),
    (0x000102030405060708090a0b0c0f0000, 0x57f9bd0d209ef11f57c53e794caf0f43),
    (0x000102030405060708090a0b0c0e0000, 0x7ce4ab438d1cc0a3068b0cdcbde871b0),
    (0x000102030405060708090a0b0c090000, 0xc8b0f5aa617e31081486406ed61db0b7)]

def table (key : Bytes) : List (Nat × Nat) :=
  if key = kek then wrapTable
  else if key = evenSEK then evenTable
  else if key = newSEK then newTable
  else []

/-- The exchanges are among numbers of sixteen bytes. -/
theorem table_lt (key : Bytes) : ∀ e ∈ table key, e.1 < 2 ^ (8 * 16) ∧ e.2 < 2 ^ (8 * 16) := by
  unfold table
  repeat' split
  all_goals decide +kernel

/-- Primitives that agree with AES and PBKDF2 on the sample values. -/
def primitives : Primitives where
  aesEncrypt key block := bytesOfNat 16 (forth (table key) (natOfBytes block))
  aesDecrypt key block := bytesOfNat 16 (back (table key) (natOfBytes block))
  pbkdf2 _ _ keyLength := some (List.takeD keyLength kek 0)
  md5 _ := bytesOfNat 16 0xba1f72aced18dd8e1115b1f12aaf98c7
  length_aesEncrypt _ _ _ := length_bytesOfNat 16 _
  aesDecrypt_aesEncrypt := by
    intro key block hlen
    have hround := bytesOfNat_natOfBytes block
    have hlt : natOfBytes block < 2 ^ (8 * 16) := by
      rw [← hround, hlen, natOfBytes_bytesOfNat]
      exact Nat.mod_lt _ (by decide)
    rw [natOfBytes_bytesOfNat, Nat.mod_eq_of_lt (forth_lt (table_lt key) hlt), back_forth, ← hlen]
    exact hround
  length_pbkdf2 := by
    intro passphrase salt keyLength kek h
    cases h
    exact List.takeD_length _ _ _

def crypto : Crypto where
  salt := salt
  keyLength := 16
  evenSEK := evenSEK
  oddSEK := oddSEK
  length_salt := length_bytesOfNat 16 _
  validKeyLength_keyLength := rfl
  length_evenSEK := length_bytesOfNat 16 _
  length_oddSEK := length_bytesOfNat 16 _

end Sample

end Gosrt
