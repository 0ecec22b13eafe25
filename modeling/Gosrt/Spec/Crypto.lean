import Gosrt.Lib.Passes
import Gosrt.Spec.KeyMaterial

/-!
# `Gosrt.Spec.Crypto`: encryption and key material (`crypto/crypto.go`)

A `Crypto` holds the salt and the two stream encrypting keys (SEK) of a connection. The
lengths of its slices never change after `New`, so they are fields of the structure. The
length checks of the source on its own salt and keys are therefore left out.

AES and PBKDF2 come from the Go library and are parameters, with what their documentation
says as fields of `Primitives`. The vendored key wrap (`aes/keywrap`) is modelled over AES.
A step of `Wrap` takes the register `A` and a block `R[i]` through AES, so wrapping is six
forward passes over the blocks and unwrapping is six backward passes.

The random generator is an input: each draw of the source is an `Entropy`.
-/

set_option autoImplicit false

namespace Gosrt

open Lib

/-- The library functions that the source builds on. -/
structure Primitives where
  /-- `cipher.Block.Encrypt` of AES for a key and a block of 16 bytes. -/
  aesEncrypt : Bytes → Bytes → Bytes
  /-- `cipher.Block.Decrypt`. -/
  aesDecrypt : Bytes → Bytes → Bytes
  /-- `pbkdf2.Key(sha1.New, passphrase, salt, 2048, keyLength)`. `none` is its error. -/
  pbkdf2 : Bytes → Bytes → Nat → Option Bytes
  /-- `md5.Sum`. -/
  md5 : Bytes → Bytes
  length_aesEncrypt : ∀ key block : Bytes, block.length = 16 → (aesEncrypt key block).length = 16
  aesDecrypt_aesEncrypt : ∀ key block : Bytes, block.length = 16 →
    aesDecrypt key (aesEncrypt key block) = block
  length_pbkdf2 : ∀ passphrase salt keyLength kek, pbkdf2 passphrase salt keyLength = some kek →
    kek.length = keyLength

/-- The key lengths of AES. -/
def validKeyLength (n : Nat) : Bool := n == 16 || n == 24 || n == 32

/-- The key derivation works for this passphrase with each key length of AES. Its
documentation knows two errors: a length outside `1..(2^32-1)*h.Length`, which the lengths 16,
24 and 32 are not, and the rules of the FIPS mode, in which the library is not run here. -/
def Primitives.Derives (prim : Primitives) (passphrase : Bytes) : Prop :=
  ∀ salt keyLength, validKeyLength keyLength = true →
    ∃ kek, prim.pbkdf2 passphrase salt keyLength = some kek

/-! ### Key wrap -/

namespace Keywrap

/-- One step of `Wrap`: `B = AES(K, A | R[i])`, `A = MSB(64, B) ^ t`, `R[i] = LSB(64, B)`. -/
def wrapStep (prim : Primitives) (key : Bytes) (t : Nat) (a r : Bytes) : Bytes × Bytes :=
  let b := prim.aesEncrypt key (a ++ r)
  (xorBytes (b.take 8) (be64 (UInt64.ofNat t)), b.drop 8)

/-- One step of `Unwrap`: `B = AES-1(K, (A ^ t) | R[i])`, `A = MSB(64, B)`,
`R[i] = LSB(64, B)`. -/
def unwrapStep (prim : Primitives) (key : Bytes) (t : Nat) (a r : Bytes) : Bytes × Bytes :=
  let b := prim.aesDecrypt key (xorBytes a (be64 (UInt64.ofNat t)) ++ r)
  (b.take 8, b.drop 8)

/-- The initial value of the register. -/
def initialValue : Bytes := List.replicate 8 0xA6

/-- `keywrap.Wrap`. -/
def wrap (prim : Primitives) (key plainText : Bytes) : Go Bytes :=
  if plainText.length % 8 ≠ 0 then
    Go.err "keywrap: plainText must be a multiple of 64 bits"
  else if !validKeyLength key.length then Go.err "keywrap: invalid AES key"
  else
    let nblocks := plainText.length / 8
    let (a, rs) := forwardRounds (wrapStep prim key) nblocks 6
      (initialValue, blocks 8 nblocks plainText)
    .ok (a ++ rs.flatten)

/-- `keywrap.Unwrap`. The empty text passes the first check and panics at `cipherText[:8]`. -/
def unwrap (prim : Primitives) (key cipherText : Bytes) : Go Bytes :=
  if cipherText.length % 8 ≠ 0 then
    Go.err "keywrap: cipherText must by a multiple of 64 bits"
  else if !validKeyLength key.length then Go.err "keywrap: invalid AES key"
  else if cipherText.length < 8 then .error .panic
  else
    let nblocks := cipherText.length / 8 - 1
    let (a, rs) := backwardRounds (unwrapStep prim key) nblocks 6
      (cipherText.take 8, blocks 8 nblocks (cipherText.drop 8))
    if a ≠ initialValue then Go.err "keywrap: failed to unwrap key"
    else .ok rs.flatten

end Keywrap

/-! ### The context -/

/-- The outcome of one draw from the random generator. `none` is an error. A draw is cut or
filled up to the length that is asked for. -/
abbrev Entropy := Option Bytes

/-- The draws of `New`. -/
structure Draws where
  salt : Entropy
  even : Entropy
  odd : Entropy
  deriving DecidableEq, Repr

/-- `crypto`. -/
structure Crypto where
  salt : Bytes
  keyLength : Nat
  evenSEK : Bytes
  oddSEK : Bytes
  length_salt : salt.length = 16
  validKeyLength_keyLength : validKeyLength keyLength = true
  length_evenSEK : evenSEK.length = keyLength
  length_oddSEK : oddSEK.length = keyLength
  deriving DecidableEq, Repr

namespace Crypto

/-- `n` random bytes. -/
def draw (n : Nat) (bytes : Bytes) : Bytes := List.takeD n bytes 0

@[simp] theorem length_draw (n : Nat) (bytes : Bytes) : (draw n bytes).length = n :=
  List.takeD_length n bytes 0

/-- `New`. It draws the salt and the two keys. -/
def new (keyLength : Int) (salt even odd : Entropy) : Go Crypto :=
  if h : validKeyLength keyLength.toNat = true then
    match salt, even, odd with
    | none, _, _ => Go.err "crypto: can't generate salt"
    | some _, none, _ | some _, some _, none => Go.err "crypto: can't generate SEK"
    | some salt, some even, some odd =>
      .ok {
        salt := draw 16 salt
        keyLength := keyLength.toNat
        evenSEK := draw keyLength.toNat even
        oddSEK := draw keyLength.toNat odd
        length_salt := length_draw _ _
        validKeyLength_keyLength := h
        length_evenSEK := length_draw _ _
        length_oddSEK := length_draw _ _ }
  else Go.err "crypto: invalid key size, must be either 16, 24, or 32"

/-- The key that is named. `none` for anything but one of the two. -/
def sek (c : Crypto) : PacketEncryption → Option Bytes
  | .evenKeyEncrypted => some c.evenSEK
  | .oddKeyEncrypted => some c.oddSEK
  | _ => none

/-- `GenerateSEK`. An error of the generator leaves the keys alone. -/
def generateSEK (c : Crypto) (key : PacketEncryption) (random : Entropy) : Crypto :=
  match random, key with
  | some sek, .evenKeyEncrypted =>
    { c with evenSEK := draw c.keyLength sek, length_evenSEK := length_draw _ _ }
  | some sek, .oddKeyEncrypted =>
    { c with oddSEK := draw c.keyLength sek, length_oddSEK := length_draw _ _ }
  | _, _ => c

/-- `calculateKEK`. -/
def calculateKEK (prim : Primitives) (passphrase salt : Bytes) (keyLength : Nat) : Option Bytes :=
  prim.pbkdf2 passphrase (salt.drop 8) keyLength

/-- `copy(c.salt, salt)`. -/
def copySalt (c : Crypto) (salt : Bytes) : Crypto :=
  { c with
    salt := copyBytes c.salt salt
    length_salt := by rw [length_copyBytes]; exact c.length_salt }

/-- `copy(c.evenSEK, sek)`. -/
def copyEvenSEK (c : Crypto) (sek : Bytes) : Crypto :=
  { c with
    evenSEK := copyBytes c.evenSEK sek
    length_evenSEK := by rw [length_copyBytes]; exact c.length_evenSEK }

/-- `copy(c.oddSEK, sek)`. -/
def copyOddSEK (c : Crypto) (sek : Bytes) : Crypto :=
  { c with
    oddSEK := copyBytes c.oddSEK sek
    length_oddSEK := by rw [length_copyBytes]; exact c.length_oddSEK }

/-- The keys of an unwrapped message. -/
def copyKeys (c : Crypto) (key : PacketEncryption) (unwrap : Bytes) : Crypto :=
  match key with
  | .evenKeyEncrypted => c.copyEvenSEK unwrap
  | .oddKeyEncrypted => c.copyOddSEK unwrap
  | _ => (c.copyEvenSEK (unwrap.take c.keyLength)).copyOddSEK (unwrap.drop c.keyLength)

/-- `UnmarshalKM`: the context afterwards, and the returned error. The salt of the message is
copied before the keys are unwrapped, so an error can leave a new salt behind. -/
def unmarshalKM (prim : Primitives) (c : Crypto) (km : CIFKeyMaterialExtension)
    (passphrase : Bytes) : Crypto × Go Unit :=
  if km.keyBasedEncryption = .unencryptedPacket then
    (c, Go.err "crypto: invalid key for encryption. Must be even, odd, or both")
  else
    let wrapLength := km.keyCount * c.keyLength
    if km.wrap.length ≠ wrapLength + 8 then
      (c, Go.err "crypto: the un/wrapped key has the wrong length")
    else
      let c := if km.salt.isEmpty then c else c.copySalt km.salt
      match calculateKEK prim passphrase c.salt c.keyLength with
      | none => (c, Go.err "pbkdf2")
      | some kek =>
        match Keywrap.unwrap prim kek km.wrap with
        | .error e => (c, .error e)
        | .ok unwrap =>
          if unwrap.length ≠ wrapLength then
            (c, Go.err "crypto: the un/wrapped key has the wrong length")
          else (c.copyKeys km.keyBasedEncryption unwrap, .ok ())

/-- The keys that a message for `key` carries. -/
def plainKeys (c : Crypto) : PacketEncryption → Bytes
  | .evenKeyEncrypted => c.evenSEK
  | .oddKeyEncrypted => c.oddSEK
  | _ => c.evenSEK ++ c.oddSEK

/-- The fields that `MarshalKM` sets before it wraps the keys. -/
def marshalKMFields (c : Crypto) (km : CIFKeyMaterialExtension) (key : PacketEncryption) :
    CIFKeyMaterialExtension :=
  { km with
    s := 0
    version := 1
    packetType := 2
    sign := 0x2029
    keyBasedEncryption := key
    keyEncryptionKeyIndex := 0
    cipher := 2
    authentication := 0
    streamEncapsulation := 2
    sLen := 16
    kLen := UInt16.ofNat c.keyLength
    salt := c.salt }

/-- `MarshalKM`: the message afterwards, and the returned error. -/
def marshalKM (prim : Primitives) (c : Crypto) (km : CIFKeyMaterialExtension)
    (passphrase : Bytes) (key : PacketEncryption) : CIFKeyMaterialExtension × Go Unit :=
  if key = .unencryptedPacket then
    (km, Go.err "crypto: invalid key for encryption. Must be even, odd, or both")
  else
    let km := c.marshalKMFields km key
    match calculateKEK prim passphrase c.salt c.keyLength with
    | none => (km, Go.err "pbkdf2")
    | some kek =>
      match Keywrap.wrap prim kek (c.plainKeys key) with
      | .error e => (km, .error e)
      | .ok wrap => ({ km with wrap := wrap }, .ok ())

/-! ### Payloads -/

/-- The key stream of AES in counter mode: block `i` is the encryption of `iv + i`. -/
def keyStream (prim : Primitives) (key iv : Bytes) (n : Nat) : Bytes :=
  ((List.range ((n + 15) / 16)).flatMap fun i =>
    prim.aesEncrypt key (bytesOfNat 16 (natOfBytes iv + i))).take n

/-- The counter block of a packet: the salt, with the sequence number at bytes 10 to 13, and
a zero block counter. -/
def counterBlock (salt : Bytes) (packetSequenceNumber : UInt32) : Bytes :=
  xorBytes (List.replicate 10 0 ++ be32 packetSequenceNumber) (salt.take 14) ++ [0, 0]

/-- The payload under a key. Encryption and decryption are the same operation. -/
def crypt (prim : Primitives) (salt sek : Bytes) (packetSequenceNumber : UInt32)
    (data : Bytes) : Bytes :=
  xorBytes data (keyStream prim sek (counterBlock salt packetSequenceNumber) data.length)

/-- `EncryptOrDecryptPayload`. -/
def encryptOrDecryptPayload (prim : Primitives) (c : Crypto) (data : Bytes)
    (key : PacketEncryption) (packetSequenceNumber : UInt32) : Go Bytes :=
  match c.sek key with
  | none => Go.err "crypto: invalid SEK selected. Must be either even or odd"
  | some sek => .ok (crypt prim c.salt sek packetSequenceNumber data)

end Crypto

end Gosrt
