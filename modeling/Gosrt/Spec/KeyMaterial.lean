import Gosrt.Lib.Bytes
import Gosrt.Lib.Go
import Gosrt.Spec.Packet

/-!
# `Gosrt.Spec.KeyMaterial`: key material messages (`packet/packet.go`)

`CIFKeyMaterialExtension` is the body of a key material request or response, and an
extension of the handshake. `unmarshal` works on the receiver `c`, as the method does: a
field that it does not assign keeps its value. Each read of the input is a read that can
panic, so the length checks of the source are all that keeps it safe.
-/

set_option autoImplicit false

namespace Gosrt

open Lib

namespace PacketEncryption

/-- The value of the two bits. -/
def val : PacketEncryption → UInt8
  | .unencryptedPacket => 0
  | .evenKeyEncrypted => 1
  | .oddKeyEncrypted => 2
  | .evenAndOddKey => 3

/-- `PacketEncryption(x & 0b11)`. -/
def ofBits (x : UInt8) : PacketEncryption :=
  if x &&& 3 = 0 then .unencryptedPacket
  else if x &&& 3 = 1 then .evenKeyEncrypted
  else if x &&& 3 = 2 then .oddKeyEncrypted
  else .evenAndOddKey

/-- How many keys are named: two when both are. -/
def keyCount (key : PacketEncryption) : Nat := if key = .evenAndOddKey then 2 else 1

end PacketEncryption

/-- `KM_NOSECRET`. -/
def kmNoSecret : UInt32 := 3

/-- `KM_BADSECRET`. -/
def kmBadSecret : UInt32 := 4

/-- Go's `%#08x` of a 16-bit value. -/
def hex08 (x : UInt16) : String :=
  let digits := Nat.toDigits 16 x.toNat
  "0x" ++ String.ofList (List.replicate (8 - digits.length) '0' ++ digits)

/-- `CIFKeyMaterialExtension`. -/
structure CIFKeyMaterialExtension where
  error : UInt32 := 0
  s : UInt8 := 0
  version : UInt8 := 0
  packetType : UInt8 := 0
  sign : UInt16 := 0
  resv1 : UInt8 := 0
  keyBasedEncryption : PacketEncryption := .unencryptedPacket
  keyEncryptionKeyIndex : UInt32 := 0
  cipher : UInt8 := 0
  authentication : UInt8 := 0
  streamEncapsulation : UInt8 := 0
  resv2 : UInt8 := 0
  resv3 : UInt16 := 0
  sLen : UInt16 := 0
  kLen : UInt16 := 0
  salt : Bytes := []
  wrap : Bytes := []
  deriving DecidableEq, Repr, Inhabited

namespace CIFKeyMaterialExtension

/-- The number of keys in the message. -/
def keyCount (c : CIFKeyMaterialExtension) : Nat := c.keyBasedEncryption.keyCount

/-- The end of `Unmarshal`: the wrapped keys from `offset` on. -/
def unmarshalWrap (c : CIFKeyMaterialExtension) (data : Bytes) (offset : Nat) :
    Go CIFKeyMaterialExtension := do
  let n := c.keyCount * c.kLen.toNat + 8
  let rest ← orPanic (sliceFrom data offset)
  if rest.length < n then Go.err "data too short to unmarshal"
  else return { c with wrap := rest.take n }

/-- The part of `Unmarshal` that reads the salt and the wrapped keys, after the fixed
fields. -/
def unmarshalKeys (c : CIFKeyMaterialExtension) (data : Bytes) : Go CIFKeyMaterialExtension := do
  if c.sLen ≠ 0 then
    if c.sLen ≠ 16 then Go.err "invalid salt length"
    else do
      let rest ← orPanic (sliceFrom data 16)
      if rest.length < 16 then Go.err "data too short to unmarshal"
      else unmarshalWrap { c with salt := rest.take 16 } data 32
  else unmarshalWrap c data 16

/-- `Unmarshal`. A message of four bytes is an error response; its code is little-endian. -/
def unmarshal (c : CIFKeyMaterialExtension) (data : Bytes) : Go CIFKeyMaterialExtension :=
  if data.length = 4 then do
    let error ← orPanic (uint32LE data 0)
    if error ≠ kmNoSecret ∧ error ≠ kmBadSecret then
      Go.err ("invalid error (" ++ toString error ++ ")")
    else return { c with error := error }
  else if data.length < 16 then Go.err "data too short to unmarshal"
  else do
    let b0 ← orPanic data[0]?
    let s := (b0 &&& 0x80) >>> (7 : UInt8)
    if s ≠ 0 then Go.err "invalid value for S" else
    let version := (b0 &&& 0x70) >>> (4 : UInt8)
    if version ≠ 1 then Go.err "invalid version" else
    let packetType := b0 &&& 0x0F
    if packetType ≠ 2 then
      Go.err ("invalid packet type (" ++ toString packetType ++ ")") else do
    let sign ← orPanic (uint16 data 1)
    if sign ≠ 0x2029 then Go.err ("invalid signature (" ++ hex08 sign ++ ")") else do
    let b3 ← orPanic data[3]?
    let keyBasedEncryption := PacketEncryption.ofBits b3
    if keyBasedEncryption = .unencryptedPacket then
      Go.err "invalid extension format (KK must not be 0)" else do
    let keki ← orPanic (uint32 data 4)
    if keki ≠ 0 then
      Go.err ("invalid key encryption key index (" ++ toString keki ++ ")") else do
    let cipher ← orPanic data[8]?
    let authentication ← orPanic data[9]?
    let streamEncapsulation ← orPanic data[10]?
    if streamEncapsulation ≠ 2 then
      Go.err ("invalid stream encapsulation (" ++ toString streamEncapsulation ++ ")") else do
    let resv2 ← orPanic data[11]?
    let resv3 ← orPanic (uint16 data 12)
    let b14 ← orPanic data[14]?
    let b15 ← orPanic data[15]?
    let kLen := b15.toUInt16 * 4
    if ¬(kLen = 16 ∨ kLen = 24 ∨ kLen = 32) then Go.err "invalid key length" else
    unmarshalKeys
      { c with
        s := s
        version := version
        packetType := packetType
        sign := sign
        resv1 := (b3 &&& 0xFC) >>> (2 : UInt8)
        keyBasedEncryption := keyBasedEncryption
        keyEncryptionKeyIndex := keki
        cipher := cipher
        authentication := authentication
        streamEncapsulation := streamEncapsulation
        resv2 := resv2
        resv3 := resv3
        sLen := b14.toUInt16 * 4
        kLen := kLen } data

/-- The 16 bytes of the fixed fields. -/
def marshalFixed (c : CIFKeyMaterialExtension) : Bytes :=
  let b0 : UInt8 :=
    (c.s <<< (7 : UInt8) &&& 0x80) ||| (c.version <<< (4 : UInt8) &&& 0x70) |||
      (c.packetType &&& 0x0F)
  let b3 : UInt8 := (c.resv1 <<< (2 : UInt8) &&& 0xFC) ||| (c.keyBasedEncryption.val &&& 3)
  b0 :: (be16 c.sign ++ b3 :: (be32 c.keyEncryptionKeyIndex ++ c.cipher :: c.authentication ::
    c.streamEncapsulation :: c.resv2 :: (be16 c.resv3 ++
      [(c.sLen / 4).toUInt8, (c.kLen / 4).toUInt8])))

/-- The bytes that `Marshal` writes. -/
def marshalData (c : CIFKeyMaterialExtension) : Bytes :=
  c.marshalFixed ++ ((if c.sLen ≠ 0 then c.salt else []) ++ c.wrap)

/-- `Marshal`. The source fills a buffer of 128 bytes and slices it at the end, which panics
when the message is longer. -/
def marshal (c : CIFKeyMaterialExtension) : Go Bytes :=
  if c.marshalData.length ≤ 128 then .ok c.marshalData else .error .panic

end CIFKeyMaterialExtension

end Gosrt
