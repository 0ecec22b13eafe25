import Gosrt.Lib.Bytes
import Gosrt.Spec.IP

/-!
# `Gosrt.Spec.Address`: `IP.Unmarshal` through the text of an address (`net/ip.go`)

`Unmarshal` gets an address that is not IPv4 by way of its text: it prints the eight groups of an
IPv6 address with all of their digits and gives the text to `net.ParseIP`. `unmarshalText` is this
function, step by step. `IP.unmarshal` is what it comes to.

`net.ParseIP` is a parameter with the one law that its documentation gives for such a text.
-/

set_option autoImplicit false

namespace Gosrt

open Lib

/-- `%04x` of a number below `2^16`. -/
def fmt04x (n : Nat) : String :=
  String.ofList [(n / 4096 % 16).digitChar, (n / 256 % 16).digitChar, (n / 16 % 16).digitChar,
    (n % 16).digitChar]

/-- An IPv6 address with all groups and all digits. -/
def addressText : List Nat → String
  | [] => ""
  | [group] => fmt04x group
  | group :: groups => fmt04x group ++ ":" ++ addressText groups

/-- `net.ParseIP`, on the text of a fully written IPv6 address. -/
structure AddressParser where
  parseIP : String → Option IP
  /-- The result has the two bytes of each group in the order of the text. -/
  parseIP_full : ∀ groups : List UInt16, groups.length = 8 →
    (parseIP (addressText (groups.map UInt16.toNat))).map IP.ip = some (groups.flatMap be16)

namespace IP

/-- `net.IPv4` of the four bytes of a word. -/
def ipv4OfWord (w : UInt32) : IP :=
  ipv4 ((w &&& 0xff000000) >>> 24).toUInt8 ((w &&& 0x00ff0000) >>> 16).toUInt8
    ((w &&& 0x0000ff00) >>> 8).toUInt8 (w &&& 0x0000ff).toUInt8

/-- The text that `Unmarshal` prints from four words. -/
def wordsText (ip0 ip1 ip2 ip3 : UInt32) : String :=
  addressText
    [((ip0 &&& 0xffff0000) >>> 16).toNat, (ip0 &&& 0x0000ffff).toNat,
      ((ip1 &&& 0xffff0000) >>> 16).toNat, (ip1 &&& 0x0000ffff).toNat,
      ((ip2 &&& 0xffff0000) >>> 16).toNat, (ip2 &&& 0x0000ffff).toNat,
      ((ip3 &&& 0xffff0000) >>> 16).toNat, (ip3 &&& 0x0000ffff).toNat]

/-- The address that `Unmarshal` reads from four bytes. -/
def read4 (data : Bytes) : Option IP := do
  let ip0 ← uint32LE data 0
  return ipv4OfWord ip0

/-- The address that `Unmarshal` reads from sixteen bytes. -/
def read16 (parser : AddressParser) (data : Bytes) : Option IP := do
  let ip3 ← uint32LE data 0
  let ip2 ← uint32LE data 4
  let ip1 ← uint32LE data 8
  let ip0 ← uint32LE data 12
  if ip0 == 0 && ip1 == 0 && ip2 == 0 then return ipv4OfWord ip3
  else parser.parseIP (wordsText ip0 ip1 ip2 ip3)

/-- `Unmarshal`. `none` is the returned error. -/
def unmarshalText (parser : AddressParser) (data : Bytes) : Option IP := do
  if data.length ≠ 4 ∧ data.length ≠ 16 then none
  else
    let i ← if data.length = 4 then read4 data else read16 parser data
    return if i.isValid then i else setDefault

/-- The address with 16 bytes: an IPv4 address in its mapped form. -/
def mapped (i : IP) : Bytes := if i.ip.length = 4 then v4InV6Prefix ++ i.ip else i.ip

/-- `net.IP.Equal`: an IPv4 address and its mapped form are the same address. -/
def Same (i j : IP) : Prop := i.mapped = j.mapped

instance (i j : IP) : Decidable (i.Same j) := inferInstanceAs (Decidable (_ = _))

/-- An IPv6 address in which only the last four bytes are not zero, such as `::1`. -/
def IsSparse (i : IP) : Prop := i.ip.length = 16 ∧ i.ip.take 12 = List.replicate 12 0

instance (i : IP) : Decidable i.IsSparse := inferInstanceAs (Decidable (_ ∧ _))

end IP

end Gosrt
