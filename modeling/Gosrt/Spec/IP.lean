import Gosrt.Spec.Packet

/-!
# `Gosrt.Spec.IP`: the address in a handshake (`net/ip.go`)

`srtnet.IP` wraps a `net.IP`: nil, four bytes, or sixteen bytes. Nothing in the source makes
a slice of another length, and `Marshal` would panic on one, so the length is a field of the
structure. On the wire the address is 16 bytes in host byte order, and an IPv4 address has
its four bytes first.
-/

set_option autoImplicit false

namespace Gosrt

/-- `srtnet.IP`. The empty slice is Go's `nil`. -/
structure IP where
  ip : Bytes
  length_eq : ip.length = 0 ∨ ip.length = 4 ∨ ip.length = 16
  deriving DecidableEq, Repr

namespace IP

/-- The zero value. -/
def nil : IP := ⟨[], Or.inl rfl⟩

instance : Inhabited IP := ⟨nil⟩

/-- The bytes in front of an IPv4 address in its 16-byte form. -/
def v4InV6Prefix : Bytes := [0, 0, 0, 0, 0, 0, 0, 0, 0, 0, 0xFF, 0xFF]

/-- `net.IPv4`. -/
def ipv4 (a b c d : UInt8) : IP := ⟨v4InV6Prefix ++ [a, b, c, d], Or.inr (Or.inr rfl)⟩

/-- `setDefault`. -/
def setDefault : IP := ipv4 127 0 0 1

/-- `net.IP.IsUnspecified`. -/
def isUnspecified (i : IP) : Bool :=
  i.ip == [0, 0, 0, 0] || i.ip == v4InV6Prefix ++ [0, 0, 0, 0] || i.ip == List.replicate 16 0

/-- `isValid`. A `net.IP` prints as `<nil>` only when it is empty. -/
def isValid (i : IP) : Bool := !(i.ip.isEmpty || i.isUnspecified)

/-- `Unmarshal`. `none` is the returned error, on which the address stays as it is. For a
16-byte address that is not IPv4 the source prints eight groups and parses them again,
which gives the bytes in reverse order. -/
def unmarshal (data : Bytes) : Option IP :=
  let check (i : IP) : IP := if i.isValid then i else setDefault
  if h4 : data.length = 4 then
    some (check ⟨v4InV6Prefix ++ data.reverse, by simp [v4InV6Prefix, h4]⟩)
  else if h16 : data.length = 16 then
    if data.drop 4 = List.replicate 12 0 then
      some (check ⟨v4InV6Prefix ++ (data.take 4).reverse, by simp [v4InV6Prefix, h16]⟩)
    else some (check ⟨data.reverse, by simp [h16]⟩)
  else none

/-- The 16 bytes of an address, once `Marshal` has replaced an invalid one. -/
def to16 (i : IP) : Bytes :=
  let i := if i.isValid then i else setDefault
  if i.ip.length = 4 then v4InV6Prefix ++ i.ip else i.ip

/-- `Marshal` into 16 bytes. -/
def marshal (i : IP) : Bytes :=
  if i.to16.take 12 = v4InV6Prefix then (i.to16.drop 12).reverse ++ List.replicate 12 0
  else i.to16.reverse

end IP

end Gosrt
