import Gosrt.Spec.Packet

/-!
# `Gosrt.Spec.Rand`: random numbers (`rand/rand.go`)

The package reads its bytes from `crypto/rand`. Here the results of these reads are a list that is
given in advance, one entry for each read of eight bytes. `Int63n` reads until it accepts a number,
so it may want more reads than the list has. This is an outcome of its own.
-/

set_option autoImplicit false

namespace Gosrt.Rand

/-- One call of `rand.Read` on eight bytes. `none` is its error. -/
abbrev Draw := Option (Vector UInt8 8)

/-- Why a function has no result. -/
inductive Stop where
  /-- The error of `rand.Read`, which the callers pass on. -/
  | failed
  /-- The function goes on with a read that is not in the list. -/
  | waiting
  deriving DecidableEq, Repr

/-- A function that takes its reads from the front of a list. -/
abbrev Sampler := StateT (List Draw) (Except Stop)

/-- `rand.Read` into `[8]byte`. -/
def read : Sampler (Vector UInt8 8)
  | [] => .error .waiting
  | none :: _ => .error .failed
  | some b :: rest => .ok (b, rest)

/-- The number that `Int63` makes of its bytes. -/
def int63OfBytes (b : Vector UInt8 8) : Int64 :=
  ((b[0] &&& 0b01111111).toUInt64 <<< 56 ||| b[1].toUInt64 <<< 48 ||| b[2].toUInt64 <<< 40 |||
    b[3].toUInt64 <<< 32 ||| b[4].toUInt64 <<< 24 ||| b[5].toUInt64 <<< 16 |||
    b[6].toUInt64 <<< 8 ||| b[7].toUInt64).toInt64

/-- `Int63`. -/
def int63 : Sampler Int64 := do
  let b ← read
  return int63OfBytes b

/-- The variable `max` of `Int63n`. -/
def int63nMax (n : Int64) : Int64 :=
  let top : UInt64 := (1 : UInt64) <<< (63 : UInt64)
  (top - 1 - top % n.toUInt64).toInt64

/-- The loop of `Int63n` with the number that was read last. -/
def redraw (max v : Int64) : Sampler Int64
  | [] => if v > max then .error .waiting else .ok (v, [])
  | none :: rest => if v > max then .error .failed else .ok (v, none :: rest)
  | some b :: rest => if v > max then redraw max (int63OfBytes b) rest else .ok (v, some b :: rest)

/-- `Int63n`. -/
def int63n (n : Int64) : Sampler Int64 := do
  -- `n` is a power of two: the mask is the remainder.
  if n &&& (n - 1) = 0 then
    let r ← int63
    return r &&& (n - 1)
  else
    let v ← int63
    let v ← redraw (int63nMax n) v
    return v % n

/-- `AlphaNumericCharset`, from which `NewSYNCookie` draws its secrets. -/
def alphaNumericCharset : Bytes :=
  "abcdefghijklmnopqrstuvwxyzABCDEFGHIJKLMNOPQRSTUVWXYZ0123456789".toUTF8.data.toList

end Gosrt.Rand
