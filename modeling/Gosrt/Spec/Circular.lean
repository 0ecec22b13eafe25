import Mathlib.Data.UInt

/-!
# `Gosrt.Spec.Circular`: circular numbers (`circular/circular.go`)

A `Number` is a `uint32` that wraps from `max` to `0`. Two numbers compare by their
distance: below `threshold = max / 2` the plain order holds, from it on the order turns
around. The fields are `UInt32`, so `a - b` wraps as Go's `uint32` does.
-/

set_option autoImplicit false

namespace Gosrt

/-- `circular.Number`. -/
structure Number where
  max : UInt32
  threshold : UInt32
  value : UInt32
  deriving DecidableEq, Repr, Inhabited

namespace Number

/-- `Number.Add`. -/
def add (a : Number) (b : UInt32) : Number :=
  let x := a.max - a.value
  if b ≤ x then { a with value := a.value + b }
  else { a with value := b - x - 1 }

/-- `circular.New`. -/
def new (x max : UInt32) : Number :=
  let c : Number := { value := 0, max := max, threshold := max / 2 }
  if x > max then c.add x
  else { c with value := x }

/-- `Number.Val`. -/
def val (a : Number) : UInt32 := a.value

/-- `Number.Equals`. -/
def equals (a b : Number) : Bool := a.value == b.value

/-- `Number.Distance`. -/
def distance (a b : Number) : UInt32 :=
  if a.equals b then 0
  else
    let d := if a.value > b.value then a.value - b.value else b.value - a.value
    if d ≥ a.threshold then a.max - d + 1 else d

/-- `Number.Lt`. -/
def lt (a b : Number) : Bool :=
  if a.equals b then false
  else
    let (d, altb) :=
      if a.value > b.value then (a.value - b.value, false) else (b.value - a.value, true)
    if d < a.threshold then altb else !altb

/-- `Number.Lte`. -/
def lte (a b : Number) : Bool :=
  if a.equals b then true else a.lt b

/-- `Number.Gt`. -/
def gt (a b : Number) : Bool :=
  if a.equals b then false
  else
    let (d, agtb) :=
      if a.value > b.value then (a.value - b.value, true) else (b.value - a.value, false)
    if d < a.threshold then agtb else !agtb

/-- `Number.Gte`. -/
def gte (a b : Number) : Bool :=
  if a.equals b then true else a.gt b

/-- `Number.Inc`. -/
def inc (a : Number) : Number :=
  if a.value == a.max then { a with value := 0 }
  else { a with value := a.value + 1 }

/-- `Number.Dec`. -/
def dec (a : Number) : Number :=
  if a.value == 0 then { a with value := a.max }
  else { a with value := a.value - 1 }

/-- `Number.Sub`. -/
def sub (a : Number) (b : UInt32) : Number :=
  if b ≤ a.value then { a with value := a.value - b }
  else { a with value := a.max - (b - a.value) + 1 }

end Number

end Gosrt
