import Gosrt.Spec.Handle

/-!
# `Gosrt.Spec.AckNumbers`: the ACKs that wait for an answer (`connection.go`)

`sendACK` numbers the full ACKs and notes the time of each. An ACKACK brings the number back, which
gives a sample of the round trip time.

`Acking` is a connection that sends full ACKs and gets ACKACKs, with the history next to it: the
numbers that are outstanding in the order of their issue. An ACKACK for one of them settles it and
all that were issued before it. An ACKACK for another number settles nothing. `Bookkeeps` says that
the connection has the same in its map.
-/

set_option autoImplicit false

namespace Gosrt

open Lib

/-- A connection and its ACKs without an ACKACK. -/
structure Acking where
  connection : Connection
  /-- The numbers that are outstanding and the times of their ACKs, in nanoseconds. -/
  outstanding : List (UInt32 × Int)

namespace Acking

inductive Event where
  /-- A full ACK leaves. -/
  | sendACK (now : Int)
  /-- An ACKACK arrives. Its number is in the type specific field. -/
  | receive (p : Packet) (now : Int)
  deriving DecidableEq, Repr

def init (config : SrtConnConfig) : Acking := ⟨Connection.new config, []⟩

/-- The ACKs that were issued before the number `n`. -/
def before (n : UInt32) (outstanding : List (UInt32 × Int)) : List (UInt32 × Int) :=
  outstanding.takeWhile (·.1 != n)

/-- The ACKs that were issued after the number `n`. -/
def after (n : UInt32) (outstanding : List (UInt32 × Int)) : List (UInt32 × Int) :=
  (outstanding.dropWhile (·.1 != n)).tail

/-- The time at which the ACK with the number `n` was sent. -/
def sentAt (n : UInt32) (outstanding : List (UInt32 × Int)) : Option Int :=
  (outstanding.find? (·.1 == n)).map Prod.snd

/-- What is outstanding after an ACKACK with the number `n`. -/
def settle (n : UInt32) (outstanding : List (UInt32 × Int)) : List (UInt32 × Int) :=
  if n ∈ outstanding.map Prod.fst then after n outstanding else outstanding

/-- One event. -/
def step (s : Acking) : Event → Option Acking
  | .sendACK now =>
    some {
      connection := s.connection.noteACK now
      outstanding := s.outstanding ++ [(s.connection.nextACKNumber.val, now)] }
  | .receive p now =>
    some {
      connection := (s.connection.handleACKACK p now).1
      outstanding := settle p.header.typeSpecific s.outstanding }

/-- The samples of the round trip time. -/
def samples (outputs : List Output) : List Int :=
  outputs.filterMap fun
    | .recalculateRTT rtt => some rtt
    | _ => none

/-- The map of the connection has exactly the numbers that are outstanding. -/
def Tracks (s : Acking) : Prop :=
  ∀ number sent, s.connection.ackNumbers.lookup number = some sent ↔
    (number, sent) ∈ s.outstanding

/-- An ACKACK gives a sample exactly if its number is outstanding: the time since that ACK. -/
def SamplesRightly (s : Acking) : Event → Prop
  | .sendACK _ => True
  | .receive p now =>
    samples (s.connection.handleACKACK p now).2
      = ((sentAt p.header.typeSpecific s.outstanding).map (now - ·)).toList

/-- The step leaves the map right, and takes the right sample. -/
def Bookkeeps (s : Acking) (e : Event) : Prop :=
  (∀ s', step s e = some s' → s'.Tracks) ∧ s.SamplesRightly e

/-- The numbers compare in the order of their issue. An ACKACK for a number that is not outstanding
has one that is smaller than all that are. -/
def Compares (s : Acking) : Event → Prop
  | .sendACK _ => True
  | .receive p _ =>
    let n := p.header.typeSpecific
    if n ∈ s.outstanding.map Prod.fst then
      (∀ x ∈ before n s.outstanding, x.1 < n) ∧ ∀ x ∈ after n s.outstanding, n < x.1
    else ∀ x ∈ s.outstanding, n < x.1

instance (s : Acking) : (e : Event) → Decidable (s.Compares e)
  | .sendACK _ => isTrue trivial
  | .receive _ _ => by
    unfold Compares
    infer_instance

/-- Fewer than `2^31` ACKs are outstanding. -/
def Bounded (s : Acking) (_ : Event) : Prop := s.outstanding.length < 2 ^ 31

instance (s : Acking) (e : Event) : Decidable (s.Bounded e) :=
  inferInstanceAs (Decidable (_ < _))

end Acking

end Gosrt
