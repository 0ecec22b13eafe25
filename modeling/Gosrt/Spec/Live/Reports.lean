import Gosrt.Spec.Live.Runs

/-!
# `Gosrt.Spec.Live.Reports`: what a live receiver reports

The receiver of `Gosrt.Spec.Live.Runs`, with a history of what it reports: the ranges that `Push`
gives to `sendNAK`, and the times at which acknowledgements were sent. `note` reads the state before
an event and adds to the history. The receiver does not see the history.

`MsBuf` is stored inside the loop of `periodicACK`, and a later round of the loop can overwrite it.
`msBufPackets` has the packets of all those rounds.
-/

set_option autoImplicit false

namespace Gosrt

/-! ### The values of `MsBuf` -/

namespace Receiver

/-- The packets with which the loop of `periodicACK` updates `MsBuf`, in order. The branches are
those of `ackLoop`. -/
def msBufPackets (now : UInt64) : Number → List Packet → List Packet
  | _, [] => []
  | ack, p :: rest =>
    if p.seq.lte ack then msBufPackets now ack rest
    else if p.header.pktTsbpdTime ≤ now then msBufPackets now p.seq rest
    else if p.seq.equals ack.inc then p :: msBufPackets now p.seq rest
    else []

/-- The packets with which `periodicACK` updates `MsBuf`: none where no acknowledgement is due. -/
def msBufUpdates (r : Receiver) (now : UInt64) : List Packet :=
  if (r.periodicACK now).2.isSome then msBufPackets now r.lastACKSequenceNumber r.packetList
  else []

/-- The value that is stored for a packet. -/
def msBufOf (r : Receiver) (p : Packet) : UInt64 :=
  (p.header.pktTsbpdTime - r.frontTsbpdTime) / 1000

/-- The greatest `PktTsbpdTime` in the buffer less the smallest one. -/
def bufferSpan (r : Receiver) : Nat :=
  let times := r.packetList.map (·.header.pktTsbpdTime.toNat)
  times.max?.getD 0 - times.min?.getD 0

end Receiver

namespace Receiving

/-- The time of the part of `Tick` that acknowledges. -/
def ackTime? : Event → Option UInt64
  | .tickACK now | .tick now => some now
  | _ => none

/-- Each value that the event stores in `MsBuf` is the difference of two times, and not more than
there is between the times in the buffer. So the statistics have such a value afterwards, or the
one from before. -/
def MsBufBounded (s : Receiving) (e : Event) : Prop :=
  (∀ now ∈ ackTime? e, ∀ p ∈ s.receiver.msBufUpdates now,
    (p.header.pktTsbpdTime - s.receiver.frontTsbpdTime).toNat + s.receiver.frontTsbpdTime.toNat
      = p.header.pktTsbpdTime.toNat ∧
    (s.receiver.msBufOf p).toNat ≤ s.receiver.bufferSpan / 1000) ∧
  ∀ s' ∈ s.step e,
    s'.receiver.statistics.msBuf = s.receiver.statistics.msBuf ∨
    s'.receiver.statistics.msBuf.toNat ≤ s.receiver.bufferSpan / 1000

/-- The times follow the numbers: a packet that is pushed is not due before a packet of the buffer
with a smaller number, and not after one with a greater number. -/
def InTimeOrder (s : Receiving) (e : Event) : Prop :=
  ∀ p ∈ pushed? e, ∀ q ∈ s.receiver.packetList,
    (q.seq.lt p.seq = true → q.header.pktTsbpdTime ≤ p.header.pktTsbpdTime) ∧
    (p.seq.lt q.seq = true → p.header.pktTsbpdTime ≤ q.header.pktTsbpdTime)

-- Decided over the one time and the one state after the event, not over all that there are.
instance (s : Receiving) (e : Event) : Decidable (s.MsBufBounded e) :=
  @instDecidableAnd _ _ (Option.decidableForallMem _) (Option.decidableForallMem _)

instance (s : Receiving) (e : Event) : Decidable (s.InTimeOrder e) :=
  Option.decidableForallMem _

end Receiving

/-! ### The history of the reports -/

/-- A receiver with the history of its reports. -/
structure Reporting where
  receiving : Receiving
  /-- The first and the last number of each range that `Push` gave to `sendNAK`. -/
  ranges : List (Number × Number)
  /-- The numbers whose arrival advanced `maxSeenSequenceNumber`. -/
  newest : List Number
  /-- The time of the last full acknowledgement, `0` if there was none. -/
  fullACK : UInt64
  /-- The times of the light acknowledgements since then. -/
  lightACKs : List UInt64
  deriving DecidableEq, Repr

namespace Reporting

open Receiving (Event ackTime?)

def init (config : ReceiveConfig) : Reporting where
  receiving := Receiving.init config
  ranges := []
  newest := []
  fullACK := 0
  lightACKs := []

/-- The range of a report with two numbers. -/
def range? : List Number → Option (Number × Number)
  | [lo, hi] => some (lo, hi)
  | _ => none

/-- What `Push` reports, and whether it advances the greatest number. -/
def notePush (s : Reporting) (p : Packet) : Reporting :=
  let out := s.receiving.receiver.push p
  { s with
    ranges := s.ranges ++ (out.2.bind range?).toList
    newest :=
      if out.1.maxSeenSequenceNumber = s.receiving.receiver.maxSeenSequenceNumber then s.newest
      else s.newest ++ [p.seq] }

/-- What `periodicACK` reports. -/
def noteACK (s : Reporting) (now : UInt64) : Reporting :=
  match (s.receiving.receiver.periodicACK now).2 with
  | none => s
  | some (_, true) => { s with lightACKs := s.lightACKs ++ [now] }
  | some (_, false) => { s with fullACK := now, lightACKs := [] }

/-- The history after an event. -/
def note (s : Reporting) : Event → Reporting
  | .push p => s.notePush p
  | .tickACK now | .tick now => s.noteACK now
  | .tickNAK _ | .tickDeliver _ | .tickRate _ => s

def step (s : Reporting) (e : Event) : Option Reporting := do
  let receiving ← s.receiving.step e
  return { s.note e with receiving := receiving }

/-- An event at which a full acknowledgement is due sends one. -/
def Punctual (s : Reporting) (e : Event) : Prop :=
  ∀ now ∈ ackTime? e,
    s.fullACK.toNat + s.receiving.receiver.periodicACKInterval.toNat ≤ now.toNat →
    (s.receiving.receiver.periodicACK now).2.map Prod.snd = some false

/-- When a full acknowledgement is due, the light ones since the last full one are older than the
interval, too. -/
def Undisturbed (s : Reporting) (e : Event) : Prop :=
  ∀ now ∈ ackTime? e,
    s.fullACK.toNat + s.receiving.receiver.periodicACKInterval.toNat ≤ now.toNat →
    ∀ t ∈ s.lightACKs, t.toNat + s.receiving.receiver.periodicACKInterval.toNat ≤ now.toNat

instance (s : Reporting) (e : Event) : Decidable (s.Punctual e) := Option.decidableForallMem _

instance (s : Reporting) (e : Event) : Decidable (s.Undisturbed e) :=
  have (bound : Nat) : Decidable (∀ t ∈ s.lightACKs,
      t.toNat + s.receiving.receiver.periodicACKInterval.toNat ≤ bound) := List.decidableBAll _ _
  Option.decidableForallMem _

end Reporting

end Gosrt
