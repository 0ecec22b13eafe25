import Mathlib.Data.List.AList
import Gosrt.Lib.Run
import Gosrt.Spec.Connection
import Gosrt.Spec.Handshake
import Gosrt.Spec.Wire

/-!
# `Gosrt.Spec.Handle`: received packets (`connection.go`)

`handlePacket` gives each control packet to its handler. A data packet gets the time at which
it is due, is decrypted, and goes to the congestion control.

`Connection` is the part of `srtConn` that this needs: the part that sends (`SrtConn`), the
state of the time base, the ACK numbers and the statistics. What a handler asks of another
component is an output: a packet for `onSend`, a packet for `recv.Push`, a call of the sender.
The results of a clock, of the random generator and of `getTimestampForPacket` are inputs.

Left out are the idle timer, the log, the number that is expected next (only the log uses it)
and the link capacity of the statistics.

`Timing` is a run of a connection, with the times that the packets got.
-/

set_option autoImplicit false

namespace Gosrt

open Lib

/-- `connStats`, less the counters that `SrtConn` has. -/
structure ConnStats where
  pktRecvACK : UInt64 := 0
  pktSentACKACK : UInt64 := 0
  pktRecvACKACK : UInt64 := 0
  pktRecvNAK : UInt64 := 0
  pktRecvUndecrypt : UInt64 := 0
  byteRecvUndecrypt : UInt64 := 0
  pktSentKeepalive : UInt64 := 0
  pktRecvKeepalive : UInt64 := 0
  pktRecvShutdown : UInt64 := 0
  deriving DecidableEq, Repr

/-- The part of `srtConn` that `handlePacket` uses. -/
structure Connection where
  conn : SrtConn
  tsbpdWrapPeriod : Bool
  tsbpdTimeBaseOffset : UInt64
  tsbpdDrift : UInt64
  nextACKNumber : Number
  /-- When each ACK that is not answered was sent, in nanoseconds. -/
  ackNumbers : AList fun _ : UInt32 => Int
  statistics : ConnStats

/-- What `handlePacket` asks of the other components. -/
inductive Output where
  /-- `onSend`. -/
  | send (p : Packet)
  /-- `recv.Push`. -/
  | push (p : Packet)
  /-- `snd.ACK`. -/
  | ack (sequenceNumber : Number)
  /-- `snd.NAK`. -/
  | nak (sequenceNumbers : List Number)
  /-- `rtt.Recalculate`, in nanoseconds. -/
  | recalculateRTT (rtt : Int)
  /-- `recv.SetNAKInterval`. -/
  | setNAKInterval
  /-- `snd.SetDropThreshold`. -/
  | setDropThreshold (dropThreshold : UInt64)
  | stopHSRequests
  | effect (e : SrtConn.Effect)
  deriving DecidableEq, Repr

/-- The inputs of `handlePacket` besides the packet. -/
structure HandleInputs where
  /-- `getTimestampForPacket`. -/
  timestamp : UInt32
  /-- `time.Now`, in nanoseconds. -/
  now : Int
  draws : Draws
  deriving DecidableEq, Repr

namespace SrtConn

/-- The packet cannot be decoded. -/
def countInvalid (c : SrtConn) : SrtConn := { c with pktRecvInvalid := c.pktRecvInvalid + 1 }

/-- The packet with another subtype. -/
def withSubType (p : Packet) (subType : CtrlSubType) : Packet :=
  { p with header := { p.header with subType := subType } }

/-! ### Version 4 extensions -/

/-- What both handlers of the version 4 extension refuse. The side of the peer decides which of
the two `TSBPD` flags it has to set. -/
def refusesHS (tsbpd : Bool) (cif : CIFHandshakeExtension) : Bool :=
  cif.srtVersion < 0x010200 || cif.srtVersion ≥ 0x010300 || !tsbpd ||
    !cif.srtFlags.tlpktdrop || !cif.srtFlags.crypt || !cif.srtFlags.rexmitflg ||
    cif.srtFlags.stream || cif.srtFlags.packetFilter

/-- `handleHSRequest`. It does not look at the version of the connection. -/
def handleHSRequest (c : SrtConn) (p : Packet) : Go (SrtConn × List Output) := do
  match ← (CIFHandshakeExtension.unmarshal p.payload).attempt with
  | none => return (c.countInvalid, [])
  | some cif =>
    if refusesHS cif.srtFlags.tsbpdsnd cif then return (c, [.effect .close])
    else
      -- This end is the receiver, so only the delay of this direction is settled.
      let recvTsbpdDelay := max cif.sendTSBPDDelay c.config.receiverLatency.ms16
      let c := { c with tsbpdDelay := recvTsbpdDelay.toUInt64 * 1000 }
      let answer : CIFHandshakeExtension :=
        { cif with
          srtFlags := { cif.srtFlags with tsbpdsnd := false, tsbpdrcv := true, periodicnak := true }
          recvTSBPDDelay := 0
          sendTSBPDDelay := recvTsbpdDelay }
      return (c, [.send (c.address { withSubType p .hsrsp with payload := answer.marshal })])

/-- The threshold that `handleHSResponse` sets. The product of a 16 bit number and 1.25 is exact
as a `float64`. -/
def hsDropThreshold (c : SrtConn) (sendTsbpdDelay : UInt16) : UInt64 :=
  max (sendTsbpdDelay.toUInt64 * 5 / 4 + c.config.sendDropDelay.microseconds.toUInt64) 1000000
    + 20000

/-- `handleHSResponse`. -/
def handleHSResponse (c : SrtConn) (p : Packet) : Go (SrtConn × List Output) := do
  match ← (CIFHandshakeExtension.unmarshal p.payload).attempt with
  | none => return (c.countInvalid, [])
  | some cif =>
    -- A version 5 connection has settled its delays in the handshake.
    if c.version ≠ 4 then return (c, [])
    else if refusesHS cif.srtFlags.tsbpdrcv cif then return (c, [.effect .close])
    else
      let sendTsbpdDelay := max cif.sendTSBPDDelay c.config.peerLatency.ms16
      return (c, [.setDropThreshold (c.hsDropThreshold sendTsbpdDelay), .stopHSRequests])

/-! ### Key material -/

/-- A version 4 connection gets its crypto context with the first request. `none` is an error
of `crypto.New`. -/
def prepareCrypto (c : SrtConn) (cif : CIFKeyMaterialExtension) (draws : Draws) :
    Option SrtConn :=
  if c.version = 4 ∧ c.crypto = none then
    (Crypto.new cif.kLen.toNat draws.salt draws.even draws.odd).toOption.map fun crypto =>
      { c with
        keyBaseEncryption := cif.keyBasedEncryption.opposite
        crypto := some crypto }
  else some c

/-- `handleKMRequest`. -/
def handleKMRequest (prim : Primitives) (c : SrtConn) (p : Packet) (draws : Draws) :
    Go (SrtConn × List Output) := do
  let c := { c with pktRecvKM := c.pktRecvKM + 1 }
  match ← (unmarshalKMCIF p).attempt with
  | none => return (c.countInvalid, [])
  | some cif =>
    match c.prepareCrypto cif draws with
    | none => return (c, [.effect .close])
    | some c =>
      match c.crypto with
      | none => return (c, [])
      | some crypto =>
        -- The peer must not replace the key that is in use.
        if cif.keyBasedEncryption = c.keyBaseEncryption then return (c.countInvalid, [])
        else
          let (crypto, result) := crypto.unmarshalKM prim cif c.config.passphrase
          -- Also a failed `UnmarshalKM` can have changed the context.
          let c := { c with crypto := some crypto }
          match ← result.attempt with
          | none => return (c.countInvalid, [])
          | some () =>
            let c := { c with
              keyBaseEncryption := c.keyBaseEncryption.opposite
              pktSentKM := c.pktSentKM + 1 }
            return (c, [.send (c.address (withSubType p .kmrsp))])

end SrtConn

namespace Connection

/-- `newSRTConn`. -/
def new (config : SrtConnConfig) : Connection where
  conn := newSRTConn config
  tsbpdWrapPeriod := false
  tsbpdTimeBaseOffset := 0
  tsbpdDrift := 0
  nextACKNumber := Number.new 1 maxTimestamp
  ackNumbers := ∅
  statistics := {}

/-! ### Control packets -/

/-- `handleKeepAlive`. -/
def handleKeepAlive (c : Connection) (p : Packet) : Connection × List Output :=
  ({ c with statistics := { c.statistics with
      pktRecvKeepalive := c.statistics.pktRecvKeepalive + 1
      pktSentKeepalive := c.statistics.pktSentKeepalive + 1 } },
    [.send (c.conn.address p)])

/-- `handleShutdown`. -/
def handleShutdown (c : Connection) : Connection × List Output :=
  ({ c with statistics := { c.statistics with
      pktRecvShutdown := c.statistics.pktRecvShutdown + 1 } },
    [.effect .close])

/-- The packet of `sendACKACK`. -/
def ackackPacket (c : Connection) (ackSequence timestamp : UInt32) : Packet :=
  let p := newPacket c.conn.remoteAddr
  c.conn.address { p with header := { p.header with
    isControlPacket := true
    controlType := CtrlType.ackack
    timestamp := timestamp
    typeSpecific := ackSequence } }

/-- `handleACK`. Only a full ACK updates the RTT and is answered. -/
def handleACK (c : Connection) (p : Packet) (timestamp : UInt32) :
    Go (Connection × List Output) := do
  let c := { c with statistics := { c.statistics with
    pktRecvACK := c.statistics.pktRecvACK + 1 } }
  match ← (CIFACK.unmarshal p.payload).attempt with
  | none => return ({ c with conn := c.conn.countInvalid }, [])
  | some cif =>
    if cif.isLite || cif.isSmall then return (c, [.ack cif.lastACKPacketSequenceNumber])
    else
      return ({ c with statistics := { c.statistics with
          pktSentACKACK := c.statistics.pktSentACKACK + 1 } },
        [.ack cif.lastACKPacketSequenceNumber, .recalculateRTT (cif.rtt.toNat * 1000),
          .send (c.ackackPacket p.header.typeSpecific timestamp)])

/-- `handleNAK`. -/
def handleNAK (sort : SortSlice) (c : Connection) (p : Packet) : Go (Connection × List Output) := do
  let c := { c with statistics := { c.statistics with
    pktRecvNAK := c.statistics.pktRecvNAK + 1 } }
  match ← (CIFNAK.unmarshal sort p.payload).attempt with
  | none => return ({ c with conn := c.conn.countInvalid }, [])
  | some cif => return (c, [.nak cif.lostPacketSequenceNumber])

/-- The ACK numbers from `n` on. -/
def discardBelow (ackNumbers : AList fun _ : UInt32 => Int) (n : UInt32) :
    AList fun _ : UInt32 => Int :=
  (ackNumbers.keys.filter (· < n)).foldl (fun m i => m.erase i) ackNumbers

/-- `handleACKACK`. The ACK number is in the type specific field. -/
def handleACKACK (c : Connection) (p : Packet) (now : Int) : Connection × List Output :=
  let n := p.header.typeSpecific
  let c := { c with statistics := { c.statistics with
    pktRecvACKACK := c.statistics.pktRecvACKACK + 1 } }
  match c.ackNumbers.lookup n with
  | some sent =>
    ({ c with ackNumbers := discardBelow (c.ackNumbers.erase n) n },
      [.recalculateRTT (now - sent), .setNAKInterval])
  | none =>
    ({ c with conn := c.conn.countInvalid, ackNumbers := discardBelow c.ackNumbers n },
      [.setNAKInterval])

/-- The part of `sendACK` that notes the number and the time of a full ACK. The number 0 is left
out. -/
def noteACK (c : Connection) (now : Int) : Connection :=
  -- The number 0 is that of a light ACK.
  let next := c.nextACKNumber.inc
  { c with
    ackNumbers := c.ackNumbers.insert c.nextACKNumber.val now
    nextACKNumber := if next.val = 0 then next.inc else next }

/-- The result of a handler of `SrtConn`. -/
def lift (c : Connection) (x : Go (SrtConn × List Output)) : Go (Connection × List Output) := do
  let (conn, outputs) ← x
  return ({ c with conn := conn }, outputs)

/-- `handleKMResponse` has two effects outside the connection. -/
def handleKMResponse (c : Connection) (p : Packet) : Connection × List Output :=
  let (conn, effects) := c.conn.handleKMResponse p
  ({ c with conn := conn }, effects.map .effect)

/-- The user packets. -/
def handleUser (prim : Primitives) (c : Connection) (p : Packet) (draws : Draws) :
    Go (Connection × List Output) :=
  if p.header.subType = .hsreq then c.lift (c.conn.handleHSRequest p)
  else if p.header.subType = .hsrsp then c.lift (c.conn.handleHSResponse p)
  else if p.header.subType = .kmreq then c.lift (c.conn.handleKMRequest prim p draws)
  else if p.header.subType = .kmrsp then .ok (c.handleKMResponse p)
  else .ok (c, [])

/-- The control packets. -/
def handleControl (prim : Primitives) (sort : SortSlice) (c : Connection) (p : Packet)
    (i : HandleInputs) : Go (Connection × List Output) :=
  if p.header.controlType = .keepalive then .ok (c.handleKeepAlive p)
  else if p.header.controlType = .shutdown then .ok c.handleShutdown
  else if p.header.controlType = .nak then c.handleNAK sort p
  else if p.header.controlType = .ack then c.handleACK p i.timestamp
  else if p.header.controlType = .ackack then .ok (c.handleACKACK p i.now)
  else if p.header.controlType = .user then c.handleUser prim p i.draws
  else .ok (c, [])

/-! ### Data packets -/

/-- `2^32` in a `uint64`: `uint64(packet.MAX_TIMESTAMP) + 1`. -/
def wrapOffset : UInt64 := maxTimestamp.toUInt64 + 1

/-- The wrapping period begins in the last 30 seconds before the timestamp wraps. It ends with
a timestamp between 30 and 60 seconds, which moves the time base. -/
def updateWrapPeriod (c : Connection) (timestamp : UInt32) : Connection :=
  if !c.tsbpdWrapPeriod then
    if timestamp > maxTimestamp - 30 * 1000000 then { c with tsbpdWrapPeriod := true } else c
  else if timestamp ≥ 30 * 1000000 ∧ timestamp ≤ 60 * 1000000 then
    { c with
      tsbpdWrapPeriod := false
      tsbpdTimeBaseOffset := c.tsbpdTimeBaseOffset + wrapOffset }
  else c

/-- The time at which a data packet is due. -/
def pktTsbpdTime (c : Connection) (timestamp : UInt32) : UInt64 :=
  let tsbpdTimeBaseOffset :=
    -- In the wrapping period a small timestamp comes from after the wrap. The offset of the
    -- connection still is the one from before.
    if c.tsbpdWrapPeriod ∧ timestamp < 30 * 1000000 then c.tsbpdTimeBaseOffset + wrapOffset
    else c.tsbpdTimeBaseOffset
  c.conn.tsbpdTimeBase + tsbpdTimeBaseOffset + timestamp.toUInt64 + c.conn.tsbpdDelay +
    c.tsbpdDrift

/-- A packet that cannot be decrypted. -/
def countUndecrypt (c : Connection) (p : Packet) : Connection :=
  { c with statistics := { c.statistics with
      pktRecvUndecrypt := c.statistics.pktRecvUndecrypt + 1
      byteRecvUndecrypt := c.statistics.byteRecvUndecrypt + p.len } }

/-- The decryption. A packet that cannot be decrypted is counted and kept. -/
def decrypt (prim : Primitives) (c : Connection) (p : Packet) : Connection × Packet :=
  match c.conn.crypto with
  | none => (c, p)
  | some crypto =>
    -- A plain packet on an encrypted connection counts as one that cannot be decrypted.
    if p.header.keyBaseEncryptionFlag = .unencryptedPacket then (c.countUndecrypt p, p)
    else
      match crypto.encryptOrDecryptPayload prim p.payload p.header.keyBaseEncryptionFlag
        p.seq.val with
      | .error _ => (c.countUndecrypt p, p)
      | .ok payload => (c, { p with payload := payload })

/-- A data packet. One with the message number 0 belongs to a packet filter and is dropped. -/
def handleData (prim : Primitives) (c : Connection) (p : Packet) : Connection × List Output :=
  if p.header.messageNumber = 0 then (c, [])
  else
    let c := c.updateWrapPeriod p.header.timestamp
    let p := { p with header := { p.header with
      pktTsbpdTime := c.pktTsbpdTime p.header.timestamp } }
    -- The packet goes on whether or not it was decrypted.
    let (c, p) := c.decrypt prim p
    (c, [.push p])

/-- `handlePacket`. -/
def handlePacket (prim : Primitives) (sort : SortSlice) (c : Connection) (p : Packet)
    (i : HandleInputs) : Go (Connection × List Output) :=
  if p.header.isControlPacket then c.handleControl prim sort p i
  else .ok (c.handleData prim p)

end Connection

/-! ### The times of the packets -/

/-- A data packet that was given to `recv.Push`: the time at which the peer sent it, what the
connection had for the time base, and the time that the packet got. -/
structure Assignment where
  time : Nat
  timeBase : UInt64
  delay : UInt64
  drift : UInt64
  pktTsbpdTime : UInt64
  deriving DecidableEq, Repr

/-- The packet got the time that it should get. -/
def Assignment.Exact (a : Assignment) : Prop :=
  a.pktTsbpdTime = a.timeBase + UInt64.ofNat a.time + a.delay + a.drift

instance (a : Assignment) : Decidable a.Exact := inferInstanceAs (Decidable (_ = _))

/-- A connection and the times of its packets, in the order of their arrival. -/
structure Timing where
  connection : Connection
  log : List Assignment

namespace Timing

inductive Event where
  /-- A packet arrives. The peer sent it at `time`, which counts microseconds without end. -/
  | receive (p : Packet) (i : HandleInputs) (time : Nat)
  /-- A packet leaves. -/
  | pop (p : Packet) (timestamp : UInt32) (random : Entropy)
  /-- A full ACK leaves. -/
  | sendACK (now : Int)
  deriving DecidableEq, Repr

def init (config : SrtConnConfig) : Timing := ⟨Connection.new config, []⟩

/-- The packets for `recv.Push`. -/
def push? : Output → Option Packet
  | .push p => some p
  | _ => none

/-- The connection gives a packet to `recv.Push`. -/
def assign (c : Connection) (time : Nat) (p : Packet) : Assignment :=
  ⟨time, c.conn.tsbpdTimeBase, c.conn.tsbpdDelay, c.tsbpdDrift, p.header.pktTsbpdTime⟩

/-- One event. -/
def step (prim : Primitives) (sort : SortSlice) (s : Timing) : Event → Option Timing
  | .receive p i time => do
    let (connection, outputs) ← (s.connection.handlePacket prim sort p i).toOption
    -- The delay is the one that the connection has after the packet. A data packet does not
    -- change it.
    return {
      connection := connection
      log := s.log ++ (outputs.filterMap push?).map (assign connection time) }
  | .pop p timestamp random =>
    some { s with connection := { s.connection with
      conn := (s.connection.conn.pop prim p timestamp random).1 } }
  | .sendACK now => some { s with connection := s.connection.noteACK now }

/-- The time of a data packet that is not a filter packet. -/
def dataTime? : Event → Option Nat
  | .receive p _ time =>
    if p.header.isControlPacket ∨ p.header.messageNumber = 0 then none else some time
  | _ => none

/-- The timestamp of an arriving packet. -/
def timestamp : Event → UInt32
  | .receive p _ _ => p.header.timestamp
  | _ => 0

/-- The highest time of a packet so far. -/
def highest (s : Timing) : Option Nat := (s.log.map Assignment.time).max?

/-- A data packet carries its time modulo `2^32`. The first one is sent in the first period. The
highest time grows by 30 seconds at most, and a packet is late by less than that. -/
def Timely (s : Timing) (e : Event) : Prop :=
  match dataTime? e, s.highest with
  | none, _ => True
  | some t, none => (timestamp e).toNat = t % 2 ^ 32 ∧ t < 2 ^ 32
  | some t, some m =>
    (timestamp e).toNat = t % 2 ^ 32 ∧ t ≤ m + 30000000 ∧ max m t < t + 30000000

instance (s : Timing) (e : Event) : Decidable (s.Timely e) := by
  unfold Timely
  split <;> infer_instance

/-- The times of the packets do not go down. -/
def Nondecreasing (s : Timing) : Prop := (s.log.map Assignment.pktTsbpdTime).Pairwise (· ≤ ·)

instance (s : Timing) : Decidable s.Nondecreasing :=
  inferInstanceAs (Decidable (List.Pairwise _ _))

/-- A stream in order: a data packet carries its time modulo `2^32`, and is sent less than
`2^31` microseconds after the one before. The time that the packet should get fits 64 bits. -/
def InOrder (s : Timing) (e : Event) : Prop :=
  match dataTime? e with
  | none => True
  | some t =>
    (timestamp e).toNat = t % 2 ^ 32 ∧
    s.connection.conn.tsbpdTimeBase.toNat + t + s.connection.conn.tsbpdDelay.toNat +
      s.connection.tsbpdDrift.toNat < 2 ^ 64 ∧
    match s.log.getLast? with
    | none => True
    | some last => last.time ≤ t ∧ t < last.time + 2 ^ 31

instance (s : Timing) (e : Event) : Decidable (s.InOrder e) := by
  unfold InOrder
  split
  · infer_instance
  · split <;> infer_instance

/-- The wrap of the timestamp between `m` and `t` can be seen. The packet before a wrap is sent
in the last 30 seconds of its period, and the one after it in the first 60 seconds of the next.
After a packet in the first 30 seconds, the next one is sent in the first 60 seconds. There is
nothing to see in the first period of the stream, which has the number `first`. -/
def InSight (first m t : Nat) : Prop :=
  if t / 2 ^ 32 = m / 2 ^ 32 then
    first < m / 2 ^ 32 → m % 2 ^ 32 < 30000000 → t % 2 ^ 32 ≤ 60000000
  else 2 ^ 32 ≤ m % 2 ^ 32 + 30000000 ∧ t % 2 ^ 32 ≤ 60000000

instance (first m t : Nat) : Decidable (InSight first m t) := by
  unfold InSight
  infer_instance

/-- The packet shows the wrap before it. A handshake request may have made the delay of the
connection smaller since the packet before, by no more than the time between the two packets. -/
def Advances (s : Timing) (e : Event) : Prop :=
  match dataTime? e, s.log.head?, s.log.getLast? with
  | some t, some first, some last =>
    InSight (first.time / 2 ^ 32) last.time t ∧
      last.time + last.delay.toNat ≤ t + s.connection.conn.tsbpdDelay.toNat
  | _, _, _ => True

instance (s : Timing) (e : Event) : Decidable (s.Advances e) := by
  unfold Advances
  split <;> infer_instance

end Timing

end Gosrt
