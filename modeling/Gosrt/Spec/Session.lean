import Gosrt.Spec.Handle
import Gosrt.Spec.Live.Runs

/-!
# `Gosrt.Spec.Session`: a connection in use (`connection.go`)

A session is a connection together with what its goroutines call. `networkQueueReader` gives the
received packets to `handlePacket`, which passes the data packets on to `recv.Push`. `ticker`
calls `recv.Tick`, whose parts are separate steps, and `recv` gives the packets that are due to
the application. Packets leave through `pop`.

`stopHSRequests` and `stopKMRequests` are function values. `newSRTConn` sets them for a version 4
caller, the second one only when there is a crypto context already, and nothing sets them
afterwards. A call of an unset function value is a panic that ends the process, so the step
cannot happen.
-/

set_option autoImplicit false

namespace Gosrt

open Lib

/-- A connection with its receiver. -/
structure Session where
  connection : Connection
  /-- Whether `stopHSRequests` is set. -/
  stopHSRequests : Bool
  /-- Whether `stopKMRequests` is set. -/
  stopKMRequests : Bool
  /-- `recv`, and what it gave to the application. -/
  receiving : Receiving
  /-- The packets for `recv` that were decrypted without an error, or that came while there was no
  crypto context. No step reads them. -/
  opened : List Packet

namespace Session

inductive Event where
  /-- A packet arrives. -/
  | receive (p : Packet) (i : HandleInputs)
  /-- A packet leaves. -/
  | pop (p : Packet) (timestamp : UInt32) (random : Entropy)
  /-- A full ACK leaves. -/
  | sendACK (now : Int)
  /-- The parts of `recv.Tick`. -/
  | tickACK (now : UInt64)
  | tickNAK (now : UInt64)
  | tickDeliver (now : UInt64)
  | tickRate (now : UInt64)
  deriving DecidableEq, Repr

/-- `newSRTConn`. -/
def init (config : SrtConnConfig) : Session where
  connection := Connection.new config
  stopHSRequests := config.version == 4 && config.isCaller
  stopKMRequests := config.version == 4 && config.isCaller && config.crypto.isSome
  receiving := Receiving.init {
    initialSequenceNumber := config.initialPacketSequenceNumber
    periodicACKInterval := 10000
    periodicNAKInterval := 20000 }
  opened := []

/-- The outputs call a function value that is not set. -/
def callsUnset (s : Session) (outputs : List Output) : Bool :=
  (!s.stopHSRequests && outputs.contains .stopHSRequests) ||
    (!s.stopKMRequests && outputs.contains (.effect .stopKMRequests))

/-- `EncryptOrDecryptPayload` returns without an error for this packet, or there is no need to call
it. -/
def opens (prim : Primitives) (c : SrtConn) (p : Packet) : Bool :=
  c.crypto.all fun crypto =>
    (crypto.encryptOrDecryptPayload prim p.payload p.header.keyBaseEncryptionFlag
      p.seq.val).toOption.isSome

/-- `recv.Push` for each of the packets. -/
def push (r : Receiving) (packets : List Packet) : Receiving :=
  packets.foldl (fun r p => { r with receiver := (r.receiver.push p).1 }) r

/-- One event. -/
def step (prim : Primitives) (sort : SortSlice) (s : Session) : Event → Option Session
  | .receive p i =>
    match s.connection.handlePacket prim sort p i with
    | .error _ => none
    | .ok (connection, outputs) =>
      if s.callsUnset outputs then none
      else
        let packets := outputs.filterMap Timing.push?
        some { s with
          connection := connection
          receiving := push s.receiving packets
          opened := if opens prim s.connection.conn p then s.opened ++ packets else s.opened }
  | .pop p timestamp random =>
    some { s with connection := { s.connection with
      conn := (s.connection.conn.pop prim p timestamp random).1 } }
  | .sendACK now => some { s with connection := s.connection.noteACK now }
  | .tickACK now =>
    some { s with receiving := { s.receiving with
      receiver := (s.receiving.receiver.periodicACK now).1 } }
  | .tickNAK now =>
    some { s with receiving := { s.receiving with
      receiver := (s.receiving.receiver.periodicNAK now).1 } }
  | .tickDeliver now => some { s with receiving := s.receiving.tickDeliver now }
  | .tickRate now =>
    some { s with receiving := { s.receiving with receiver := s.receiving.receiver.tickRate now } }

/-! ### The key in use -/

/-- The connection encrypts with one of the two keys. -/
def KeyNamed (s : Session) : Prop :=
  s.connection.conn.crypto.isSome = true →
    s.connection.conn.keyBaseEncryption = .evenKeyEncrypted ∨
      s.connection.conn.keyBaseEncryption = .oddKeyEncrypted

instance (s : Session) : Decidable s.KeyNamed := inferInstanceAs (Decidable (_ → _))

/-- A data packet of an encrypted connection that leaves for the first time leaves encrypted. -/
def Encrypts (prim : Primitives) (s : Session) : Event → Prop
  | .pop p timestamp random =>
    ∀ crypto, s.connection.conn.crypto = some crypto → p.header.isControlPacket = false →
      p.header.retransmittedPacketFlag = false →
      ∃ payload,
        crypto.encryptOrDecryptPayload prim p.payload s.connection.conn.keyBaseEncryption p.seq.val
          = .ok payload ∧
        (s.connection.conn.pop prim p timestamp random).2.1.payload = payload
  | _ => True

/-- The event is a key material request of the peer. -/
def kmRequest? : Event → Option (Packet × HandleInputs)
  | .receive p i =>
    if p.header.isControlPacket ∧ p.header.controlType = .user ∧ p.header.subType = .kmreq then
      some (p, i)
    else none
  | _ => none

/-- The request that gives a version 4 connection its crypto context names one key. -/
def NamesOneKey (s : Session) (e : Event) : Prop :=
  s.connection.conn.version = 4 → s.connection.conn.crypto = none →
    ∀ r ∈ kmRequest? e, ∀ cif ∈ (SrtConn.unmarshalKMCIF r.1).toOption,
      (Crypto.new cif.kLen.toNat r.2.draws.salt r.2.draws.even r.2.draws.odd).toOption.isSome
          = true →
        cif.keyBasedEncryption ≠ .evenAndOddKey

instance (s : Session) (e : Event) : Decidable (s.NamesOneKey e) :=
  inferInstanceAs (Decidable (_ → _))

/-! ### Packets that cannot be decrypted -/

/-- The event is a data packet. -/
def data? : Event → Option Packet
  | .receive p _ => if p.header.isControlPacket then none else some p
  | _ => none

/-- A data packet that cannot be decrypted is counted, and it is not given to `recv`. -/
def Rejects (prim : Primitives) (sort : SortSlice) (s : Session) : Event → Prop
  | .receive p i =>
    p.header.isControlPacket = false → opens prim s.connection.conn p = false →
      ∃ c outputs, s.connection.handlePacket prim sort p i = .ok (c, outputs) ∧
        c.statistics.pktRecvUndecrypt = s.connection.statistics.pktRecvUndecrypt + 1 ∧
        outputs.filterMap Timing.push? = []
  | _ => True

/-- A data packet for an encrypted connection names one of the two keys. -/
def NamesKey (s : Session) (e : Event) : Prop :=
  s.connection.conn.crypto.isSome = true → ∀ p ∈ data? e,
    p.header.keyBaseEncryptionFlag = .evenKeyEncrypted ∨
      p.header.keyBaseEncryptionFlag = .oddKeyEncrypted

instance (s : Session) (e : Event) : Decidable (s.NamesKey e) :=
  inferInstanceAs (Decidable (_ → _))

end Session

end Gosrt
