import Gosrt.Spec.Session

/-!
# `Gosrt.Spec.Refresh`: one refresh period of a connection (`connection.go`)

Towards the end of a refresh period the sender of the data announces its next key with a key
material request, and sends the request again until a response arrives. The receiver takes the key
over and responds. Each of these packets can be lost.

A `Refresh` is the sender and the receiver with the requests and responses of the period. A packet
that was sent arrives when an event says so: never, once or several times, and in any order. The
receiver sends no data. The period ends with the packet that makes the sender switch its key, so
that packet is not part of it.
-/

set_option autoImplicit false

namespace Gosrt

open Lib

/-- The two ends of a connection in one period of a key. -/
structure Refresh where
  sender : Session
  receiver : Session
  /-- The requests that the sender sent in this period: the first one and its copies. -/
  requests : List Packet
  /-- The responses of the receiver. -/
  responses : List Packet
  /-- How many requests have reached the receiver. No step reads it. -/
  arrived : Nat

namespace Refresh

inductive Event where
  /-- A data packet leaves the sender. -/
  | pop (p : Packet) (timestamp : UInt32) (random : Entropy)
  /-- The request number `n` reaches the receiver. -/
  | request (n : Nat) (i : HandleInputs)
  /-- The response number `n` reaches the sender. -/
  | response (n : Nat) (i : HandleInputs)
  /-- Anything else at one of the ends. -/
  | sender (e : Session.Event)
  | receiver (e : Session.Event)
  deriving DecidableEq, Repr

/-- The packet is a control packet with this subtype. -/
def isUser (subType : CtrlSubType) (p : Packet) : Bool :=
  p.header.isControlPacket && p.header.controlType == .user && p.header.subType == subType

/-- The event is neither about data that leaves nor about key material. -/
def aside : Session.Event → Bool
  | .receive p _ => !isUser .kmreq p && !isUser .kmrsp p
  | .pop p _ _ => p.header.isControlPacket
  | _ => true

/-- The packets for `onSend`. -/
def send? : Output → Option Packet
  | .send q => some q
  | _ => none

/-- What an end sends when this packet arrives. -/
def answers (prim : Primitives) (sort : SortSlice) (s : Session) (p : Packet) (i : HandleInputs) :
    List Packet :=
  match s.connection.handlePacket prim sort p i with
  | .error _ => []
  | .ok (_, outputs) => outputs.filterMap send?

/-- One event. -/
def step (prim : Primitives) (sort : SortSlice) (s : Refresh) : Event → Option Refresh
  | .pop p timestamp random =>
    -- The packet that ends the period belongs to the switch.
    if p.header.isControlPacket || s.sender.connection.conn.kmRefreshCountdown == 1 then none
    else do
      let sender ← Session.step prim sort s.sender (.pop p timestamp random)
      let sent := (s.sender.connection.conn.pop prim p timestamp random).2.2
      return { s with
        sender := sender
        requests := s.requests ++ sent.filter (isUser .kmreq) }
  | .request n i => do
    let p ← s.requests[n]?
    let receiver ← Session.step prim sort s.receiver (.receive p i)
    return { s with
      receiver := receiver
      responses := s.responses ++ (answers prim sort s.receiver p i).filter (isUser .kmrsp)
      arrived := s.arrived + 1 }
  | .response n i => do
    let p ← s.responses[n]?
    let sender ← Session.step prim sort s.sender (.receive p i)
    return { s with sender := sender }
  | .sender e => do
    guard (aside e)
    let sender ← Session.step prim sort s.sender e
    return { s with sender := sender }
  | .receiver e => do
    guard (aside e)
    let receiver ← Session.step prim sort s.receiver e
    return { s with receiver := receiver }

/-- The beginning of a period. Both ends are encrypted, with the same passphrase and with the key
length that the handshake gave to both of them. -/
structure Begins (prim : Primitives) (s : Refresh) : Prop where
  keys : ∃ crypto crypto', s.sender.connection.conn.crypto = some crypto ∧
    s.receiver.connection.conn.crypto = some crypto' ∧ crypto'.keyLength = crypto.keyLength
  senderKey : s.sender.connection.conn.keyBaseEncryption = .evenKeyEncrypted ∨
    s.sender.connection.conn.keyBaseEncryption = .oddKeyEncrypted
  receiverKey : s.receiver.connection.conn.keyBaseEncryption = .evenKeyEncrypted ∨
    s.receiver.connection.conn.keyBaseEncryption = .oddKeyEncrypted
  passphrase : s.receiver.connection.conn.config.passphrase
    = s.sender.connection.conn.config.passphrase
  derives : prim.Derives s.sender.connection.conn.config.passphrase
  unconfirmed : s.sender.connection.conn.kmConfirmed = false
  requests : s.requests = []
  responses : s.responses = []
  arrived : s.arrived = 0

/-- A request that arrives is answered with a response, and a response that arrives confirms. A
response comes after a request of the same period, so the sender is announcing. -/
def Effective (prim : Primitives) (sort : SortSlice) (s : Refresh) : Event → Prop
  | .request n i => ∀ p ∈ s.requests[n]?,
      ∃ q ∈ answers prim sort s.receiver p i, isUser .kmrsp q = true
  | .response n i => ∀ p ∈ s.responses[n]?,
      ∃ sender ∈ Session.step prim sort s.sender (.receive p i),
        sender.connection.conn.kmConfirmed = true
  | _ => True

instance (prim : Primitives) (sort : SortSlice) (s : Refresh) :
    (e : Event) → Decidable (s.Effective prim sort e)
  | .request n i => inferInstanceAs (Decidable (∀ p ∈ s.requests[n]?,
      ∃ q ∈ answers prim sort s.receiver p i, isUser .kmrsp q = true))
  | .response n i => inferInstanceAs (Decidable (∀ p ∈ s.responses[n]?,
      ∃ sender ∈ Session.step prim sort s.sender (.receive p i),
        sender.connection.conn.kmConfirmed = true))
  | .pop _ _ _ => isTrue trivial
  | .sender _ => isTrue trivial
  | .receiver _ => isTrue trivial

/-- A request is the first one that arrives, and both ends use the same key. A response arrives at a
sender with a time for announcements of more than one packet. In version 4 the sender must be able
to stop its requests. -/
def FirstCopy (s : Refresh) : Event → Prop
  | .request n _ => n < s.requests.length → s.arrived = 0 ∧
      s.receiver.connection.conn.keyBaseEncryption = s.sender.connection.conn.keyBaseEncryption
  | .response n _ => n < s.responses.length →
      2 ≤ s.sender.connection.conn.config.kmPreAnnounce ∧
        (s.sender.connection.conn.version = 4 → s.sender.stopKMRequests = true)
  | _ => True

instance (s : Refresh) : (e : Event) → Decidable (s.FirstCopy e)
  | .request n _ => inferInstanceAs (Decidable (n < s.requests.length → _))
  | .response n _ => inferInstanceAs (Decidable (n < s.responses.length → _))
  | .pop _ _ _ => isTrue trivial
  | .sender _ => isTrue trivial
  | .receiver _ => isTrue trivial

end Refresh

end Gosrt
