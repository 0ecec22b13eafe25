import Gosrt.Spec.Config
import Gosrt.Spec.Crypto

/-!
# `Gosrt.Spec.Connection`: sending and re-keying (`connection.go`)

The part of `srtConn` that sends packets and changes the encryption keys. `pop` is called
for each packet that leaves. For a data packet of an encrypted connection it encrypts, counts
down, announces the next key with a key material request, switches to it, and draws a new
key. These are the stages below, in the order of the source.

`onSend` becomes an output: the packets handed to it, in order. A key material request goes
out before the data packet that causes it. The timestamp of the request and the draw of a
new key are inputs.

Left out are the goroutines with their queues and timers, the congestion control (see
`Gosrt.Spec.Live`), and the statistics other than those of key material.
-/

set_option autoImplicit false

namespace Gosrt

open Lib

/-- `srtConnConfig`, less its callbacks, the start time and the logger. -/
structure SrtConnConfig where
  version : UInt32
  isCaller : Bool
  localAddr : Option String
  remoteAddr : Option String
  config : Config
  socketId : UInt32
  peerSocketId : UInt32
  tsbpdTimeBase : UInt64
  tsbpdDelay : UInt64
  peerTsbpdDelay : UInt64
  initialPacketSequenceNumber : Number
  crypto : Option Crypto
  keyBaseEncryption : PacketEncryption
  deriving DecidableEq, Repr

/-- `srtConn`. -/
structure SrtConn where
  version : UInt32
  isCaller : Bool
  localAddr : Option String
  remoteAddr : Option String
  config : Config
  socketId : UInt32
  peerSocketId : UInt32
  tsbpdTimeBase : UInt64
  tsbpdDelay : UInt64
  peerTsbpdDelay : UInt64
  initialPacketSequenceNumber : Number
  crypto : Option Crypto
  keyBaseEncryption : PacketEncryption
  kmPreAnnounceCountdown : UInt64
  kmRefreshCountdown : UInt64
  kmConfirmed : Bool
  pktSentKM : UInt64
  pktRecvKM : UInt64
  pktRecvInvalid : UInt64
  deriving DecidableEq, Repr

/-- `newSRTConn`. -/
def newSRTConn (config : SrtConnConfig) : SrtConn where
  version := config.version
  isCaller := config.isCaller
  localAddr := config.localAddr
  remoteAddr := config.remoteAddr
  config := config.config
  socketId := config.socketId
  peerSocketId := config.peerSocketId
  tsbpdTimeBase := config.tsbpdTimeBase
  tsbpdDelay := config.tsbpdDelay
  peerTsbpdDelay := config.peerTsbpdDelay
  initialPacketSequenceNumber := config.initialPacketSequenceNumber
  crypto := config.crypto
  keyBaseEncryption := config.keyBaseEncryption
  kmPreAnnounceCountdown := config.config.kmRefreshRate - config.config.kmPreAnnounce
  kmRefreshCountdown := config.config.kmRefreshRate
  kmConfirmed := false
  pktSentKM := 0
  pktRecvKM := 0
  pktRecvInvalid := 0

namespace SrtConn

/-! ### Sending -/

/-- The start of `pop`, for every packet: where it goes. -/
def address (c : SrtConn) (p : Packet) : Packet :=
  { p with
    header := { p.header with
      addr := c.remoteAddr
      localAddr := c.localAddr
      destinationSocketId := c.peerSocketId } }

/-- The packet that `sendKMRequest` makes for a key. `MarshalKM` and `MarshalCIF` can return
errors, which the source ignores. -/
def kmRequest (prim : Primitives) (c : SrtConn) (crypto : Crypto) (key : PacketEncryption)
    (timestamp : UInt32) : Packet :=
  let cif := (crypto.marshalKM prim {} c.config.passphrase key).1
  let p := newPacket c.remoteAddr
  c.address
    { header := { p.header with
        isControlPacket := true
        controlType := CtrlType.user
        subType := CtrlSubType.kmreq
        timestamp := timestamp }
      payload := cif.marshalData }

/-- The payload and the key flag of a data packet. A retransmitted packet keeps its payload,
which is encrypted already, but gets the flag of the current key. An error of the encryption
leaves the payload as it is. -/
def encrypt (prim : Primitives) (c : SrtConn) (crypto : Crypto) (p : Packet) : Packet :=
  { header := { p.header with keyBaseEncryptionFlag := c.keyBaseEncryption }
    payload :=
      if p.header.retransmittedPacketFlag then p.payload
      else
        (crypto.encryptOrDecryptPayload prim p.payload c.keyBaseEncryption p.seq.val).toOption.getD
          p.payload }

/-- Both countdowns. They are `uint64` and wrap. -/
def countDown (c : SrtConn) : SrtConn :=
  { c with
    kmPreAnnounceCountdown := c.kmPreAnnounceCountdown - 1
    kmRefreshCountdown := c.kmRefreshCountdown - 1 }

/-- It is time to announce the other key, and the peer has not confirmed it. -/
def announces (c : SrtConn) : Bool := c.kmPreAnnounceCountdown == 0 && !c.kmConfirmed

/-- The announcement: the request is sent again until there is a response. -/
def announce (prim : Primitives) (c : SrtConn) (crypto : Crypto) (timestamp : UInt32) :
    SrtConn × List Packet :=
  if c.announces then
    ({ c with
        kmPreAnnounceCountdown := c.config.kmPreAnnounce / 10 + 1
        pktSentKM := c.pktSentKM + 1 },
      [c.kmRequest prim crypto c.keyBaseEncryption.opposite timestamp])
  else (c, [])

/-- The refresh period is over. -/
def switches (c : SrtConn) : Bool := c.kmRefreshCountdown == 0

/-- The switch to the other key. -/
def switchKeys (c : SrtConn) : SrtConn :=
  if c.switches then
    { c with
      kmPreAnnounceCountdown := c.config.kmRefreshRate - c.config.kmPreAnnounce
      kmRefreshCountdown := c.config.kmRefreshRate
      keyBaseEncryption := c.keyBaseEncryption.opposite
      kmConfirmed := false }
  else c

/-- It is time to replace the key that is not in use. -/
def regenerates (c : SrtConn) : Bool :=
  c.kmRefreshCountdown == c.config.kmRefreshRate - c.config.kmPreAnnounce

/-- A new SEK for the next switch. -/
def regenerate (c : SrtConn) (crypto : Crypto) (random : Entropy) : SrtConn :=
  if c.regenerates then
    { c with crypto := some (crypto.generateSEK c.keyBaseEncryption.opposite random) }
  else c

/-- `pop`: the connection and the packet afterwards, and the packets handed to `onSend`. -/
def pop (prim : Primitives) (c : SrtConn) (p : Packet) (timestamp : UInt32) (random : Entropy) :
    SrtConn × Packet × List Packet :=
  let p := c.address p
  if p.header.isControlPacket then (c, p, [p])
  else
    match c.crypto with
    | none => (c, p, [p])
    | some crypto =>
      let p := c.encrypt prim crypto p
      let (c, sent) := c.countDown.announce prim crypto timestamp
      (c.switchKeys.regenerate crypto random, p, sent ++ [p])

/-! ### Key material from the peer -/

/-- `p.UnmarshalCIF(cif)` of key material: nothing happens for a packet that is not a control
packet. -/
def unmarshalKMCIF (p : Packet) : Go CIFKeyMaterialExtension :=
  if p.header.isControlPacket then CIFKeyMaterialExtension.unmarshal {} p.payload else .ok {}

/-- What a handler does besides changing the connection. -/
inductive Effect where
  | stopKMRequests
  | close
  deriving DecidableEq, Repr

/-- `handleKMResponse`. Only a version 4 connection looks at the error code. -/
def handleKMResponse (c : SrtConn) (p : Packet) : SrtConn × List Effect :=
  let c := { c with pktRecvKM := c.pktRecvKM + 1 }
  match unmarshalKMCIF p with
  | .error _ => ({ c with pktRecvInvalid := c.pktRecvInvalid + 1 }, [])
  | .ok cif =>
    if c.crypto.isNone then (c, [])
    else
      let confirmed : SrtConn :=
        -- Outside the pre-announce period the response is ignored.
        if c.kmPreAnnounceCountdown ≥ c.config.kmPreAnnounce then c
        else { c with kmConfirmed := true }
      if c.version = 4 then
        if cif.error ≠ 0 then (c, [.stopKMRequests, .close]) else (confirmed, [.stopKMRequests])
      else (confirmed, [])

end SrtConn

end Gosrt
