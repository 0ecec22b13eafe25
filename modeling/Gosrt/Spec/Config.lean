import Gosrt.Lib.Go
import Gosrt.Spec.Packet

/-!
# `Gosrt.Spec.Config`: the configuration of a connection (`config.go`)

The fields that `Validate` looks at or that a modelled function reads. Durations are
`time.Duration`: nanoseconds in an `int64`. `Validate` writes to its receiver, so it returns
the configuration or an error.
-/

set_option autoImplicit false

namespace Gosrt

open Lib

/-- `time.Duration`, in nanoseconds. -/
abbrev Duration := Int64

namespace Duration

/-- `Duration.Milliseconds`. -/
def milliseconds (d : Duration) : Int64 := d / 1000000

/-- `Duration.Microseconds`. -/
def microseconds (d : Duration) : Int64 := d / 1000

/-- `uint16(d.Milliseconds())`. -/
def ms16 (d : Duration) : UInt16 := (milliseconds d).toUInt64.toUInt16

end Duration

/-- `UDP_HEADER_SIZE`. -/
def udpHeaderSize : UInt32 := 28

/-- `SRT_HEADER_SIZE`. -/
def srtHeaderSize : UInt32 := 16

/-- `MIN_MSS_SIZE`. -/
def minMSSSize : UInt32 := 76

/-- `MAX_MSS_SIZE`. -/
def maxMSSSize : UInt32 := 1500

/-- `MIN_PAYLOAD_SIZE`. -/
def minPayloadSize : UInt32 := minMSSSize - udpHeaderSize - srtHeaderSize

/-- `MAX_PAYLOAD_SIZE`. -/
def maxPayloadSize : UInt32 := maxMSSSize - udpHeaderSize - srtHeaderSize

/-- `MIN_PASSPHRASE_SIZE`. -/
def minPassphraseSize : Nat := 10

/-- `MAX_PASSPHRASE_SIZE`. -/
def maxPassphraseSize : Nat := 80

/-- `MAX_STREAMID_SIZE`. -/
def maxStreamIdSize : Nat := 512

/-- `SRT_VERSION`. -/
def srtVersion : UInt32 := 0x010401

/-- `Config`. -/
structure Config where
  congestion : String := "live"
  connectionTimeout : Duration := 3000000000
  fc : UInt32 := 25600
  groupConnect : Bool := false
  iptos : Int := 0
  ipttl : Int := 0
  ipv6Only : Int := -1
  kmPreAnnounce : UInt64 := 4096
  kmRefreshRate : UInt64 := 16777216
  latency : Duration := -1
  minVersion : UInt32 := srtVersion
  mss : UInt32 := maxMSSSize
  nakReport : Bool := true
  overheadBW : Int := 25
  packetFilter : String := ""
  passphrase : Bytes := []
  payloadSize : UInt32 := maxPayloadSize
  pbKeylen : Int := 16
  peerLatency : Duration := 120000000
  receiverLatency : Duration := 120000000
  sendDropDelay : Duration := 1000000000
  streamId : Bytes := []
  tooLatePacketDrop : Bool := true
  transmissionType : String := "live"
  tsbpdMode : Bool := true
  allowPeerIpChange : Bool := false
  deriving DecidableEq, Repr, Inhabited

/-- `DefaultConfig`. -/
def defaultConfig : Config := {}

namespace Config

/-- One check of `Validate`. -/
def check (bad : Prop) [Decidable bad] (message : String) : Go Unit :=
  if bad then Go.err ("config: " ++ message) else .ok ()

/-- What `Validate` sets, whatever was configured. -/
def withFixedModes (c : Config) : Config :=
  { c with congestion := "live", nakReport := true, tooLatePacketDrop := true, tsbpdMode := true }

/-- A non-negative `Latency` replaces both latencies. -/
def withLatency (c : Config) : Config :=
  if c.latency ≥ 0 then { c with peerLatency := c.latency, receiverLatency := c.latency } else c

/-- The checks of `Validate` up to the latencies. -/
def checkConnection (c : Config) : Go Unit := do
  check (c.congestion ≠ "live") "Congestion mode must be 'live'"
  check (c.connectionTimeout ≤ 0) "ConnectionTimeout must be greater than 0"
  check (c.groupConnect = true) "GroupConnect is not supported"
  check (c.iptos > 0 ∧ c.iptos > 255) "IPTOS must be lower than 255"
  check (c.ipttl > 0 ∧ c.ipttl > 255) "IPTTL must be between 1 and 255"
  check (c.ipv6Only > 0) "IPv6Only is not supported"
  check (c.kmRefreshRate ≠ 0 ∧ (c.kmPreAnnounce < 1 ∨ c.kmPreAnnounce > c.kmRefreshRate / 2))
    "KMPreAnnounce must be greater than 1 and smaller than KMRefreshRate/2"

/-- The checks of `Validate` after the latencies. -/
def checkTransmission (c : Config) : Go Unit := do
  check (c.minVersion ≠ srtVersion) "MinVersion must be 0x010401"
  check (c.mss < minMSSSize ∨ c.mss > maxMSSSize)
    "MSS must be between 76 and 1500 (both inclusive)"
  check (c.nakReport = false) "NAKReport must be enabled"
  check (c.overheadBW < 10 ∨ c.overheadBW > 100) "OverheadBW must be between 10 and 100"
  check (c.packetFilter.length ≠ 0) "PacketFilter are not supported"
  check (c.passphrase.length ≠ 0 ∧
      (c.passphrase.length < minPassphraseSize ∨ c.passphrase.length > maxPassphraseSize))
    "Passphrase must be between 10 and 80 bytes long"
  check (c.payloadSize < minPayloadSize ∨ c.payloadSize > maxPayloadSize)
    "PayloadSize must be between 32 and 1456 (both inclusive)"
  -- The text subtracts the two header sizes where it should add them.
  check (c.payloadSize > c.mss - (srtHeaderSize + udpHeaderSize))
    ("PayloadSize must not be larger than " ++
      toString (c.mss - (srtHeaderSize + udpHeaderSize)) ++ " (MSS - -12)")
  check (c.pbKeylen ≠ 16 ∧ c.pbKeylen ≠ 24 ∧ c.pbKeylen ≠ 32)
    "PBKeylen must be 16, 24, or 32 bytes"
  check (c.peerLatency < 0) "PeerLatency must be greater than 0"
  check (c.receiverLatency < 0) "ReceiverLatency must be greater than 0"
  check (c.sendDropDelay < 0) "SendDropDelay must be greater than 0"
  check (c.streamId.length > maxStreamIdSize)
    "StreamId must be shorter than or equal to 512 bytes"
  check (c.tooLatePacketDrop = false) "TooLatePacketDrop must be enabled"
  check (c.transmissionType ≠ "live") "TransmissionType must be 'live'"
  check (c.tsbpdMode = false) "TSBPDMode must be enabled"

/-- The configuration once the peer has told the MTU size: a smaller one is taken over. -/
def adjustMSS (c : Config) (maxTransmissionUnitSize : UInt32) : Config :=
  if maxTransmissionUnitSize < c.mss then
    { c with
      mss := maxTransmissionUnitSize
      payloadSize := maxTransmissionUnitSize - srtHeaderSize - udpHeaderSize }
  else c

/-- The MTU size of the peer is smaller, and leaves too little for the payload. -/
def mssTooSmall (c : Config) (maxTransmissionUnitSize : UInt32) : Bool :=
  decide (maxTransmissionUnitSize < c.mss) &&
    decide ((c.adjustMSS maxTransmissionUnitSize).payloadSize < minPayloadSize)

/-- `Validate`. -/
def validate (c : Config) : Go Config := do
  check (c.transmissionType ≠ "live") "TransmissionType must be 'live'"
  let c := c.withFixedModes
  c.checkConnection
  let c := c.withLatency
  c.checkTransmission
  return c

end Config

end Gosrt
