import Mathlib.Data.List.AList
import Gosrt.Lib.Decimal
import Gosrt.Spec.Config

/-!
# `Gosrt.Spec.ConfigQuery`: a configuration as a query string (`config.go`)

`MarshalQuery` writes the fields that differ from the default configuration, and `UnmarshalQuery`
overwrites the fields that a query names. Both are lists written by hand, one block for each field.
Here a block is one entry of `entries` and one field of `readValues`, with its own key and
its own conversion, in the order of the source.

The text of a query is made and parsed by `net/url`. This is a parameter with one law, and the
conversions of `strconv` are decimal text.
-/

set_option autoImplicit false

namespace Gosrt

open Lib

/-- The bytes of a string constant. -/
def goString (s : String) : Bytes := s.toUTF8.data.toList

/-! ### `net/url` -/

/-- `url.Values`. -/
abbrev Values := AList fun _ : Bytes => List Bytes

namespace Values

/-- `Get`: the first value of a key, or the empty string. -/
def get (v : Values) (key : Bytes) : Bytes :=
  match v.lookup key with
  | some (text :: _) => text
  | _ => []

/-- `Set`. -/
def set (v : Values) (key text : Bytes) : Values := v.insert key [text]

end Values

/-- `Values.Encode` and `url.ParseQuery`, which reads back what the first has written. -/
structure QueryCodec where
  encode : Values → Bytes
  parseQuery : Bytes → Go Values
  parseQuery_encode : ∀ v, ∃ v', parseQuery (encode v) = .ok v' ∧ ∀ key, v'.get key = v.get key

/-! ### `strconv` -/

/-- `FormatInt(i, 10)`. -/
def formatInt (i : Int64) : Bytes := Decimal.intText i.toInt

/-- `FormatUint(n, 10)`. -/
def formatUint (n : UInt64) : Bytes := Decimal.text n.toNat

/-- `FormatBool`. -/
def formatBool (b : Bool) : Bytes := goString (if b then "true" else "false")

/-- `ParseInt(s, 10, 64)`, and `Atoi` where an `int` has 64 bits. `none` is the error. -/
def parseInt (s : Bytes) : Option Int64 := do
  let i ← Decimal.readInt s
  if -2 ^ 63 ≤ i ∧ i < 2 ^ 63 then some (Int64.ofInt i) else none

/-- `ParseUint(s, 10, bits)`. -/
def parseUint (bits : Nat) (s : Bytes) : Option Nat := do
  let n ← Decimal.read s
  if n < 2 ^ bits then some n else none

/-! ### The configuration -/

/-- `Config` with all of its fields and the values of `defaultConfig`. `Config` has
only those that other functions read. -/
@[ext]
structure FullConfig (Logger Control : Type) where
  congestion : Bytes := goString "live"
  connectionTimeout : Duration := 3000000000
  driftTracer : Bool := true
  enforcedEncryption : Bool := true
  fc : UInt32 := 25600
  groupConnect : Bool := false
  groupStabilityTimeout : Duration := 0
  inputBW : Int64 := 0
  iptos : Int64 := 0
  ipttl : Int64 := 0
  ipv6Only : Int64 := -1
  kmPreAnnounce : UInt64 := 4096
  kmRefreshRate : UInt64 := 16777216
  latency : Duration := -1
  lossMaxTTL : UInt32 := 0
  maxBW : Int64 := -1
  messageAPI : Bool := false
  minInputBW : Int64 := 0
  minVersion : UInt32 := srtVersion
  mss : UInt32 := maxMSSSize
  nakReport : Bool := true
  overheadBW : Int64 := 25
  packetFilter : Bytes := []
  passphrase : Bytes := []
  payloadSize : UInt32 := maxPayloadSize
  pbKeylen : Int64 := 16
  peerIdleTimeout : Duration := 5000000000
  peerLatency : Duration := 120000000
  receiverBufferSize : UInt32 := 0
  receiverLatency : Duration := 120000000
  sendBufferSize : UInt32 := 0
  sendDropDelay : Duration := 1000000000
  streamId : Bytes := []
  tooLatePacketDrop : Bool := true
  transmissionType : Bytes := goString "live"
  tsbpdMode : Bool := true
  logger : Option Logger := none
  listenerControl : Option Control := none
  allowPeerIpChange : Bool := false

/-- The fields of a `Config` in a configuration that is the default otherwise. -/
def Config.full {Logger Control : Type} (c : Config) : FullConfig Logger Control where
  congestion := goString c.congestion
  connectionTimeout := c.connectionTimeout
  fc := c.fc
  groupConnect := c.groupConnect
  iptos := Int64.ofInt c.iptos
  ipttl := Int64.ofInt c.ipttl
  ipv6Only := Int64.ofInt c.ipv6Only
  kmPreAnnounce := c.kmPreAnnounce
  kmRefreshRate := c.kmRefreshRate
  latency := c.latency
  minVersion := c.minVersion
  mss := c.mss
  nakReport := c.nakReport
  overheadBW := Int64.ofInt c.overheadBW
  packetFilter := goString c.packetFilter
  passphrase := c.passphrase
  payloadSize := c.payloadSize
  pbKeylen := Int64.ofInt c.pbKeylen
  peerLatency := c.peerLatency
  receiverLatency := c.receiverLatency
  sendDropDelay := c.sendDropDelay
  streamId := c.streamId
  tooLatePacketDrop := c.tooLatePacketDrop
  transmissionType := goString c.transmissionType
  tsbpdMode := c.tsbpdMode
  allowPeerIpChange := c.allowPeerIpChange

namespace FullConfig

variable {Logger Control : Type}

/-- `DefaultConfig`. -/
def defaultConfig : FullConfig Logger Control := {}

/-! ### `MarshalQuery` -/

/-- One block of `MarshalQuery`: the key, and the text if the block sets it. -/
def entry (condition : Bool) (key : String) (text : Bytes) : String × Option Bytes :=
  (key, if condition then some text else none)

/-- The blocks of `MarshalQuery`. -/
def entries (c : FullConfig Logger Control) : List (String × Option Bytes) :=
  let d : FullConfig Logger Control := defaultConfig
  [entry (c.congestion != d.congestion) "congestion" c.congestion,
    entry (c.connectionTimeout != d.connectionTimeout) "conntimeo"
      (formatInt c.connectionTimeout.milliseconds),
    entry (c.driftTracer != d.driftTracer) "drifttracer" (formatBool c.driftTracer),
    entry (c.enforcedEncryption != d.enforcedEncryption) "enforcedencryption"
      (formatBool c.enforcedEncryption),
    entry (c.fc != d.fc) "fc" (formatUint c.fc.toUInt64),
    entry (c.groupConnect != d.groupConnect) "groupconnect" (formatBool c.groupConnect),
    entry (c.groupStabilityTimeout != d.groupStabilityTimeout) "groupstabtimeo"
      (formatInt c.groupStabilityTimeout.milliseconds),
    entry (c.inputBW != d.inputBW) "inputbw" (formatInt c.inputBW),
    entry (c.iptos != d.iptos) "iptos" (formatInt c.iptos),
    entry (c.ipttl != d.ipttl) "ipttl" (formatInt c.ipttl),
    entry (c.ipv6Only != d.ipv6Only) "ipv6only" (formatInt c.ipv6Only),
    -- These two are left out without a passphrase, whatever their values are.
    entry (c.passphrase.length != 0 && c.kmPreAnnounce != d.kmPreAnnounce) "kmpreannounce"
      (formatUint c.kmPreAnnounce),
    entry (c.passphrase.length != 0 && c.kmRefreshRate != d.kmRefreshRate) "kmrefreshrate"
      (formatUint c.kmRefreshRate),
    entry (c.latency != d.latency) "latency" (formatInt c.latency.milliseconds),
    entry (c.lossMaxTTL != d.lossMaxTTL) "lossmaxttl" (formatInt c.lossMaxTTL.toUInt64.toInt64),
    entry (c.maxBW != d.maxBW) "maxbw" (formatInt c.maxBW),
    -- The default it is compared with is that of `InputBW`.
    entry (c.minInputBW != d.inputBW) "mininputbw" (formatInt c.minInputBW),
    entry (c.messageAPI != d.messageAPI) "messageapi" (formatBool c.messageAPI),
    entry (c.mss != d.mss) "mss" (formatUint c.mss.toUInt64),
    entry (c.nakReport != d.nakReport) "nakreport" (formatBool c.nakReport),
    entry (c.overheadBW != d.overheadBW) "oheadbw" (formatInt c.overheadBW),
    entry (c.packetFilter != d.packetFilter) "packetfilter" c.packetFilter,
    entry (c.passphrase.length != 0) "passphrase" c.passphrase,
    entry (c.payloadSize != d.payloadSize) "payloadsize" (formatUint c.payloadSize.toUInt64),
    entry (c.pbKeylen != d.pbKeylen) "pbkeylen" (formatInt c.pbKeylen),
    entry (c.peerIdleTimeout != d.peerIdleTimeout) "peeridletimeo"
      (formatInt c.peerIdleTimeout.milliseconds),
    entry (c.peerLatency != d.peerLatency) "peerlatency" (formatInt c.peerLatency.milliseconds),
    entry (c.receiverBufferSize != d.receiverBufferSize) "rcvbuf"
      (formatInt c.receiverBufferSize.toUInt64.toInt64),
    entry (c.receiverLatency != d.receiverLatency) "rcvlatency"
      (formatInt c.receiverLatency.milliseconds),
    entry (c.sendBufferSize != d.sendBufferSize) "sndbuf"
      (formatInt c.sendBufferSize.toUInt64.toInt64),
    entry (c.sendDropDelay != d.sendDropDelay) "snddropdelay"
      (formatInt c.sendDropDelay.milliseconds),
    entry (c.streamId.length != 0) "streamid" c.streamId,
    entry (c.tooLatePacketDrop != d.tooLatePacketDrop) "tlpktdrop"
      (formatBool c.tooLatePacketDrop),
    entry (c.transmissionType != d.transmissionType) "transtype" c.transmissionType,
    entry (c.tsbpdMode != d.tsbpdMode) "tsbpdmode" (formatBool c.tsbpdMode)]

/-- The values after a list of blocks. -/
def setEntries (q : Values) (blocks : List (String × Option Bytes)) : Values :=
  blocks.foldl (fun q block =>
    match block.2 with
    | some text => q.set (goString block.1) text
    | none => q) q

/-- `MarshalQuery`. -/
def marshalQuery (codec : QueryCodec) (c : FullConfig Logger Control) : Bytes :=
  codec.encode (setEntries ∅ c.entries)

/-! ### `UnmarshalQuery` -/

section
variable (v : Values) (key : String)

/-- A block of `UnmarshalQuery`. A value that is missing, empty or cannot be converted leaves the
field as it is. -/
def readField {α : Type} (convert : Bytes → Option α) (old : α) : α :=
  let s := v.get (goString key)
  if s.length ≠ 0 then (convert s).getD old else old

def readString (old : Bytes) : Bytes := readField v key some old

/-- `time.Duration(d) * time.Millisecond`. -/
def readDuration (old : Duration) : Duration :=
  readField v key (fun s => (parseInt s).map fun d => d * 1000000) old

/-- The words for true and for false. -/
def parseSwitch (s : Bytes) : Option Bool :=
  if s ∈ [goString "yes", goString "on", goString "true", goString "1"] then some true
  else if s ∈ [goString "no", goString "off", goString "false", goString "0"] then some false
  else none

def readBool (old : Bool) : Bool := readField v key parseSwitch old

def readInt (old : Int64) : Int64 := readField v key parseInt old

def readUint32 (old : UInt32) : UInt32 :=
  readField v key (fun s => (parseUint 32 s).map UInt32.ofNat) old

def readUint64 (old : UInt64) : UInt64 :=
  readField v key (fun s => (parseUint 64 s).map UInt64.ofNat) old

end

/-- The blocks of `UnmarshalQuery`. The minimal version is not read. -/
def readValues (c : FullConfig Logger Control) (v : Values) : FullConfig Logger Control :=
  { c with
    congestion := readString v "congestion" c.congestion
    connectionTimeout := readDuration v "conntimeo" c.connectionTimeout
    driftTracer := readBool v "drifttracer" c.driftTracer
    enforcedEncryption := readBool v "enforcedencryption" c.enforcedEncryption
    fc := readUint32 v "fc" c.fc
    groupConnect := readBool v "groupconnect" c.groupConnect
    groupStabilityTimeout := readDuration v "groupstabtimeo" c.groupStabilityTimeout
    inputBW := readInt v "inputbw" c.inputBW
    iptos := readInt v "iptos" c.iptos
    ipttl := readInt v "ipttl" c.ipttl
    ipv6Only := readInt v "ipv6only" c.ipv6Only
    kmPreAnnounce := readUint64 v "kmpreannounce" c.kmPreAnnounce
    kmRefreshRate := readUint64 v "kmrefreshrate" c.kmRefreshRate
    latency := readDuration v "latency" c.latency
    lossMaxTTL := readUint32 v "lossmaxttl" c.lossMaxTTL
    maxBW := readInt v "maxbw" c.maxBW
    minInputBW := readInt v "mininputbw" c.minInputBW
    messageAPI := readBool v "messageapi" c.messageAPI
    mss := readUint32 v "mss" c.mss
    nakReport := readBool v "nakreport" c.nakReport
    overheadBW := readInt v "oheadbw" c.overheadBW
    packetFilter := readString v "packetfilter" c.packetFilter
    passphrase := readString v "passphrase" c.passphrase
    payloadSize := readUint32 v "payloadsize" c.payloadSize
    pbKeylen := readInt v "pbkeylen" c.pbKeylen
    peerIdleTimeout := readDuration v "peeridletimeo" c.peerIdleTimeout
    peerLatency := readDuration v "peerlatency" c.peerLatency
    receiverBufferSize := readUint32 v "rcvbuf" c.receiverBufferSize
    receiverLatency := readDuration v "rcvlatency" c.receiverLatency
    sendBufferSize := readUint32 v "sndbuf" c.sendBufferSize
    sendDropDelay := readDuration v "snddropdelay" c.sendDropDelay
    streamId := readString v "streamid" c.streamId
    tooLatePacketDrop := readBool v "tlpktdrop" c.tooLatePacketDrop
    transmissionType := readString v "transtype" c.transmissionType
    tsbpdMode := readBool v "tsbpdmode" c.tsbpdMode }

/-- `UnmarshalQuery`, with the configuration that it leaves in its receiver. -/
def unmarshalQuery (codec : QueryCodec) (c : FullConfig Logger Control) (query : Bytes) :
    Go (FullConfig Logger Control) := do
  let v ← codec.parseQuery query
  return c.readValues v

end FullConfig

end Gosrt
