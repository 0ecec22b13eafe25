import Gosrt.Lib.Bytes
import Gosrt.Lib.Go
import Gosrt.Lib.Run
import Gosrt.Lib.Serial
import Gosrt.Spec.Circular
import Gosrt.Spec.Packet
import Gosrt.Spec.KeyMaterial
import Gosrt.Spec.IP
import Gosrt.Spec.Handshake
import Gosrt.Spec.Live.Receive
import Gosrt.Spec.Live.Send
import Gosrt.Spec.Live.Link
import Gosrt.Proofs.Circular
import Gosrt.Proofs.Live.Receive
import Gosrt.Proofs.Live.Send
import Gosrt.Proofs.Live.Link
import Gosrt.Proofs.Handshake
import Gosrt.Lib.Passes
import Gosrt.Spec.Crypto
import Gosrt.Spec.Config
import Gosrt.Spec.Connection
import Gosrt.Spec.Stream
import Gosrt.Proofs.KeyMaterial
import Gosrt.Proofs.Crypto
import Gosrt.Proofs.Connection
import Gosrt.Proofs.Resend
import Gosrt.Proofs.Config
import Gosrt.Proofs.Rekey
import Gosrt.Spec.Dial
import Gosrt.Proofs.Dial
import Gosrt.Spec.Listen
import Gosrt.Proofs.HandshakeCodec
import Gosrt.Spec.Exchange
import Gosrt.Proofs.Listen
import Gosrt.Proofs.Exchange.Parameters
import Gosrt.Proofs.Exchange.Keys
import Gosrt.Lib.Sort
import Gosrt.Spec.Wire
import Gosrt.Proofs.Wire
import Gosrt.Proofs.Payload
import Gosrt.Proofs.Keystream
import Gosrt.Proofs.Live.Receiving
import Gosrt.Proofs.Live.Sending
import Gosrt.Proofs.Live.Accounting
import Gosrt.Proofs.Live.NakPath
import Gosrt.Lib.Index
import Gosrt.Spec.Registry
import Gosrt.Proofs.Registry
import Gosrt.Spec.Handle
import Gosrt.Lib.Epoch
import Gosrt.Proofs.Handle
import Gosrt.Proofs.Tsbpd
import Gosrt.Proofs.Exchange.Size
import Gosrt.Proofs.HandshakeRoundTrip
import Gosrt.Spec.Session
import Gosrt.Proofs.Session
import Gosrt.Proofs.Admission
import Gosrt.Proofs.PayloadSize
import Gosrt.Proofs.Refresh
import Gosrt.Lib.Fifo
import Gosrt.Spec.PubSub
import Gosrt.Proofs.PubSub.Steps
import Gosrt.Proofs.PubSub.FanOut
import Gosrt.Proofs.Live.Acknowledge
import Gosrt.Proofs.Live.Reports
import Gosrt.Proofs.Live.Losses
import Gosrt.Lib.Ranges
import Gosrt.Proofs.Live.Retention
import Gosrt.Proofs.NakReport
import Gosrt.Proofs.ExtensionLocality
import Gosrt.Proofs.RequestKeys
import Gosrt.Lib.Buffer
import Gosrt.Spec.ReadWrite
import Gosrt.Proofs.Write
import Gosrt.Proofs.Read
import Gosrt.Spec.AckNumbers
import Gosrt.Proofs.AckNumbers
import Gosrt.Spec.Latency
import Gosrt.Proofs.Latency
import Gosrt.Spec.Statistics
import Gosrt.Proofs.Statistics
import Gosrt.Lib.Decimal
import Gosrt.Lib.Signed
import Gosrt.Spec.Address
import Gosrt.Spec.Rand
import Gosrt.Spec.ConfigQuery
import Gosrt.Proofs.CircularLaws
import Gosrt.Proofs.Address
import Gosrt.Proofs.Rand
import Gosrt.Proofs.ConfigQuery
import Gosrt.Lib.Channel
import Gosrt.Lib.Pair
import Gosrt.Spec.Control
import Gosrt.Spec.Endpoint
import Gosrt.Spec.Duplex
import Gosrt.Proofs.Endpoint.Ends
import Gosrt.Proofs.Endpoint.Wire
import Gosrt.Proofs.Endpoint.Seal
import Gosrt.Proofs.Endpoint.Invariant
import Gosrt.Proofs.Endpoint.Operations
import Gosrt.Proofs.Endpoint.Handle
import Gosrt.Proofs.Duplex
import Gosrt.Proofs.Established
import Gosrt.Proofs.Endpoint.Repair
import Gosrt.Proofs.Repair
import Gosrt.Spec.Listening
import Gosrt.Proofs.Listening
import Gosrt.Proofs.Network
