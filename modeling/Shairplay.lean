import Shairplay.Lib.Serial
import Shairplay.Lib.Machine
import Shairplay.Lib.Playout
import Shairplay.Lib.Str
import Shairplay.Lib.Utf8
import Shairplay.Lib.Segment
import Shairplay.Lib.Bytes
import Shairplay.Lib.Bits
import Shairplay.Lib.Attempt
import Shairplay.Lib.Deframer
import Shairplay.Lib.OrderedMap
import Shairplay.Lib.Polling
import Shairplay.Lib.Keystream
import Shairplay.Lib.Custody
import Shairplay.Codec.Alac
import Shairplay.Codec.Alac.Rice
import Shairplay.Codec.Alac.Predictor
import Shairplay.Codec.Alac.Frame
import Shairplay.Codec.Alac.Buffers
import Shairplay.Codec.Alac.Output
import Shairplay.Codec.Alac.Plan
import Shairplay.Codec.Alac.Safety
import Shairplay.Codec.Alac.Memoryless
import Shairplay.Codec.Alac.Reader
import Shairplay.Codec.Alac.Cursor
import Shairplay.Codec.Alac.Encoder
import Shairplay.Codec.Alac.Lossless
import Shairplay.Codec.Alac.Verbatim
import Shairplay.Codec.Alac.Bijection
import Shairplay.Codec.Alac.Rounds
import Shairplay.Codec.Alac.Overflow
import Shairplay.Codec.Alac.Checked
import Shairplay.Codec.Alac.ShiftRange
import Shairplay.Codec.Resample
import Shairplay.Codec.Resample.Stream
import Shairplay.Codec.Aac
import Shairplay.Raop.Buffer
import Shairplay.Raop.Buffer.Refinement
import Shairplay.Raop.Buffer.Calls
import Shairplay.Raop.Buffer.Rejected
import Shairplay.Raop.Buffer.Flush
import Shairplay.Raop.Buffer.Alac
import Shairplay.Raop.Buffer.Frames
import Shairplay.Raop.Buffer.Playable
import Shairplay.Raop.Ntp
import Shairplay.Raop.Rtp
import Shairplay.Raop.Rtp.Tcp
import Shairplay.Raop.Rtp.Player
import Shairplay.Raop.Rtp.Udp
import Shairplay.Raop.Rtp.Reordering
import Shairplay.Raop.Rtp.Schedule
import Shairplay.Raop.Rtp.Start
import Shairplay.Proto.Digest
import Shairplay.Proto.Digest.Header
import Shairplay.Proto.Digest.Rendering
import Shairplay.Proto.Http
import Shairplay.Proto.Http.Segmentation
import Shairplay.Proto.Http.Limits
import Shairplay.Proto.Dmap
import Shairplay.Proto.Dmap.Items
import Shairplay.Net.Ptp
import Shairplay.Net.Server
import Shairplay.Net.Server.Loop
import Shairplay.Net.Server.Segmentation
import Shairplay.Net.Server.Blocks
import Shairplay.Crypto.Primitives
import Shairplay.Crypto.ChachaTransport
import Shairplay.Crypto.ChachaTransport.Framing
import Shairplay.Crypto.ChachaTransport.Integrity
import Shairplay.Crypto.ChachaTransport.Nonces
import Shairplay.Crypto.ChachaTransport.Frames
import Shairplay.Crypto.Tlv
import Shairplay.Crypto.Tlv.RoundTrip
import Shairplay.Crypto.Tlv.Continuation
import Shairplay.Crypto.PairingHomekit
import Shairplay.Crypto.PairingHomekit.Agreement
import Shairplay.Crypto.PairingHomekit.Wire
import Shairplay.Crypto.PairingHomekit.Controller
import Shairplay.Crypto.VideoCipher
import Shairplay.Crypto.Aes
import Shairplay.Crypto.CounterMode
import Shairplay.Raop.Connection
import Shairplay.Raop.Connection.Channel
import Shairplay.Raop.EventChannel
import Shairplay.Raop.Connection.Corrupted
import Shairplay.Proto.Sdp
import Shairplay.Proto.Sdp.Attributes
import Shairplay.Raop.Handlers
import Shairplay.Raop.Handlers.Ap1
import Shairplay.Raop.Handlers.Ap2
import Shairplay.Raop.Handlers.Setup
import Shairplay.Raop.Handlers.Control
import Shairplay.Raop.Handlers.Frame
import Shairplay.Raop.Handlers.Pairing
import Shairplay.Raop.Handlers.PairVerify
import Shairplay.Raop.Handlers.PairVerify.Client
import Shairplay.Raop.Handlers.Legacy
import Shairplay.Raop.Rtsp
import Shairplay.Raop.Handlers.Announce
import Shairplay.Raop.Handlers.Tasks
import Shairplay.Raop.Rtsp.Password
import Shairplay.Raop.System
import Shairplay.Raop.System.Pairing
import Shairplay.Raop.System.Peer
import Shairplay.Raop.System.Controller
import Shairplay.Raop.System.Audio
import Shairplay.Raop.System.Switch
import Shairplay.Raop.System.Ledger
import Shairplay.Raop.System.Tasks
import Shairplay.Raop.System.Timing
import Shairplay.Raop.AudioPipeline
import Shairplay.Raop.BufferedAudio.Payload
import Shairplay.Raop.BufferedAudio.AccessUnit
import Shairplay.Raop.BufferedAudio
import Shairplay.Raop.BufferedAudio.Steps
import Shairplay.Raop.BufferedAudio.Flush
import Shairplay.Raop.BufferedAudio.Pause
import Shairplay.Raop.BufferedAudio.Format
import Shairplay.Raop.BufferedAudio.Wrap
import Shairplay.Raop.BufferedAudio.Conservation
import Shairplay.Raop.BufferedAudio.Stop
import Shairplay.Raop.RealtimeAudio
import Shairplay.Raop.RealtimeAudio.Forged
import Shairplay.Raop.VideoStream
