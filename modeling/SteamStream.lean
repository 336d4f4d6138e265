import SteamStream.Library.Wire
import SteamStream.Library.CText
import SteamStream.Library.BinaryFloat
import SteamStream.Library.Runs
import SteamStream.Library.Traced
import SteamStream.Library.Erasure
import SteamStream.Library.Files
import SteamStream.Library.Search
import SteamStream.Fec.Nanors
import SteamStream.Video.Packet
import SteamStream.Video.Payloader
import SteamStream.Video.FecBlock
import SteamStream.Video.Cut
import SteamStream.Video.Blocks
import SteamStream.Video.Sequence
import SteamStream.Video.Lossless
import SteamStream.Video.Recovery
import SteamStream.Video.Metadata
import SteamStream.Video.Percentage
import SteamStream.Video.Totality
import SteamStream.Video.FecOff
import SteamStream.Crypto.X509
import SteamStream.Crypto.Hex
import SteamStream.Rtsp.Receive
import SteamStream.Session.Registry
import SteamStream.Session.Lookup
import SteamStream.Rest.Helpers
import SteamStream.Rest.Launch
import SteamStream.Rest.Clients
import SteamStream.Control.Packets
import SteamStream.Control.Decrypt
import SteamStream.Control.Input
import SteamStream.Control.Server
import SteamStream.Control.Bounds
import SteamStream.Server.System
import SteamStream.Server.Isolation
import SteamStream.State.PairedClients
import SteamStream.State.Durability
import SteamStream.State.Identity
import SteamStream.State.Restart
import SteamStream.Pairing.Handshake
import SteamStream.Pairing.System
import SteamStream.Pairing.Safety
import SteamStream.Pairing.Order
import SteamStream.Pairing.Client
import SteamStream.Pairing.Unpair
import SteamStream.Pairing.Completeness
import SteamStream.Server.Connect
import SteamStream.Server.Steps
import SteamStream.Server.Orphans
import SteamStream.Server.Threads
import SteamStream.Server.Teardown
import SteamStream.Server.Play
import SteamStream.Server.Termination
import SteamStream.Server.Relaunch
import SteamStream.Media.AppProcess
import SteamStream.Audio.Payloader
import SteamStream.Audio.FecBlock
import SteamStream.Audio.Clock
import SteamStream.Audio.Rekey
import SteamStream.Library.Peg
import SteamStream.Library.SortedMap
import SteamStream.Rtsp.Parser
import SteamStream.Rtsp.RoundTrip
import SteamStream.Rtsp.NormalForm
import SteamStream.Rtsp.Commands
import SteamStream.Rtsp.Negotiation
import SteamStream.Rtsp.Renegotiation
import SteamStream.Rest.ServerInfo
import SteamStream.Input.VirtualGamepad
import SteamStream.Media.Gamepads
import SteamStream.Media.UdpSink
import SteamStream.Library.QuotedWords
import SteamStream.Media.AudioPipeline
import SteamStream.Library.Elimination
import SteamStream.Fec.Field
import SteamStream.Fec.Decode
import SteamStream.Fec.Restore
import SteamStream.Audio.Recovery
import SteamStream.Rtsp.Bitrate
import SteamStream.Audio.Bounds
import SteamStream.Library.Toml
import SteamStream.Media.EncoderConfig
import SteamStream.Library.Cauchy
import SteamStream.Fec.Cauchy
import SteamStream.Video.Receiver
import SteamStream.Video.Delivery
import SteamStream.Library.Slots
import SteamStream.Audio.Delivery
import SteamStream.Library.Fmt
import SteamStream.Media.Encoders
import SteamStream.Media.VideoPipeline
import SteamStream.Library.History
import SteamStream.Input.PointerSync
import SteamStream.Control.Client
import SteamStream.Server.Inputs
import SteamStream.Library.Lines
import SteamStream.Server.Objects
import SteamStream.Rtsp.Exchange
import SteamStream.Input.Devices
import SteamStream.Media.Controllers
import SteamStream.Library.Properties
import SteamStream.Library.Mirror
import SteamStream.Input.FakeUdev
import SteamStream.Input.Hotplug
import SteamStream.Media.Shutdown
