import SshClient.Control.WP
import SshClient.Control.Runs
import SshClient.Control.Simulation
import SshClient.Control.Composed
import SshClient.Text.Split
import SshClient.Text.Base64
import SshClient.Number.BigEndian
import SshClient.Basic
import SshClient.Crypto
import SshClient.Common.Messages
import SshClient.Common.Encoding
import SshClient.Common.Fields
import SshClient.Socket
import SshClient.Socket.Schedule
import SshClient.KnownHosts.Basic
import SshClient.KnownHosts.Store
import SshClient.KnownHosts.Separation
import SshClient.Connection.Basic
import SshClient.Connection.Formats
import SshClient.Connection.Exact
import SshClient.Connection.FlowControl
import SshClient.Trace
import SshClient.Transport.Basic
import SshClient.Transport.Frames
import SshClient.Transport.RoundTrip
import SshClient.Transport.Integrity
import SshClient.Transport.Exact
import SshClient.Transport.Schedule
import SshClient.Transport.Emission
import SshClient.Transport.Supply
import SshClient.Kex.Basic
import SshClient.Kex.Formats
import SshClient.Kex.Transcript
import SshClient.Kex.HostKey
import SshClient.Kex.Negotiation
import SshClient.Common.Codecs
import SshClient.Auth
import SshClient.Memory.Machine
import SshClient.Memory.Parsers
import SshClient.Terminal
import SshClient.Client.World
import SshClient.Client.Config
import SshClient.Client.Target
import SshClient.Client.Handshake
import SshClient.Client.Session
import SshClient.Client.Main
import SshClient.Client.Identification
import SshClient.Client.Exceptions
import SshClient.Client.Composition
import SshClient.Protocol.Machine
import SshClient.Protocol.Refinement
import SshClient.Protocol.Session
import SshClient.Protocol.Windows
import SshClient.Protocol.Closing
import SshClient.Protocol.Requests
import SshClient.Protocol.Hangup
import SshClient.Protocol.ClientMessages
import SshClient.Protocol.Handshake
import SshClient.Protocol.Program
import SshClient.Protocol.Order
import SshClient.Protocol.Dialog
import SshClient.Protocol.Streams
import SshClient.Program.Termination
import SshClient.Program.Alike
import SshClient.Program.Schedule
import SshClient.Program.Conversation
import SshClient.Program.Peer
import SshClient.Program.Streams
import SshClient.Program.Trust
import SshClient.Program.Service
import SshClient.Program.Opening
import SshClient.Program.Completion
