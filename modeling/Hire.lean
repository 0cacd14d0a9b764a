import Hire.Library.Text
import Hire.Library.Encoding
import Hire.Library.KeyedStore
import Hire.Library.Ranking
import Hire.Library.Action
import Hire.Library.Transition
import Hire.Library.Positional
import Hire.Library.FileSystem
import Hire.Library.Interference
import Hire.Library.Tampering
import Hire.Library.Framing
import Hire.Library.Growth
import Hire.Library.ByteStream
import Hire.Library.Recording
import Hire.Library.Streaming
import Hire.Library.Console
import Hire.Library.Binary64
import Hire.Library.Checked
import Hire.Core.SpiffeId
import Hire.Core.Assurance
import Hire.Core.Audience
import Hire.Core.Foreign
import Hire.Core.Pseudonym
import Hire.Core.Signer
import Hire.Core.Thumbprint
import Hire.Core.TrustBundle
import Hire.Core.Hvid
import Hire.Core.Hint
import Hire.Core.Selector
import Hire.Core.HintGrammar
import Hire.Attestors.Keys
import Hire.Attestors.Claim
import Hire.Attestors.Lattice
import Hire.Attestors.Attestor
import Hire.Attestors.SshAgent
import Hire.Attestors.Tailscale
import Hire.Attestors.GpgKeyring
import Hire.Attestors.Registry
import Hire.Attestors.Passwd
import Hire.Attestors.Base58
import Hire.Attestors.Verify
import Hire.Attestors.GpgListing
import Hire.Attestors.Chunked
import Hire.Attestors.AgentKeys
import Hire.Attestors.Footprint
import Hire.Grpc.Service
import Hire.Grpc.Policy
import Hire.Grpc.Freshness
import Hire.Grpc.Consent
import Hire.Grpc.Entitlement
import Hire.Grpc.Protobuf
import Hire.Grpc.Validation
import Hire.Grpc.Renaming
import Hire.Grpc.Pseudonymity
import Hire.Grpc.Naming
import Hire.Grpc.Reply
import Hire.Grpc.Socket
import Hire.Grpc.SocketDir
import Hire.Grpc.Bundles
import Hire.Grpc.Signing
import Hire.Grpc.ConsumerAttest
import Hire.Grpc.Connections
import Hire.Hired.Wiring
import Hire.Hired.Lifecycle
import Hire.Hired.Exactness
import Hire.Hired.Levels
import Hire.Hired.Provenance
import Hire.Hired.Namespaces
import Hire.Hired.Availability
import Hire.Hired.Restart
import Hire.Hired.Takeover
import Hire.Nmh.Host
import Hire.Nmh.Frames
import Hire.Nmh.Session
import Hire.Nmh.Daemon
import Hire.Cli.Prove
import Hire.Cli.Commands
import Hire.Cli.Orderly
import Hire.Cli.Watch
import Hire.Cli.Output
import Hire.Cli.Daemon
import Hire.Cli.Decode
