import GossipDirectory.Address.Ip
import GossipDirectory.Address.Multiaddr
import GossipDirectory.Address.PeerId
import GossipDirectory.Address.TaggedDigest
import GossipDirectory.Address.Text
import GossipDirectory.Bus.Broker
import GossipDirectory.Bus.ChildRelay
import GossipDirectory.Bus.Fleet
import GossipDirectory.Bus.ParentRelay
import GossipDirectory.Collection.Channel
import GossipDirectory.Collection.Keyed
import GossipDirectory.Collection.Settle
import GossipDirectory.Collection.Shuffle
import GossipDirectory.CommandLine.Flag
import GossipDirectory.CommandLine.Resolve
import GossipDirectory.CommandLine.Scan
import GossipDirectory.Crypto.Ed25519
import GossipDirectory.Crypto.Sha3
import GossipDirectory.Crypto.Sha512
import GossipDirectory.Dht.Bootstrap
import GossipDirectory.Dht.Role
import GossipDirectory.Directory.Apply
import GossipDirectory.Directory.Basic
import GossipDirectory.Directory.Consumer
import GossipDirectory.Envelope.Message
import GossipDirectory.Envelope.Mutation
import GossipDirectory.Error
import GossipDirectory.FileTree
import GossipDirectory.Identity
import GossipDirectory.Json.DecodeError
import GossipDirectory.Json.Printer
import GossipDirectory.Json.Reader
import GossipDirectory.Json.Symbol
import GossipDirectory.Json.Value
import GossipDirectory.Logging
import GossipDirectory.Main
import GossipDirectory.Mesh.Node
import GossipDirectory.Mesh.Publisher
import GossipDirectory.Mesh.ReceiveLoop
import GossipDirectory.Mesh.Room
import GossipDirectory.Mesh.Startup
import GossipDirectory.Mesh.Tasks
import GossipDirectory.Number.Double
import GossipDirectory.Number.Shortest
import GossipDirectory.Onion.Endpoint
import GossipDirectory.Onion.Proxy
import GossipDirectory.Onion.Transport
import GossipDirectory.Options.Basic
import GossipDirectory.Options.File
import GossipDirectory.Options.Layer
import GossipDirectory.Peerstore.Persistence
import GossipDirectory.Peerstore.Reload
import GossipDirectory.Peerstore.Snapshot
import GossipDirectory.Peerstore.Task
import GossipDirectory.Proofs.Address.IpText
import GossipDirectory.Proofs.Address.Legibility
import GossipDirectory.Proofs.Address.MultiaddrText
import GossipDirectory.Proofs.Address.PeerIdText
import GossipDirectory.Proofs.Address.TaggedDigest
import GossipDirectory.Proofs.Bus.CallRecord
import GossipDirectory.Proofs.Bus.FleetExactness
import GossipDirectory.Proofs.Bus.FleetParts
import GossipDirectory.Proofs.Bus.ParentReadiness
import GossipDirectory.Proofs.Bus.RelaySteps
import GossipDirectory.Proofs.Bus.ShardPublishing
import GossipDirectory.Proofs.Bus.Subscriptions
import GossipDirectory.Proofs.Collection.Drawing
import GossipDirectory.Proofs.Collection.Interleaving
import GossipDirectory.Proofs.Collection.Outcome
import GossipDirectory.Proofs.Collection.Past
import GossipDirectory.Proofs.Collection.Runs
import GossipDirectory.Proofs.CommandLine.AcceptedSettings
import GossipDirectory.Proofs.CommandLine.GivenSettings
import GossipDirectory.Proofs.Dht.BootstrapList
import GossipDirectory.Proofs.Dht.BootstrapPeers
import GossipDirectory.Proofs.Dht.Promotion
import GossipDirectory.Proofs.Directory.Accounting
import GossipDirectory.Proofs.Directory.Applying
import GossipDirectory.Proofs.Directory.Duplicates
import GossipDirectory.Proofs.Directory.History
import GossipDirectory.Proofs.Directory.Listing
import GossipDirectory.Proofs.Directory.Slots
import GossipDirectory.Proofs.Envelope.Acceptance
import GossipDirectory.Proofs.Envelope.DocumentRead
import GossipDirectory.Proofs.Envelope.Mutations
import GossipDirectory.Proofs.Envelope.RoundTrip
import GossipDirectory.Proofs.FileTree
import GossipDirectory.Proofs.Json.DocumentValue
import GossipDirectory.Proofs.Json.Grammar
import GossipDirectory.Proofs.Json.NumeralRead
import GossipDirectory.Proofs.Json.PlainText
import GossipDirectory.Proofs.Json.ReadShape
import GossipDirectory.Proofs.Json.SequenceRead
import GossipDirectory.Proofs.Json.StringRead
import GossipDirectory.Proofs.Json.TextRead
import GossipDirectory.Proofs.Json.WrittenText
import GossipDirectory.Proofs.Mesh.LifeCycle
import GossipDirectory.Proofs.Mesh.ReceiveExactness
import GossipDirectory.Proofs.Mesh.RoomExchange
import GossipDirectory.Proofs.Mesh.ShardDeadlock
import GossipDirectory.Proofs.Mesh.ShardTasks
import GossipDirectory.Proofs.Mesh.Shutdown
import GossipDirectory.Proofs.Mesh.StartupDeadlock
import GossipDirectory.Proofs.Mesh.StartupDials
import GossipDirectory.Proofs.Mesh.StartupRun
import GossipDirectory.Proofs.Mesh.TaskEnds
import GossipDirectory.Proofs.Onion.Dialing
import GossipDirectory.Proofs.Onion.ListenerLife
import GossipDirectory.Proofs.Onion.OwnAddress
import GossipDirectory.Proofs.Onion.ServiceNames
import GossipDirectory.Proofs.Options.Complete
import GossipDirectory.Proofs.Options.FileSettings
import GossipDirectory.Proofs.Options.Layering
import GossipDirectory.Proofs.Options.Loading
import GossipDirectory.Proofs.Options.Precedence
import GossipDirectory.Proofs.Options.Usable
import GossipDirectory.Proofs.Peerstore.Poisoning
import GossipDirectory.Proofs.Peerstore.RecordText
import GossipDirectory.Proofs.Peerstore.Redialing
import GossipDirectory.Proofs.Peerstore.RoundTrip
import GossipDirectory.Proofs.Shard.Acceptance
import GossipDirectory.Proofs.Shard.Inheritance
import GossipDirectory.Proofs.Shard.Ports
import GossipDirectory.Proofs.Shard.Supervision
import GossipDirectory.Proofs.Swarm.ConnectAnswers
import GossipDirectory.Proofs.Swarm.ConnectionHistory
import GossipDirectory.Proofs.Swarm.ConnectionSeries
import GossipDirectory.Proofs.Swarm.KnownAddresses
import GossipDirectory.Proofs.Swarm.RendezvousBudget
import GossipDirectory.Proofs.Swarm.Replies
import GossipDirectory.Proofs.Swarm.SpawnHistory
import GossipDirectory.Proofs.Swarm.Trimming
import GossipDirectory.Proofs.Swarm.WorkerChanges
import GossipDirectory.Proofs.Swarm.WorkerHistory
import GossipDirectory.Proofs.Text.Base32
import GossipDirectory.Proofs.Text.Base58
import GossipDirectory.Proofs.Text.BitAlphabet
import GossipDirectory.Proofs.Text.Bits
import GossipDirectory.Proofs.Text.Encoding
import GossipDirectory.Proofs.Text.Percent
import GossipDirectory.Server.Modes
import GossipDirectory.Server.Program
import GossipDirectory.Shard.Descriptor
import GossipDirectory.Shard.Supervisor
import GossipDirectory.Swarm.ConnectionManager
import GossipDirectory.Swarm.Handle
import GossipDirectory.Swarm.PeerBook
import GossipDirectory.Swarm.Rendezvous
import GossipDirectory.Swarm.Settings
import GossipDirectory.Swarm.Spawn
import GossipDirectory.Swarm.Task
import GossipDirectory.Swarm.Worker
import GossipDirectory.Text.Base32
import GossipDirectory.Text.Base58
import GossipDirectory.Text.BitAlphabet
import GossipDirectory.Text.Bits
import GossipDirectory.Text.Blank
import GossipDirectory.Text.Decimal
import GossipDirectory.Text.Hex
import GossipDirectory.Text.Multibase
import GossipDirectory.Text.Percent
import GossipDirectory.Text.Printable
import GossipDirectory.Text.Quoted
import GossipDirectory.Text.Radix
import GossipDirectory.Text.Utf8
import GossipDirectory.Yaml.Cursor
import GossipDirectory.Yaml.Node
import GossipDirectory.Yaml.Property
import GossipDirectory.Yaml.Scalar
import GossipDirectory.Yaml.Scanner
import GossipDirectory.Yaml.Tree
