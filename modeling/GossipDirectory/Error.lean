import GossipDirectory.FileTree
import GossipDirectory.Json.DecodeError
import GossipDirectory.Text.Hex

/-!
# Failures

Every operation that can fail says why by one of these causes. A failure's text starts with the
part of the node that it belongs to.
-/

namespace GossipDirectory

/-- Options that cannot be used. -/
inductive ConfigError
  | watermarks (low high : Nat)
  | connectionWatermarks (low high : Nat)
  | emptyRoom
  | seedDigits (cause : Hex.Malformed)
  | seedLength
  | hostname (name : String)
  | socksProxy (proxy : String)
  | unreadableFile (path : String) (cause : FileError)
  | logFile (path : String) (cause : FileError)
  /-- The file is no document of options. -/
  | document (detail : String)
  deriving DecidableEq, Repr

/-- What is wrong with the value of an address segment. -/
inductive ValueDefect
  | noDigits
  | badDigit
  | tooLarge
  | ipv4
  | ipv6
  /-- A text that does not write bytes in its base. -/
  | digits
  /-- A text whose first character names no base. -/
  | unknownBase (code : Char)
  /-- A peer id or a digest of a certificate that is no tagged digest. -/
  | digest
  /-- A peer id whose hash function is not allowed for ids, or not for one of its length. -/
  | hashCode (code : Nat)
  | notText
  deriving DecidableEq, Repr

/-- Texts that are no address, and addresses that do not serve their purpose. -/
inductive AddressError
  /-- The text does not start like an address, or an onion address is not well-formed. -/
  | notAnAddress
  | unknownProtocol (name : String)
  /-- A protocol stands without its value, or a garlic address has a wrong length. -/
  | missingValue
  /-- A number, network address, peer id, digest, garlic address or path that cannot be read. -/
  | unreadableValue (defect : ValueDefect)
  | notOnion (address : String)
  | onionPort (port : Nat)
  | noPeer (address : String)
  deriving DecidableEq, Repr

/-- Connections that cannot be made. -/
inductive TransportError
  | listen (address : String)
  /-- The dial was refused at once, or another peer answered. -/
  | dial
  /-- Nobody answers, or the address cannot be dialed. -/
  | negotiation
  deriving DecidableEq, Repr

/-- Meshes that cannot be joined. -/
inductive GossipError
  | degreeOrder
  | outboundDegree
  | alreadyStarted
  deriving DecidableEq, Repr

/-- Peer snapshots that cannot be used. -/
inductive SnapshotError
  | malformed (path : String) (cause : Json.DecodeError)
  | peerId (text : String)
  | address (text : String) (cause : AddressError)
  deriving DecidableEq, Repr

/-- Message bus failures. -/
inductive BusError
  | unreachable (host : String) (port : Nat)
  | refused (detail : String)
  deriving DecidableEq, Repr

/-- Shard processes that cannot be started. -/
inductive SpawnError
  | noExecutable (path : String)
  | reservedId
  | alreadyRunning (id : Nat)
  | launch (name detail : String)
  deriving DecidableEq, Repr

/-- A failure of the node. -/
inductive Failure
  | config (cause : ConfigError)
  | invalidAddress (cause : AddressError)
  | transport (cause : TransportError)
  | gossip (cause : GossipError)
  | serialization (cause : Json.DecodeError)
  | peerstore (cause : SnapshotError)
  /-- An entry would live shorter than the given number of seconds. -/
  | directory (minimum : Nat)
  | bus (cause : BusError)
  | spawn (cause : SpawnError)
  | channelClosed
  | emptyMessage
  | io (cause : FileError)
  deriving DecidableEq, Repr

/-- The wording of a hexadecimal text's defect. -/
def Hex.Malformed.message : Hex.Malformed → String
  | .oddLength => "Odd number of digits"
  | .badDigit byte position =>
    "Invalid character " ++ Quoted.char (Char.ofNat byte.toNat) ++ " at position " ++
      Decimal.text position

/-- The wording of a configuration error. -/
def ConfigError.message : ConfigError → String
  | .watermarks low high =>
    "low watermark " ++ Decimal.text low ++ " exceeds high watermark " ++ Decimal.text high
  | .connectionWatermarks low high =>
    "connection manager low watermark " ++ Decimal.text low ++ " exceeds high watermark " ++
      Decimal.text high
  | .emptyRoom => "room must not be empty"
  | .seedDigits cause => "invalid p2p seed: " ++ cause.message
  | .seedLength => "p2p seed must be 32 bytes"
  | .hostname name => "invalid p2p hostname " ++ name
  | .socksProxy proxy => "invalid socks proxy " ++ proxy ++ ": expected host:port"
  | .unreadableFile path cause => "unable to read " ++ path ++ ": " ++ cause.message
  | .logFile path cause => "invalid log file " ++ path ++ ": " ++ cause.message
  | .document detail => detail

/-- The wording of a value's defect. -/
def ValueDefect.message : ValueDefect → String
  | .noDigits => "cannot parse integer from empty string"
  | .badDigit => "invalid digit found in string"
  | .tooLarge => "number too large to fit in target type"
  | .ipv4 => "invalid IPv4 address syntax"
  | .ipv6 => "invalid IPv6 address syntax"
  | .digits => "Invalid base string"
  | .unknownBase code => "Unknown base code: " ++ String.singleton code
  | .digest => "invalid multihash"
  | .hashCode code => "unsupported multihash code '" ++ Decimal.text code ++ "'"
  | .notText => "invalid utf-8 sequence"

/-- The wording of an address error. -/
def AddressError.message : AddressError → String
  | .notAnAddress => "invalid multiaddr"
  | .unknownProtocol name => "unknown protocol string: " ++ name
  | .missingValue => "invalid protocol string"
  | .unreadableValue defect => "failed to parse: " ++ defect.message
  | .notOnion address => address ++ " is not a single onion3 address"
  | .onionPort port => "onion port " ++ Decimal.text port ++ " outside [1024, 65535)"
  | .noPeer address => address ++ " does not end with a /p2p/<peer id> segment"

/-- The wording of a transport error. -/
def TransportError.message : TransportError → String
  | .listen address => "failed to listen on " ++ address
  | .dial => "Dial error"
  | .negotiation => "Failed to negotiate transport protocol(s)"

/-- The wording of a mesh error. -/
def GossipError.message : GossipError → String
  | .degreeOrder =>
    "The ineauality doesn't hold mesh_outbound_min <= mesh_n_low <= mesh_n <= mesh_n_high"
  | .outboundDegree =>
    "The inequality doesn't hold mesh_outbound_min <= self.config.mesh_n / 2"
  | .alreadyStarted => "mesh already started"

/-- The wording of a snapshot error. -/
def SnapshotError.message : SnapshotError → String
  | .malformed path cause => "malformed " ++ path ++ ": " ++ cause.message
  | .peerId text => "invalid peer id " ++ text ++ ": not a peer id"
  | .address text cause => "invalid address " ++ text ++ ": " ++ cause.message

/-- The wording of a bus error. -/
def BusError.message : BusError → String
  | .unreachable host port =>
    "unable to reach nats at " ++ host ++ ":" ++ Decimal.text port ++ ": connection refused"
  | .refused detail => detail

/-- The wording of a spawn error. -/
def SpawnError.message : SpawnError → String
  | .noExecutable path => "soroban executable not found: " ++ path
  | .reservedId => "child id 0 is reserved for the parent"
  | .alreadyRunning id => "child " ++ Decimal.text id ++ " already running"
  | .launch name detail => name ++ ": " ++ detail

/-- The wording of a failure. -/
def Failure.message : Failure → String
  | .config cause => "configuration error: " ++ cause.message
  | .invalidAddress cause => "invalid address: " ++ cause.message
  | .transport cause => "transport error: " ++ cause.message
  | .gossip cause => "gossip error: " ++ cause.message
  | .serialization cause => "serialization error: " ++ cause.message
  | .peerstore cause => "peerstore error: " ++ cause.message
  | .directory minimum =>
    "directory error: time to live must be at least " ++ Decimal.text minimum ++ "s"
  | .bus cause => "IPC error: " ++ cause.message
  | .spawn cause => "spawn error: " ++ cause.message
  | .channelClosed => "network channel closed"
  | .emptyMessage => "failed to publish empty message"
  | .io cause => "IO error: " ++ cause.message

end GossipDirectory
