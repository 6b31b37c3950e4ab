import GossipDirectory.Address.Multiaddr
import GossipDirectory.Error
import GossipDirectory.Text.Blank
import GossipDirectory.Text.Hex

/-!
# Options of a node

Options are resolved once, from built-in defaults, a file and the command line, and never change
afterwards. Strings and numbers treat empty and zero as "not given".

## Implementation notes

Port arithmetic saturates: a shard whose id is out of range listens on the last port.
-/

namespace GossipDirectory

/-- Options of the peer-to-peer node. -/
structure PeerOptions where
  /-- Hexadecimal ed25519 seed; without one the node uses plain network addresses. -/
  seed : String := ""
  /-- Addresses of known peers, separated by commas. -/
  bootstrap : String := ""
  hostname : String := ""
  listenPort : UInt16 := 1042
  lowWater : UInt64 := 16
  highWater : UInt64 := 40
  room : String := "samourai-p2p"
  dhtServerMode : Bool := false
  peerstoreFile : String := "-"
  socksProxy : String := "127.0.0.1:9050"
  deriving DecidableEq, Repr, Inhabited

/-- Degrees of the gossip mesh. -/
structure MeshOptions where
  /-- How many mesh neighbours are wanted. -/
  d : UInt64 := 10
  dlo : UInt64 := 8
  dhi : UInt64 := 20
  /-- How many of them have to be outbound at least. -/
  dout : UInt64 := 5
  dscore : UInt64 := 7
  dlazy : UInt64 := 10
  prunePeers : UInt64 := 40
  /-- How many providers are dialed for each rendezvous query. -/
  limit : UInt64 := 40
  deriving DecidableEq, Repr, Inhabited

/-- Options of the message bus between a parent and its shards. -/
structure BusOptions where
  subject : String := "ipc.server"
  /-- Not zero when this process is a shard. -/
  childId : UInt32 := 0
  childProcessCount : UInt32 := 0
  natsHost : String := "localhost"
  natsPort : UInt16 := 4322
  deriving DecidableEq, Repr, Inhabited

/-- All options. -/
structure Options where
  logLevel : String := "info"
  logFile : String := "-"
  p2p : PeerOptions := {}
  gossip : MeshOptions := {}
  bus : BusOptions := {}
  deriving DecidableEq, Repr, Inhabited

/-- A port moved up by a child id; it stops at the last port. -/
def childPort (base : UInt16) (id : UInt32) : UInt16 :=
  UInt16.ofNat (min 65535 (base.toNat + min 65535 id.toNat))

namespace PeerOptions

/-- The file name that switches the peerstore off. -/
def peerstoreDisabled : String := "-"

/-- The node hides behind an onion service. -/
def torEnabled (p : PeerOptions) : Bool :=
  p.seed ≠ ""

/-- Known peers are written to a file. -/
def peerstoreEnabled (p : PeerOptions) : Bool :=
  p.peerstoreFile ≠ "" && p.peerstoreFile ≠ peerstoreDisabled

/-- The 32 bytes of the seed. -/
def seedBytes (p : PeerOptions) : Except Failure Bytes :=
  match Hex.decode (Blank.trimText p.seed) with
  | .error cause => .error (.config (.seedDigits cause))
  | .ok bytes => if bytes.length = 32 then .ok bytes else .error (.config .seedLength)

/-- The name of the network interface to listen on. -/
def host (p : PeerOptions) : String :=
  if p.hostname = "" then "0.0.0.0" else p.hostname

/-- The plain network address to listen on. -/
def clearnetListenAddress (p : PeerOptions) (port : UInt16) : Except Failure Multiaddr :=
  match IpAddress.parse? p.host.toList with
  | some ip => .ok (Multiaddr.ofHost ip port)
  | none => .error (.config (.hostname p.host))

end PeerOptions

namespace Options

/-- This process is a shard. -/
def isChild (o : Options) : Bool :=
  0 < o.bus.childId

/-- The port that this process listens on: a shard adds its id to the base port. -/
def effectiveListenPort (o : Options) : UInt16 :=
  childPort o.p2p.listenPort o.bus.childId

/-- Checks the options of a process before it starts. -/
def validate (o : Options) : Except Failure Unit := do
  if o.p2p.highWater < o.p2p.lowWater then
    .error (.config (.watermarks o.p2p.lowWater.toNat o.p2p.highWater.toNat))
  if o.p2p.room = "" then .error (.config .emptyRoom)
  if o.p2p.torEnabled then
    let _ ← o.p2p.seedBytes
  let _ ← o.p2p.clearnetListenAddress o.effectiveListenPort
  return ()

end Options

end GossipDirectory
