import GossipDirectory.Onion.Transport
import GossipDirectory.Shard.Supervisor
import GossipDirectory.Swarm.Settings
import GossipDirectory.Swarm.Worker

/-!
# Bringing up the network of a node

Before the network task runs, the watermarks, the mesh degrees and the bootstrap peers are checked
and the node starts to listen; the task learns its address from the first report of it. Its
bootstrap peers are dialed at once; those dials do not matter for the start.

## Implementation notes

The machine that a node runs on is described by what it lets the node do. Names of connections made
at the start are given out in order.
-/

namespace GossipDirectory

/-- What a machine lets a node do. -/
structure Machine where
  files : FileTree
  /-- A port of the loopback interface can be bound. -/
  binds : UInt16 → Bool
  /-- A network address can be listened on. -/
  listens : Multiaddr → Bool
  /-- The peer that answers at an address, if one does. -/
  answers : Multiaddr → Option PeerId
  /-- A message bus can be reached at a host and port. -/
  reaches : String → UInt16 → Bool
  /-- What starting a program does. -/
  launch : Launch → Except Failure ChildProcess
  /-- The program that is running. -/
  executable : String

/-- A machine that listens on its IPv4 addresses above the system ports, and from which nothing can
be reached. -/
def Machine.secluded (files : FileTree) (executable : String)
    (launch : Launch → Except Failure ChildProcess) : Machine :=
  let free (port : UInt16) : Bool := port = 0 || 1024 ≤ port
  { files, executable, launch
    binds := free
    listens := fun a => match a with
      | [.ip4 _, .port .tcp port] => free port
      | _ => false
    answers := fun _ => none
    reaches := fun _ _ => false }

namespace SwarmSettings

/-- The address can be listened on. The onion transport serves its own address only. -/
def canListen (s : SwarmSettings) (m : Machine) : Bool :=
  match s.proxy with
  | none => m.listens s.listen
  | some _ =>
    match OnionEndpoint.ofMultiaddr s.listen with
    | .error _ => false
    | .ok endpoint =>
      match (OnionTransport.listenOn { service := some { endpoint } } 0 s.listen).1 with
      | .ok () => true
      | .error _ => false

end SwarmSettings

namespace Worker

/-- What becomes of dialing a peer at some addresses. -/
def dialResult (m : Machine) (peer : PeerId) (addresses : List Multiaddr) :
    Except TransportError Multiaddr :=
  match addresses.find? fun a => m.answers a = some peer with
  | some address => .ok address
  | none =>
    if addresses.any fun a => (m.answers a).isSome then .error .dial else .error .negotiation

/-- The dial that the network refuses at once: to nowhere, or to the node itself. -/
def refusal? (w : Worker) (peer : PeerId) (addresses : List Multiaddr) : Option TransportError :=
  if addresses.isEmpty ∨ peer = w.me then some .dial else none

/-- The report that ends a dial. -/
def dialReport (m : Machine) (id : ConnectionId) (peer : PeerId) (addresses : List Multiaddr) :
    SwarmEvent :=
  match dialResult m peer addresses with
  | .ok address => .established id peer (some address)
  | .error cause => .dialFailed id (some peer) (.failed cause)

/-- Connects to a peer and waits for the outcome. -/
def connect (w : Worker) (m : Machine) (now : Millis) (id : ConnectionId) (peer : PeerId)
    (addresses : List Multiaddr) : Except Failure Unit × Worker :=
  let answer : DialAnswer := { id, refusal := w.refusal? peer addresses }
  let (w, requests) := w.handleCommand answer (.connect peer addresses 0)
  match requests with
  | [.answerConnect _ result] => (result, w)
  | [.dial id peer addresses] =>
    let (w, requests) := w.handleEvent now [] (dialReport m id peer addresses)
    match requests with
    | .answerConnect _ result :: _ => (result, w)
    | _ => (.error .channelClosed, w)
  | _ => (.error .channelClosed, w)

/-- The peers of the bootstrap addresses are known to the lookup network and dialed. -/
def meetBootstrap (m : Machine) (w : Worker) (entry : (PeerId × Multiaddr) × ConnectionId) :
    Worker :=
  let ((peer, address), id) := entry
  if peer = w.me then w
  else
    let (w, _) := w.handleEvent 0 [] (.routed peer [address] none)
    (w.handleEvent 0 [] (dialReport m id peer [address])).1

/-- Brings up the network task. -/
def spawn (s : SwarmSettings) (m : Machine) (draws : List Nat) : Except Failure Worker := do
  let connections ← ConnectionManager.make s.lowWater s.highWater ConnectionManager.defaultGrace
  checkDegrees s.gossip
  let me := s.identity.peer
  let dht ← Dht.enter me s.mode s.bootstrap draws
  if !s.canListen m then .error (.transport (.listen s.listen.toText))
  let w : Worker :=
    { me, mode := s.mode, bootstrap := s.bootstrap, connections
      book := .empty
      rendezvous := .ofRoom s.room s.gossip.limit.toNat
      pendingDials := [], links := [], listening := [], unreported := [s.listen] }
  return dht.peers.zipIdx.foldl (meetBootstrap m) w

end Worker

end GossipDirectory
