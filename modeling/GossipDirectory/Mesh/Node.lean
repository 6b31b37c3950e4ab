import GossipDirectory.Mesh.Publisher
import GossipDirectory.Peerstore.Reload
import GossipDirectory.Swarm.Spawn

/-!
# The life of a mesh node

A node joins its room at most once. A start that fails leaves everything as before, so another
start may follow; after a start that succeeded every further one is refused. A node that is told to
stop is closed for good.

## Implementation notes

Every start has a token of its own below the token of the whole process. `rootCancelled` says
whether that one is cancelled; a token below it then is, too.
-/

namespace GossipDirectory

/-- Where a node stands. -/
inductive MeshState
  | uninitialized
  | connecting
  | joined
  | subscribed
  | closed
  deriving DecidableEq, Repr

/-- The name of a node's standing. -/
def MeshState.name : MeshState → String
  | .uninitialized => "uninitialized"
  | .connecting => "connecting"
  | .joined => "joined"
  | .subscribed => "subscribed"
  | .closed => "closed"

/-- A task of a running node. -/
inductive MeshTask
  | network
  | receiving
  | persisting
  deriving DecidableEq, Repr

/-- A node. -/
structure Node where
  phase : MeshState := .uninitialized
  publisher : Publisher := .idle
  /-- The network task of a node that has joined. -/
  network : Option Worker := none
  /-- Whether the token of the last start was cancelled. -/
  token : Option Bool := none
  tasks : List MeshTask := []
  /-- How many starts have told that they are over. -/
  readySignals : Nat := 0

/-- What a start draws at random. -/
structure Randomness where
  /-- The seed of a node without one. -/
  seed : Bytes
  /-- The order of the bootstrap addresses. -/
  bootstrap : List Nat
  /-- The order of the peers of a snapshot. -/
  snapshot : List Nat

namespace Node

/-- The token of the last start is cancelled. -/
def tokenCancelled (n : Node) (rootCancelled : Bool) : Bool :=
  match n.token with
  | some cancelled => cancelled || rootCancelled
  | none => false

/-- Where the node stands for others to see. -/
def state (n : Node) (rootCancelled : Bool) : MeshState :=
  if n.tokenCancelled rootCancelled && n.phase = .subscribed then .closed else n.phase

/-- The node has joined its room. -/
def valid (n : Node) : Bool :=
  n.publisher.connected

/-- The peer id of a node that has joined. -/
def peer? (n : Node) : Option PeerId :=
  n.network.map (·.me)

/-- Publishes a text. -/
def publish (n : Node) (text : String) : Except Failure (Option Bytes) :=
  n.publisher.publish text

/-- Publishes an envelope. -/
def publishMessage (n : Node) (m : Message) : Except Failure (Option Bytes) :=
  n.publisher.publishMessage m

/-- Brings up the network task. -/
def joinNetwork (m : Machine) (o : Options) (r : Randomness) :
    Except Failure (SwarmSettings × Worker) := do
  let identity ← Identity.ofOptions o.p2p o.bus.childId r.seed
  let settings ← SwarmSettings.ofOptions o identity m.binds
  let worker ← Worker.spawn settings m r.bootstrap
  return (settings, worker)

/-- Dials a peer of the snapshot; its outcome does not matter. -/
def redial (m : Machine) (w : Worker) (entry : KnownPeer × ConnectionId) : Worker :=
  let ((peer, addresses), id) := entry
  (w.connect m 0 (maxBootstrapPeers + id) peer addresses).2

/-- The network after the peers of the snapshot were dialed again. Bootstrap nodes and nodes that
keep no snapshot dial nobody. -/
def rejoin (m : Machine) (o : Options) (r : Randomness) (s : SwarmSettings) (w : Worker) :
    Except Failure Worker :=
  if nodeRole [s.listen] s.bootstrap ≠ .bootstrap ∧ o.p2p.peerstoreEnabled then do
    let dials ← Snapshot.redials w.me o.p2p o.bus.childId m.files r.snapshot
    return dials.zipIdx.foldl (redial m) w
  else .ok w

/-- The tasks of a node that has joined. -/
def runningTasks (o : Options) : List MeshTask :=
  [.network, .receiving] ++ if o.p2p.peerstoreEnabled then [.persisting] else []

/-- The node while its start goes on. -/
def connecting (n : Node) (rootCancelled : Bool) : Node :=
  { n with phase := .connecting, token := some rootCancelled }

/-- The node after its network task was brought up. -/
def joined (n : Node) (w : Worker) : Node :=
  { n with
    phase := .joined, publisher := { connected := true }, network := some w, tasks := [.network] }

/-- The node after a failed start. -/
def abandoned (n : Node) : Node :=
  { n with
    phase := .uninitialized, publisher := .idle, network := none, tasks := []
    token := n.token.map fun _ => true }

/-- Tries to bring the node up. The node that comes with a failure is the one left behind by the
steps that went well. -/
def tryStart (n : Node) (m : Machine) (o : Options) (r : Randomness) (rootCancelled : Bool) :
    Except Failure Unit × Node :=
  let n := n.connecting rootCancelled
  match joinNetwork m o r with
  | .error e => (.error e, n)
  | .ok (settings, worker) =>
    let n := n.joined worker
    match rejoin m o r settings worker with
    | .error e => (.error e, n)
    | .ok worker =>
      (.ok (), { n with phase := .subscribed, network := some worker, tasks := runningTasks o })

/-- Starts the node. However it ends, one signal tells that it is over. -/
def start (n : Node) (m : Machine) (o : Options) (r : Randomness) (rootCancelled : Bool) :
    Except Failure Unit × Node :=
  let signalled (n : Node) : Node := { n with readySignals := n.readySignals + 1 }
  if n.phase ≠ .uninitialized then (.error (.gossip .alreadyStarted), signalled n)
  else match n.tryStart m o r rootCancelled with
    | (.ok (), n) => (.ok (), signalled n)
    | (.error e, n) => (.error e, signalled n.abandoned)

/-- Stops the node and waits for its tasks. -/
def shutdown (n : Node) : Node :=
  { n with
    token := n.token.map fun _ => true
    tasks := []
    phase := if n.phase = .subscribed then .closed else n.phase }

end Node

end GossipDirectory
