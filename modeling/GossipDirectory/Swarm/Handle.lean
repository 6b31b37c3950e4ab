import GossipDirectory.Swarm.Spawn

/-!
# Using the network

The other tasks of a node reach the network task through a handle. Once that task has ended, every
request fails in the same way.
-/

namespace GossipDirectory

/-- The network task as other tasks use it. -/
structure NetworkHandle where
  worker : Worker
  /-- The network task has ended. -/
  ended : Bool := false

/-- The task after the reports that are due. -/
def Worker.takeReports (w : Worker) : Worker :=
  w.unreported.foldl (fun w address => (w.handleEvent 0 [] (.listening address)).1)
    { w with unreported := [] }

namespace NetworkHandle

/-- The network task, if it is there to answer. -/
def reach (h : NetworkHandle) : Except Failure Worker :=
  if h.ended then .error .channelClosed else .ok h.worker

/-- Publishes to the room. -/
def publish (h : NetworkHandle) (data : Bytes) : Except Failure (List Request) := do
  let w ← h.reach
  return (w.handleCommand { id := 0 } (.publish data)).2

/-- Connects to a peer. -/
def connect (h : NetworkHandle) (m : Machine) (now : Millis) (id : ConnectionId) (peer : PeerId)
    (addresses : List Multiaddr) : Except Failure Unit × NetworkHandle :=
  match h.reach with
  | .error e => (.error e, h)
  | .ok w =>
    let (result, worker) := w.connect m now id peer addresses
    (result, { h with worker })

/-- The peers that are known. -/
def knownPeers (h : NetworkHandle) : Except Failure (List KnownPeer) :=
  h.reach.map (·.book.peers)

/-- The addresses that are listened on, once the network has reported them. -/
def listenAddresses (h : NetworkHandle) : Except Failure (List Multiaddr) :=
  h.reach.map (·.takeReports.listening)

/-- Ends the network task. -/
def stop (h : NetworkHandle) : NetworkHandle :=
  { h with ended := true }

end NetworkHandle

end GossipDirectory
