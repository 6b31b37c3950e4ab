import GossipDirectory.Mesh.Publisher
import GossipDirectory.Mesh.ReceiveLoop

/-!
# A room

The nodes of a room publish envelopes, and the mesh between them carries what was published to any
node, through any forwarder, at any later time, as often as it likes or not at all. It tells the
true author of everything.

## Implementation notes

A node is named by its place in the room. What a node's consumer has taken is in the history of its
receive loop.
-/

namespace GossipDirectory

namespace Room

/-- Something that a node has published. -/
structure Publication where
  author : PeerId
  message : Message
  data : Bytes
  deriving DecidableEq, Repr

/-- The receive loops of the nodes, and everything published so far. -/
structure State where
  nodes : List ReceiveLoop.State
  published : List Publication := []
  deriving DecidableEq, Repr

/-- What can happen in a room. -/
inductive Action
  /-- A node publishes. -/
  | publish (node : Nat) (m : Message)
  /-- The mesh carries a publication to a node. -/
  | carry (publication node : Nat) (forwarder : PeerId)
  /-- A step of a node's receive loop. -/
  | receive (node : Nat) (a : ReceiveLoop.Action)
  /-- A node's consumer takes an envelope. -/
  | consume (node : Nat)
  /-- A node is told to stop. -/
  | cancel (node : Nat)
  deriving DecidableEq, Repr

/-- The publishing side of a node that has joined. -/
def publisher : Publisher :=
  { connected := true }

/-- The room after a node published. -/
def State.publish (s : State) (node : ReceiveLoop.State) (m : Message) : Option State :=
  match publisher.publishMessage m with
  | .ok (some data) =>
    some { s with published := s.published ++ [{ author := node.me, message := m, data }] }
  | .ok none => some s
  | .error _ => none

/-- One step of the room. -/
def step (s : State) (a : Action) : Option State :=
  match a with
  | .publish i m => (s.nodes[i]?).bind fun node => s.publish node m
  | .carry p i forwarder => do
    let publication ← s.published[p]?
    let node ← s.nodes[i]?
    let gossip : InboundGossip :=
      { forwarder, author := some publication.author, data := publication.data }
    let inbound ← node.inbound.send? gossip
    return { s with nodes := s.nodes.set i { node with inbound } }
  | .receive i a => do
    let node ← s.nodes[i]?
    let node ← ReceiveLoop.step node a
    return { s with nodes := s.nodes.set i node }
  | .consume i => do
    let node ← s.nodes[i]?
    let (_, delivery) ← node.delivery.receive?
    return { s with nodes := s.nodes.set i { node with delivery } }
  | .cancel i =>
    (s.nodes[i]?).map fun node =>
      { s with nodes := s.nodes.set i { node with cancelled := true } }

end Room

end GossipDirectory
