import GossipDirectory.Collection.Settle
import GossipDirectory.Swarm.Task

/-!
# A start that returns to known peers

A node that has brought up its network task dials the peers of its snapshot and waits for all the
outcomes before it goes on. Only after that somebody takes gossip out of the inbound queue.

## Implementation notes

All dials go on at the same time. Each waits first for room among the network's commands and then
for its answer; a dial whose answer is lost counts as failed.
-/

namespace GossipDirectory

namespace Startup

/-- What a dial is waiting for. -/
inductive DialStage
  | sending
  | waiting
  | done
  deriving DecidableEq, Repr

/-- A dial of the start. -/
structure Dial where
  peer : PeerId
  addresses : List Multiaddr
  reply : ReplyId
  stage : DialStage := .sending
  deriving DecidableEq, Repr

/-- The start and the network task that it uses. -/
structure State where
  network : NetworkTask.State
  dials : List Dial
  /-- The start no longer waits. -/
  returned : Bool := false

/-- What can happen during a start. -/
inductive Action
  | network (a : NetworkTask.Action)
  /-- A dial's command finds room, or nobody to take it. -/
  | send (dial : Nat)
  /-- A dial hears its outcome. -/
  | hear (dial : Nat)
  /-- The start goes on after its last dial. -/
  | proceed
  /-- The node is told to stop. -/
  | cancel
  deriving DecidableEq, Repr

/-- The start of a dial for each known peer. -/
def State.make (network : NetworkTask.State) (known : List KnownPeer) : State :=
  { network
    dials := known.zipIdx.map fun ((peer, addresses), reply) => { peer, addresses, reply } }

/-- The start after one of its dials changed. -/
def State.setStage (s : State) (i : Nat) (stage : DialStage) : State :=
  { s with dials := s.dials.modify i fun d => { d with stage } }

/-- A dial's command goes into the queue; without a network task the dial is over. -/
def State.sendDial (s : State) (i : Nat) (d : Dial) : Option State :=
  if s.network.commands.heard then
    (s.network.commands.send? (.connect d.peer d.addresses d.reply)).map fun commands =>
      { s with network := { s.network with commands } }.setStage i .waiting
  else some (s.setStage i .done)

/-- One step of the start. -/
def step (s : State) (a : Action) : Option State :=
  match a with
  | .network a => (NetworkTask.step s.network a).map fun network => { s with network }
  | .send i => do
    let d ← s.dials[i]?
    if d.stage = .sending then s.sendDial i d else none
  | .hear i => do
    let d ← s.dials[i]?
    if d.stage = .waiting ∧ s.network.resolved d.reply then some (s.setStage i .done) else none
  | .proceed =>
    if !s.returned && s.dials.all (·.stage = .done) then some { s with returned := true } else none
  | .cancel => some { s with network := { s.network with cancelled := true } }

/-- A dial waits for its outcome. -/
def State.waits (s : State) : Prop :=
  ∃ d ∈ s.dials, d.stage = .waiting

/-- The network task waits for room in the inbound queue. -/
def State.networkBlocked (s : State) : Prop :=
  (∃ g, s.network.stage = .handing g) ∧ s.network.inbound.heard ∧ ¬ s.network.inbound.hasRoom

end Startup

end GossipDirectory
