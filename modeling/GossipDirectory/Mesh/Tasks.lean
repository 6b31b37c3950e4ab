import GossipDirectory.Bus.ChildRelay
import GossipDirectory.Directory.Consumer
import GossipDirectory.Mesh.ReceiveLoop
import GossipDirectory.Mesh.Startup
import GossipDirectory.Peerstore.Task

/-!
# The tasks of a running node

A running node consists of the network task, the receive loop, the snapshot task if there is a
snapshot file, and one task that uses the envelopes: the consumer of a node with a directory of its
own, or the relay of a shard. They share three bounded queues: commands for the network, gossip on
its way to the receive loop, and envelopes on their way to the last task.

## Implementation notes

The queues of the node are in force; the record of a task holds each queue as that task last saw
it. The node itself keeps a sender of the envelope queue, so this one never loses its last sender.
-/

namespace GossipDirectory

namespace NodeTasks

/-- The task that uses the envelopes. -/
inductive Application
  | consumer (s : Consumer.State)
  | relay (s : ChildRelay.State)

/-- The tasks of a node and what they share. -/
structure State where
  commands : Channel Command
  inbound : Channel InboundGossip
  delivery : Channel Message
  network : NetworkTask.State
  receiver : ReceiveLoop.State
  /-- Nothing for a node without a snapshot file. -/
  snapshots : Option SnapshotTask.State
  application : Application
  cancelled : Bool := false

/-- What the tasks can do and what can happen to them. -/
inductive Action
  | network (a : NetworkTask.Action)
  | receive (a : ReceiveLoop.Action)
  | snapshot (a : SnapshotTask.Action)
  | consume (now : Millis) (a : Consumer.Action)
  | relay (a : ChildRelay.Action)
  /-- The parent sends bytes to its shards. -/
  | instruct (data : Bytes)
  /-- The node is told to stop. -/
  | cancel
  deriving DecidableEq, Repr

/-- The network task with the queues in force. -/
def State.networkTask (s : State) : NetworkTask.State :=
  { s.network with commands := s.commands, inbound := s.inbound, cancelled := s.cancelled }

/-- The receive loop with the queues in force. -/
def State.receiveLoop (s : State) : ReceiveLoop.State :=
  { s.receiver with inbound := s.inbound, delivery := s.delivery, cancelled := s.cancelled }

/-- A step of the network task. -/
def State.stepNetwork (s : State) (a : NetworkTask.Action) : Option State :=
  (NetworkTask.step s.networkTask a).map fun t =>
    { s with network := t, commands := t.commands, inbound := t.inbound }

/-- A step of the receive loop. -/
def State.stepReceiver (s : State) (a : ReceiveLoop.Action) : Option State :=
  (ReceiveLoop.step s.receiveLoop a).map fun t =>
    { s with
      receiver := t
      inbound := t.inbound
      delivery := { t.delivery with fed := s.delivery.fed } }

/-- A step of the snapshot task. -/
def State.stepSnapshots (s : State) (a : SnapshotTask.Action) : Option State := do
  let t ← s.snapshots
  let (t, commands) ← SnapshotTask.step s.networkTask { t with cancelled := s.cancelled } a
  return { s with snapshots := some t, commands }

/-- A step of the consumer. -/
def State.stepConsumer (s : State) (now : Millis) (a : Consumer.Action) : Option State :=
  match s.application with
  | .consumer t =>
    (Consumer.step .standard now { t with queue := s.delivery, cancelled := s.cancelled } a).map
      fun t => { s with application := .consumer t, delivery := t.queue }
  | .relay _ => none

/-- A step of the relay. -/
def State.stepRelay (s : State) (a : ChildRelay.Action) : Option State :=
  match s.application with
  | .relay t =>
    let t := { t with inbox := s.delivery, outbox := s.commands, cancelled := s.cancelled }
    (ChildRelay.step t a).map fun t =>
      { s with application := .relay t, delivery := t.inbox, commands := t.outbox }
  | .consumer _ => none

/-- The node after the parent sent bytes to its shards. -/
def State.instructed (s : State) (data : Bytes) : Option State :=
  match s.application with
  | .relay t =>
    some { s with application := .relay { t with bus := t.bus.spread t.subjects.children data } }
  | .consumer _ => none

/-- One step of the node. -/
def step (s : State) (a : Action) : Option State :=
  match a with
  | .network a => s.stepNetwork a
  | .receive a => s.stepReceiver a
  | .snapshot a => s.stepSnapshots a
  | .consume now a => s.stepConsumer now a
  | .relay a => s.stepRelay a
  | .instruct data => s.instructed data
  | .cancel => some { s with cancelled := true }

/-- The action is a step of a task, and not something that the network, a clock or another process
brings about. -/
def Action.isOwn : Action → Bool
  | .network (.report _ _ _) | .network (.advertise _) | .network (.trim _ _) => false
  | .snapshot (.begin _) => false
  | .instruct _ | .cancel => false
  | _ => true

/-- Some task can go on by itself. -/
def State.canStep (s : State) : Prop :=
  ∃ a, a.isOwn ∧ (step s a).isSome

/-- The task that uses the envelopes has returned. -/
def Application.ended : Application → Bool
  | .consumer s => s.ended
  | .relay s => s.result?.isSome

/-- Bytes of the parent wait for the relay. -/
def Application.instructions : Application → List Bytes
  | .consumer _ => []
  | .relay s =>
    match s.stage with
    | .announcing id | .serving id | .publishing id _ =>
      ((s.bus.subscription? id).map (·.queue)).getD []
    | .subscribing | .ended _ => []

/-- The relay is on the way to hand something over. -/
def Application.occupied : Application → Bool
  | .consumer _ => false
  | .relay s =>
    match s.stage with
    | .subscribing | .announcing _ | .publishing _ _ => true
    | .serving _ | .ended _ => false

/-- The snapshot task is in the middle of a snapshot. -/
def State.takingSnapshot (s : State) : Bool :=
  match s.snapshots with
  | none => false
  | some t => t.stage ≠ .resting && t.stage ≠ .ended

/-- Something waits in a queue, or a task is on the way to hand something over. -/
def State.hasWork (s : State) : Prop :=
  s.commands.items ≠ [] ∨ s.inbound.items ≠ [] ∨ s.delivery.items ≠ [] ∨
    (∃ g, s.network.stage = .handing g) ∨ (∃ m, s.receiver.stage = .delivering m) ∨
    s.application.occupied ∨ s.application.instructions ≠ [] ∨ s.takingSnapshot

/-- Every task has returned. -/
def State.allEnded (s : State) : Prop :=
  s.network.stage = .ended ∧ s.receiver.stage = .ended ∧
    (∀ t ∈ s.snapshots, t.stage = .ended) ∧ s.application.ended

/-- The tasks of a node whose start has just returned, around the network task of that start. -/
def State.afterStart (network : NetworkTask.State) (delivery : Channel Message)
    (snapshots : Option SnapshotTask.State) (application : Application) : State :=
  { commands := network.commands
    inbound := network.inbound
    delivery, network, snapshots, application
    receiver := { me := network.worker.me, inbound := network.inbound, delivery }
    cancelled := network.cancelled }

end NodeTasks

end GossipDirectory
