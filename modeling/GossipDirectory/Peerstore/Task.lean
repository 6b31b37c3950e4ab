import GossipDirectory.Peerstore.Snapshot
import GossipDirectory.Swarm.Task

/-!
# The snapshot task

Whenever a snapshot is due the task asks the network task for the known peers and writes them to
the file. It notices that it was told to stop only between two snapshots.

## Implementation notes

The network task answers under the number that comes with the action that starts a snapshot. If it
has ended the snapshot fails, which changes nothing.
-/

namespace GossipDirectory

namespace SnapshotTask

/-- What the task is waiting for. -/
inductive Stage
  | resting
  /-- The question waits for room among the network's commands. -/
  | asking (reply : ReplyId)
  | waiting (reply : ReplyId)
  | writing (known : List KnownPeer)
  | ended
  deriving DecidableEq, Repr

/-- The task with what it writes to. -/
structure State where
  options : PeerOptions
  childId : UInt32
  files : FileTree
  stage : Stage := .resting
  cancelled : Bool := false

/-- What the task can do. -/
inductive Action
  /-- Notices that it was told to stop. -/
  | stop
  /-- Starts a snapshot. -/
  | begin (reply : ReplyId)
  | ask
  | hear
  | write
  deriving DecidableEq, Repr

/-- The files after a snapshot. -/
def State.written (s : State) (me : PeerId) (known : List KnownPeer) : FileTree :=
  match Snapshot.persist me (.ok known) s.options s.childId s.files with
  | .ok (_, files) => files
  | .error _ => s.files

/-- One step of the task next to the network task. -/
def step (network : NetworkTask.State) (s : State) (a : Action) :
    Option (State × Channel Command) :=
  let commands := network.commands
  let alone (s : State) := some (s, commands)
  match a, s.stage with
  | .stop, .resting => if s.cancelled then alone { s with stage := .ended } else none
  | .begin reply, .resting => alone { s with stage := .asking reply }
  | .ask, .asking reply =>
    if commands.heard then
      (commands.send? (.knownPeers reply)).map fun commands =>
        ({ s with stage := .waiting reply }, commands)
    else alone { s with stage := .resting }
  | .hear, .waiting reply =>
    match network.toldPeers? reply with
    | some known => alone { s with stage := .writing known }
    | none => if network.stage = .ended then alone { s with stage := .resting } else none
  | .write, .writing known =>
    alone { s with stage := .resting, files := s.written network.worker.me known }
  | _, _ => none

end SnapshotTask

end GossipDirectory
