import GossipDirectory.Bus.ChildRelay
import GossipDirectory.Bus.ParentRelay
import GossipDirectory.Directory.Consumer
import GossipDirectory.Mesh.Node

/-!
# The modes of a process

A process with a shard id is a mesh node that relays between its room and the bus. A process that
shall have shards owns the directory, starts the shards and applies what they relay. Every other
process is a mesh node that feeds a directory of its own.
-/

namespace GossipDirectory

/-- What a process is. -/
inductive ServerMode
  | shard
  | parent
  | standalone
  deriving DecidableEq, Repr

/-- The mode that options ask for. -/
def Options.mode (o : Options) : ServerMode :=
  if o.isChild then .shard
  else if 0 < o.bus.childProcessCount then .parent
  else .standalone

/-- A process that is up. -/
inductive Server
  | shard (node : Node) (relay : ChildRelay.State)
  | parent (supervisor : Supervisor) (relay : ParentRelay.State)
  | standalone (node : Node) (consumer : Consumer.State)

namespace Server

/-- How many decoded envelopes wait between a mesh node and their consumer. -/
def messageQueue : Nat := 256

/-- How many commands wait for the network task. -/
def commandQueue : Nat := 64

/-- How much gossip waits for the receive loop. -/
def inboundQueue : Nat := 128

/-- The bus can be reached. -/
def reachBus (m : Machine) (o : Options) : Except Failure Unit :=
  if m.reaches o.bus.natsHost o.bus.natsPort then .ok ()
  else .error (.bus (.unreachable o.bus.natsHost o.bus.natsPort.toNat))

/-- The ids of the shards of a parent. -/
def shardIds (count : UInt32) : List UInt32 :=
  (List.range count.toNat).map fun i => UInt32.ofNat (i + 1)

/-- The node of a process that is a mesh node. -/
def startNode (m : Machine) (o : Options) (r : Randomness) (cancelled : Bool) :
    Except Failure Node :=
  match Node.start {} m o r cancelled with
  | (.ok (), node) => .ok node
  | (.error e, _) => .error e

/-- Brings a process up. A parent reaches the bus and starts its shards before it subscribes. -/
def start (m : Machine) (o : Options) (r : Randomness) (cancelled : Bool) : Except Failure Server :=
  match o.mode with
  | .shard => do
    reachBus m o
    let node ← startNode m o r cancelled
    return .shard node
      { subjects := .below o.bus.subject
        childId := o.bus.childId
        publisher := node.publisher
        bus := {}
        inbox := { capacity := messageQueue }
        outbox := { capacity := commandQueue }
        cancelled }
  | .parent => do
    reachBus m o
    let supervisor ← Supervisor.ofExecutable m.files m.executable
    let all := supervisor.startAll o m.launch (shardIds o.bus.childProcessCount)
    all.result
    return .parent all.supervisor
      { subjects := .below o.bus.subject, bus := {}, directory := .empty, cancelled }
  | .standalone => do
    let node ← startNode m o r cancelled
    return .standalone node
      { queue := { capacity := messageQueue }, directory := .empty, cancelled }

/-- The result of a process that is told to stop. -/
def stop : Server → Except Failure Unit
  | .shard _ relay =>
    match ({ relay with cancelled := true }.settled 4).result? with
    | some result => result
    | none => .ok ()
  | .parent _ relay =>
    match ({ relay with cancelled := true }.settled Registry.standard 0 4).result? with
    | some result => result
    | none => .ok ()
  | .standalone _ _ => .ok ()

end Server

end GossipDirectory
