import GossipDirectory.Collection.Channel
import GossipDirectory.Swarm.Worker

/-!
# The network task among its queues

The network task takes commands from one queue and puts the gossip that reaches it into another.
While gossip waits for room the task does nothing else: it neither takes commands nor notices that
it was told to stop.

## Implementation notes

Reports of the network, the times of the timers and the first outcome of a dial come with the
actions. An answer counts as lost once the task has ended without giving it.
-/

namespace GossipDirectory

namespace NetworkTask

/-- What the task is waiting for. -/
inductive Stage
  | serving
  /-- Gossip waits for room in its queue. -/
  | handing (g : InboundGossip)
  | ended
  deriving DecidableEq, Repr

/-- The task with its two queues. -/
structure State where
  worker : Worker
  commands : Channel Command
  inbound : Channel InboundGossip
  stage : Stage := .serving
  /-- The task was told to stop. -/
  cancelled : Bool := false
  /-- Everything that was asked of the network or answered so far. -/
  requests : List Request := []

/-- What the task can do. -/
inductive Action
  /-- Notices that it was told to stop. -/
  | stop
  /-- Carries out the next command. -/
  | command (answer : DialAnswer)
  /-- Reacts to a report of the network. -/
  | report (now : Millis) (meshPeers : List PeerId) (event : SwarmEvent)
  /-- Advertises the room. -/
  | advertise (query : Nat)
  /-- Trims connections. -/
  | trim (now : Millis) (meshPeers : List PeerId)
  /-- Puts the gossip into its queue. -/
  | hand
  /-- Drops the gossip because nobody takes it. -/
  | discard
  deriving DecidableEq, Repr

/-- The task after its worker did something. -/
def State.did (s : State) (outcome : Worker × List Request) : State :=
  { s with worker := outcome.1, requests := s.requests ++ outcome.2 }

/-- The task has returned. Both queues lose it as their end. -/
def State.finish (s : State) : State :=
  { s with
    stage := .ended
    commands := s.commands.closeOutput
    inbound := s.inbound.closeInput }

/-- One step of the task. -/
def step (s : State) (a : Action) : Option State :=
  match a, s.stage with
  | .stop, .serving => if s.cancelled then some s.finish else none
  | .command answer, .serving =>
    (s.commands.receive?).map fun (c, commands) =>
      { s with commands }.did (s.worker.handleCommand answer c)
  | .report _ _ (.gossip g), .serving => some { s with stage := .handing g }
  | .report now meshPeers event, .serving =>
    some (s.did (s.worker.handleEvent now meshPeers event))
  | .advertise query, .serving => some (s.did (s.worker.advertise query))
  | .trim now meshPeers, .serving => some (s.did (s.worker, s.worker.trim now meshPeers))
  | .hand, .handing g =>
    (s.inbound.send? g).map fun inbound => { s with inbound, stage := .serving }
  | .discard, .handing _ =>
    if s.inbound.heard then none else some { s with stage := .serving }
  | _, _ => none

/-- The request answers a task that waits under `reply`. -/
def answers (reply : ReplyId) : Request → Bool
  | .answerConnect r _ | .answerPeers r _ | .answerAddresses r _ => r = reply
  | _ => false

/-- A task that waits under `reply` can go on: with an answer, or because none will come. -/
def State.resolved (s : State) (reply : ReplyId) : Bool :=
  s.requests.any (answers reply) || s.stage = .ended

/-- The known peers that were told under `reply`. -/
def State.toldPeers? (s : State) (reply : ReplyId) : Option (List KnownPeer) :=
  s.requests.findSome? fun
    | .answerPeers r known => if r = reply then some known else none
    | _ => none

end NetworkTask

end GossipDirectory
