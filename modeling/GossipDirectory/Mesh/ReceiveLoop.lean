import GossipDirectory.Address.PeerId
import GossipDirectory.Collection.Channel
import GossipDirectory.Collection.Settle
import GossipDirectory.Envelope.Message

/-!
# Receiving from the room

The receive loop takes raw gossip from the network, drops what the node itself wrote or forwarded
and what is no envelope, and hands the rest to a consumer. It waits while the consumer's queue is
full, goes on when either end of it is gone, and stops only when it is told to.

## Implementation notes

Each wait of the loop is a stage; stopping is possible in all of them.
-/

namespace GossipDirectory

/-- Gossip as the network hands it over. -/
structure InboundGossip where
  /-- The peer that passed it on. -/
  forwarder : PeerId
  /-- The peer that signed it, if anybody did. -/
  author : Option PeerId
  data : Bytes
  deriving DecidableEq, Repr

namespace ReceiveLoop

/-- The envelope that gossip brings to the node `me`, if it brings one. -/
def accepted? (me : PeerId) (g : InboundGossip) : Option Message :=
  if g.forwarder = me ∨ g.author = some me then none
  else match Message.ofBytes g.data with
    | .ok m => some m
    | .error _ => none

/-- What the loop is waiting for. -/
inductive Stage
  | listening
  /-- The input has ended; after a while the loop looks again. -/
  | retrying
  /-- An envelope waits for room in the consumer's queue. -/
  | delivering (m : Message)
  | ended
  deriving DecidableEq, Repr

/-- The loop with its two channels. -/
structure State where
  me : PeerId
  inbound : Channel InboundGossip
  delivery : Channel Message
  stage : Stage := .listening
  /-- The loop was told to stop. -/
  cancelled : Bool := false
  /-- The gossip taken so far. -/
  consumed : List InboundGossip := []
  /-- The envelopes handed over so far. -/
  delivered : List Message := []
  deriving DecidableEq, Repr

/-- What the loop can do. -/
inductive Action
  /-- Notices that it was told to stop. -/
  | stop
  /-- Takes the next gossip. -/
  | receive
  /-- Notices that no more gossip will come. -/
  | noticeEnd
  /-- Looks for gossip again after a pause. -/
  | retry
  /-- Hands the envelope over. -/
  | deliver
  /-- Drops the envelope because nobody takes it. -/
  | discard
  deriving DecidableEq, Repr

/-- How long the loop pauses before it looks again, in milliseconds. -/
def retryDelay : Nat := 1000

/-- The loop has returned. Both channels lose it as their end. -/
def State.finish (s : State) : State :=
  { s with
    stage := .ended
    inbound := s.inbound.closeOutput
    delivery := s.delivery.closeInput }

/-- One step of the loop. -/
def step (s : State) (a : Action) : Option State :=
  match a, s.stage with
  | .stop, .ended => none
  | .stop, _ => if s.cancelled then some s.finish else none
  | .receive, .listening =>
    (s.inbound.receive?).map fun (g, inbound) =>
      let s := { s with inbound, consumed := s.consumed ++ [g] }
      match accepted? s.me g with
      | some m => { s with stage := .delivering m }
      | none => s
  | .noticeEnd, .listening =>
    if s.inbound.exhausted then some { s with stage := .retrying } else none
  | .retry, .retrying => some { s with stage := .listening }
  | .deliver, .delivering m =>
    (s.delivery.send? m).map fun delivery =>
      { s with delivery, delivered := s.delivered ++ [m], stage := .listening }
  | .discard, .delivering _ =>
    if s.delivery.heard then none else some { s with stage := .listening }
  | _, _ => none

/-- The actions that take no time. -/
def promptActions : List Action :=
  [.stop, .receive, .noticeEnd, .deliver, .discard]

/-- The loop after everything that it can do at once. -/
def State.settled (s : State) : State :=
  settle step promptActions (3 * s.inbound.items.length + 4) s

/-- Takes up to so many envelopes from the queue, and lets the loop go on after each. -/
def State.drain : Nat → State → List Message × State
  | 0, s => ([], s)
  | n + 1, s =>
    match s.delivery.receive? with
    | none => ([], s)
    | some (m, delivery) =>
      let (rest, s) := drain n { s with delivery }.settled
      (m :: rest, s)

/-- The loop after a pause that is long enough to look again. -/
def State.afterPause (s : State) : State :=
  ((step s .retry).getD s).settled

end ReceiveLoop

end GossipDirectory
