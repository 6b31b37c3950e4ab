import GossipDirectory.Bus.Broker
import GossipDirectory.Collection.Channel
import GossipDirectory.Collection.Settle
import GossipDirectory.Mesh.Publisher
import GossipDirectory.Swarm.Worker

/-!
# The relay of a shard

A shard subscribes to the envelopes for all shards, announces that it is ready, and then passes
envelopes both ways: from the room to the parent, and from the parent into the room. Bytes from the
parent that are no envelope are skipped; the envelope is published byte for byte as it came.

## Implementation notes

The commands of the node's network are a channel; `outbox` is that channel. Publishing waits for
room in it, and the relay does nothing else meanwhile, not even stop.
-/

namespace GossipDirectory

/-- The context of a shard's handshake. -/
def readyContext : String := "ipc.ready"

/-- The handshake of a shard. -/
def readyMessage (childId : UInt32) : Message :=
  { context := readyContext
    payload := .object [("child_id",
      .number (.integer (.ofUInt64 (UInt64.ofNat childId.toNat))))] }

namespace ChildRelay

/-- What the relay is waiting for. -/
inductive Stage
  | subscribing
  | announcing (subscription : Nat)
  | serving (subscription : Nat)
  /-- Bytes wait for room among the network's commands. -/
  | publishing (subscription : Nat) (data : Bytes)
  | ended (result : Except Failure Unit)

/-- The relay with its ends. -/
structure State where
  subjects : Subjects
  childId : UInt32
  publisher : Publisher
  bus : Bus
  /-- Envelopes from the room. -/
  inbox : Channel Message
  /-- Commands for the network. -/
  outbox : Channel Command
  stage : Stage := .subscribing
  cancelled : Bool := false
  /-- The envelopes passed to the parent so far. -/
  forwarded : List Message := []
  /-- What was taken from the parent so far. -/
  taken : List Bytes := []
  /-- The texts handed to the publisher so far. -/
  handed : List String := []

/-- What the relay can do. -/
inductive Action
  | subscribe
  | announce
  /-- Notices that it was told to stop. -/
  | stop
  /-- Passes the next envelope from the room to the parent. -/
  | forward
  /-- Takes the next bytes from the parent. -/
  | take
  /-- Hands a publication to the network. -/
  | handOver
  /-- Drops a publication because the network is gone. -/
  | discard
  deriving DecidableEq, Repr

/-- The text of an envelope, if bytes from the parent hold one. -/
def envelopeText? (data : Bytes) : Option String := do
  let text ← Utf8.decode? data
  match Message.ofBytes data with
  | .ok _ => some text
  | .error _ => none

/-- The relay returns. Its subscription and its inbox lose their reader. -/
def State.finish (s : State) (subscription : Option Nat) (result : Except Failure Unit) : State :=
  { s with
    stage := .ended result
    inbox := s.inbox.closeOutput
    bus := match subscription with
      | some id => s.bus.leave id
      | none => s.bus }

/-- The relay after it handed a text to the publisher. -/
def State.publishText (s : State) (subscription : Nat) (text : String) : State :=
  let s := { s with handed := s.handed ++ [text] }
  match s.publisher.publish text with
  | .ok (some data) => { s with stage := .publishing subscription data }
  | .ok none => s
  | .error _ => s

/-- One step of the relay. -/
def step (s : State) (a : Action) : Option State :=
  match a, s.stage with
  | .subscribe, .subscribing =>
    let (answer, bus) := s.bus.subscribe s.subjects.children
    let s := { s with bus }
    match answer with
    | .ok id => some { s with stage := .announcing id }
    | .error e => some (s.finish none (.error e))
  | .announce, .announcing id =>
    let (answer, bus) := s.bus.publish s.subjects.ready (readyMessage s.childId).toBytes
    let s := { s with bus }
    match answer with
    | .ok () => some { s with stage := .serving id }
    | .error e => some (s.finish (some id) (.error e))
  | .stop, .serving id => if s.cancelled then some (s.finish (some id) (.ok ())) else none
  | .forward, .serving _ =>
    (s.inbox.receive?).map fun (m, inbox) =>
      { s with
        inbox
        bus := (s.bus.publish s.subjects.parent m.toBytes).2
        forwarded := s.forwarded ++ [m] }
  | .take, .serving id =>
    match s.bus.reading id with
    | .nothing => none
    | .ended => some (s.finish (some id) (.ok ()))
    | .data data =>
      let s := { s with bus := s.bus.advance id, taken := s.taken ++ [data] }
      match envelopeText? data with
      | some text => some (s.publishText id text)
      | none => some s
  | .handOver, .publishing id data =>
    (s.outbox.send? (.publish data)).map fun outbox => { s with outbox, stage := .serving id }
  | .discard, .publishing id _ =>
    if s.outbox.heard then none else some { s with stage := .serving id }
  | _, _ => none

/-- All actions; stopping comes first. -/
def actions : List Action :=
  [.stop, .subscribe, .announce, .forward, .take, .handOver, .discard]

/-- The relay after up to `fuel` steps. -/
def State.settled (s : State) (fuel : Nat) : State :=
  settle step actions fuel s

/-- The result of a relay that has returned. -/
def State.result? (s : State) : Option (Except Failure Unit) :=
  match s.stage with
  | .ended result => some result
  | _ => none

end ChildRelay

end GossipDirectory
