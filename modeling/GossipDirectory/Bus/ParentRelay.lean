import GossipDirectory.Bus.Broker
import GossipDirectory.Collection.Settle
import GossipDirectory.Directory.Apply

/-!
# The relay of the parent

The parent subscribes to the envelopes of its shards and to their handshakes, and applies every
envelope to its directory. Bytes that are no envelope are skipped, refused envelopes change nothing.
-/

namespace GossipDirectory

namespace ParentRelay

/-- What the relay is waiting for. -/
inductive Stage
  | subscribing
  /-- Subscribed to envelopes, not yet to handshakes. -/
  | subscribingReady (envelopes : Nat)
  | serving (envelopes handshakes : Nat)
  | ended (result : Except Failure Unit)

/-- The relay with its bus and its directory. -/
structure State where
  subjects : Subjects
  bus : Bus
  directory : Directory
  stage : Stage := .subscribing
  cancelled : Bool := false
  /-- The envelopes applied so far. -/
  applied : List Message := []

/-- What the relay can do. -/
inductive Action
  | subscribe
  | subscribeReady
  /-- Notices that it was told to stop. -/
  | stop
  /-- Takes the next bytes of a shard. -/
  | take
  /-- Takes the next handshake. -/
  | greet
  deriving DecidableEq, Repr

/-- The relay returns and leaves its subscriptions. -/
def State.finish (s : State) (subscriptions : List Nat) (result : Except Failure Unit) : State :=
  { s with stage := .ended result, bus := subscriptions.foldl Bus.leave s.bus }

/-- The relay after bytes of a shard. -/
def State.receive (s : State) (registry : Registry) (now : Millis) (data : Bytes) : State :=
  match Message.ofBytes data with
  | .error _ => s
  | .ok m =>
    { s with directory := s.directory.deliver registry m now, applied := s.applied ++ [m] }

/-- One step of the relay at a time. -/
def step (registry : Registry) (now : Millis) (s : State) (a : Action) : Option State :=
  match a, s.stage with
  | .subscribe, .subscribing =>
    let (answer, bus) := s.bus.subscribe s.subjects.parent
    let s := { s with bus }
    match answer with
    | .ok id => some { s with stage := .subscribingReady id }
    | .error e => some (s.finish [] (.error e))
  | .subscribeReady, .subscribingReady envelopes =>
    let (answer, bus) := s.bus.subscribe s.subjects.ready
    let s := { s with bus }
    match answer with
    | .ok id => some { s with stage := .serving envelopes id }
    | .error e => some (s.finish [envelopes] (.error e))
  | .stop, .serving envelopes handshakes =>
    if s.cancelled then some (s.finish [envelopes, handshakes] (.ok ())) else none
  | .take, .serving envelopes handshakes =>
    match s.bus.reading envelopes with
    | .nothing => none
    | .ended => some (s.finish [envelopes, handshakes] (.ok ()))
    | .data data =>
      some ({ s with bus := s.bus.advance envelopes }.receive registry now data)
  | .greet, .serving _ handshakes =>
    match s.bus.reading handshakes with
    | .data _ => some { s with bus := s.bus.advance handshakes }
    | _ => none
  | _, _ => none

/-- All actions; stopping comes first. -/
def actions : List Action :=
  [.stop, .subscribe, .subscribeReady, .take, .greet]

/-- The relay after up to `fuel` steps. -/
def State.settled (s : State) (registry : Registry) (now : Millis) (fuel : Nat) : State :=
  settle (step registry now) actions fuel s

/-- The result of a relay that has returned. -/
def State.result? (s : State) : Option (Except Failure Unit) :=
  match s.stage with
  | .ended result => some result
  | _ => none

end ParentRelay

end GossipDirectory
