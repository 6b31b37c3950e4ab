import GossipDirectory.Bus.ChildRelay
import GossipDirectory.Bus.ParentRelay

/-!
# A parent and its shards

A parent first starts its shards, one after the other, and then runs its relay. Every shard runs
its own relay from the moment it is started. All relays meet on one bus.

## Implementation notes

The bus of the fleet is in force; the record of a relay holds the bus as that relay last saw it.
What the meshes of the shards deliver, what their networks take, and what anybody else publishes on
the bus comes with the actions.
-/

namespace GossipDirectory

namespace Fleet

/-- The parent, its shards and the bus between them. -/
structure State where
  bus : Bus
  parent : ParentRelay.State
  /-- The shards that are still to be started, the next one first. -/
  waiting : List ChildRelay.State
  /-- The shards that were started. -/
  shards : List ChildRelay.State

/-- What can happen in a fleet. -/
inductive Action
  /-- The parent starts its next shard. -/
  | start
  /-- A step of the parent's relay. -/
  | parent (now : Millis) (a : ParentRelay.Action)
  /-- A step of a shard's relay. -/
  | shard (i : Nat) (a : ChildRelay.Action)
  /-- The mesh of a shard delivers an envelope. -/
  | deliver (i : Nat) (m : Message)
  /-- The network of a shard takes a command. -/
  | absorb (i : Nat)
  /-- Anybody else publishes. -/
  | outside (subject : String) (data : Bytes)
  /-- All relays are told to stop. -/
  | cancel
  deriving DecidableEq, Repr

/-- A shard that relays below a base subject, next to a node that has joined its room. -/
def shard (base : String) (id : UInt32) (inboxSize outboxSize : Nat) : ChildRelay.State :=
  { subjects := .below base, childId := id, publisher := { connected := true }, bus := {}
    inbox := { capacity := inboxSize }, outbox := { capacity := outboxSize } }

/-- A fleet of which nothing is started. -/
def make (base : String) (shards : List ChildRelay.State) : State :=
  { bus := {}
    parent := { subjects := .below base, bus := {}, directory := .empty }
    waiting := shards
    shards := [] }

/-- A shard's relay with the bus in force. -/
def State.relay? (s : State) (i : Nat) : Option ChildRelay.State :=
  (s.shards[i]?).map fun t => { t with bus := s.bus }

/-- The fleet after a shard's relay changed. -/
def State.setShard (s : State) (i : Nat) (t : ChildRelay.State) : State :=
  { s with shards := s.shards.set i t, bus := t.bus }

/-- One step of the fleet. -/
def step (s : State) (a : Action) : Option State :=
  match a with
  | .start =>
    match s.waiting with
    | t :: rest => some { s with waiting := rest, shards := s.shards ++ [t] }
    | [] => none
  | .parent now a =>
    if s.waiting.isEmpty then
      (ParentRelay.step .standard now { s.parent with bus := s.bus } a).map fun t =>
        { s with parent := t, bus := t.bus }
    else none
  | .shard i a => do
    let t ← s.relay? i
    let t ← ChildRelay.step t a
    return s.setShard i t
  | .deliver i m => do
    let t ← s.relay? i
    let inbox ← t.inbox.send? m
    return s.setShard i { t with inbox }
  | .absorb i => do
    let t ← s.relay? i
    let (_, outbox) ← t.outbox.receive?
    return s.setShard i { t with outbox }
  | .outside subject data => some { s with bus := s.bus.spread subject data }
  | .cancel =>
    let cancelled (t : ChildRelay.State) : ChildRelay.State := { t with cancelled := true }
    some { s with
      parent := { s.parent with cancelled := true }
      waiting := s.waiting.map cancelled
      shards := s.shards.map cancelled }

end Fleet

end GossipDirectory
