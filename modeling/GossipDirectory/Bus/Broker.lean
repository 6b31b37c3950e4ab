import GossipDirectory.Collection.Keyed
import GossipDirectory.Error

/-!
# The message bus

A bus carries byte strings under subjects. A publication reaches, in order, the subscriptions of its
subject that exist at that moment, and nobody else. Subscriptions queue what reaches them.

## Implementation notes

The bus notes every call that its users make, and refuses those on the subjects that it was set up
to refuse.
-/

namespace GossipDirectory

/-- The subjects between a parent and its shards. -/
structure Subjects where
  /-- Envelopes that a shard received from the room. -/
  parent : String
  /-- Envelopes that every shard shall publish in the room. -/
  children : String
  /-- One handshake of every shard. -/
  ready : String
  deriving DecidableEq, Repr

/-- The subjects below a base. -/
def Subjects.below (base : String) : Subjects :=
  { parent := base ++ ".parent", children := base ++ ".children", ready := base ++ ".ready" }

/-- A subscription and what waits in it. -/
structure Subscription where
  id : Nat
  subject : String
  queue : List Bytes := []
  /-- The bus still feeds it. -/
  fed : Bool := true
  /-- The subscriber still listens. -/
  heard : Bool := true
  deriving DecidableEq, Repr

/-- A call of a user of the bus. -/
inductive BusCall
  | subscribe (subject : String)
  | publish (subject : String) (data : Bytes)
  deriving DecidableEq, Repr

/-- The bus. -/
structure Bus where
  subscriptions : List Subscription := []
  /-- The calls so far. -/
  calls : List BusCall := []
  refusedSubscriptions : List String := []
  refusedPublications : List String := []
  deriving DecidableEq, Repr

namespace Bus

/-- A subscription that a publication under a subject reaches. -/
def reaches (subject : String) (s : Subscription) : Bool :=
  s.subject = subject && s.fed && s.heard

/-- Hands data to every subscription that it reaches. -/
def spread (b : Bus) (subject : String) (data : Bytes) : Bus :=
  { b with subscriptions := b.subscriptions.map fun s =>
      if reaches subject s then { s with queue := s.queue ++ [data] } else s }

/-- How many subscriptions a publication reaches. -/
def audience (b : Bus) (subject : String) : Nat :=
  b.subscriptions.countP (reaches subject)

/-- A user subscribes. -/
def subscribe (b : Bus) (subject : String) : Except Failure Nat × Bus :=
  let b := { b with calls := b.calls ++ [.subscribe subject] }
  if subject ∈ b.refusedSubscriptions then
    (.error (.bus (.refused "bus refused subscribe")), b)
  else
    let id := b.subscriptions.length
    (.ok id, { b with subscriptions := b.subscriptions ++ [{ id, subject }] })

/-- A user publishes. -/
def publish (b : Bus) (subject : String) (data : Bytes) : Except Failure Unit × Bus :=
  let b := { b with calls := b.calls ++ [.publish subject data] }
  if subject ∈ b.refusedPublications then
    (.error (.bus (.refused "bus refused publish")), b)
  else (.ok (), b.spread subject data)

/-- The subscription with an id. -/
def subscription? (b : Bus) (id : Nat) : Option Subscription :=
  b.subscriptions.find? (·.id = id)

/-- Changes the subscription with an id. -/
def update (b : Bus) (id : Nat) (f : Subscription → Subscription) : Bus :=
  { b with subscriptions := b.subscriptions.map fun s => if s.id = id then f s else s }

/-- What a subscriber finds. -/
inductive Reading
  | data (bytes : Bytes)
  /-- Nothing is left and nothing will come. -/
  | ended
  | nothing
  deriving DecidableEq, Repr

/-- What a subscriber finds next. -/
def reading (b : Bus) (id : Nat) : Reading :=
  match b.subscription? id with
  | none => .ended
  | some s =>
    match s.queue with
    | bytes :: _ => .data bytes
    | [] => if s.fed then .nothing else .ended

/-- The bus after a subscriber took what it found. -/
def advance (b : Bus) (id : Nat) : Bus :=
  b.update id fun s => { s with queue := s.queue.drop 1 }

/-- A subscriber leaves. -/
def leave (b : Bus) (id : Nat) : Bus :=
  b.update id fun s => { s with queue := [], heard := false }

/-- The bus ends the subscriptions of a subject. -/
def close (b : Bus) (subject : String) : Bus :=
  { b with subscriptions := b.subscriptions.map fun s =>
      if s.subject = subject then { s with fed := false } else s }

end Bus

end GossipDirectory
