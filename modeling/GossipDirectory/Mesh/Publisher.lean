import GossipDirectory.Envelope.Message

/-!
# Publishing to the room

A text is handed to the network as it is. Without a network publishing does nothing, but an empty
text is refused either way.
-/

namespace GossipDirectory

/-- The publishing side of a node. -/
structure Publisher where
  /-- The node has joined its room. -/
  connected : Bool
  deriving DecidableEq, Repr

namespace Publisher

/-- The publisher of a node that has not joined. -/
def idle : Publisher :=
  { connected := false }

/-- What a publication hands to the network; nothing without one. -/
def publish (p : Publisher) (text : String) : Except Failure (Option Bytes) :=
  if text = "" then .error .emptyMessage
  else if p.connected then .ok (some (Utf8.encode text))
  else .ok none

/-- The text of an envelope. -/
def textOf (m : Message) : Except Failure String :=
  match Utf8.decode? m.toBytes with
  | some text => .ok text
  | none => .error (.serialization .malformed)

/-- What the publication of an envelope hands to the network. -/
def publishMessage (p : Publisher) (m : Message) : Except Failure (Option Bytes) := do
  p.publish (← textOf m)

end Publisher

end GossipDirectory
