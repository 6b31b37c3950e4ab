import GossipDirectory.Address.PeerId
import GossipDirectory.Directory.Basic

/-!
# Connection watermarks

When more peers are connected than the high watermark allows, the oldest ones that are neither
protected nor in their grace period are chosen to be disconnected, until the low watermark is
reached. Peers that connected at the same time are ordered by their ids.
-/

namespace GossipDirectory

/-- The connected peers with the time since when they are connected. -/
structure ConnectionManager where
  lowWater : Nat
  highWater : Nat
  grace : Millis
  connected : List (PeerId × Millis)
  deriving DecidableEq, Repr

namespace ConnectionManager

/-- New connections are left alone for this long. -/
def defaultGrace : Millis := 60 * 1000

/-- A manager without connections. The low watermark must not exceed the high one. -/
def make (lowWater highWater : Nat) (grace : Millis) : Except Failure ConnectionManager :=
  if highWater < lowWater then .error (.config (.connectionWatermarks lowWater highWater))
  else .ok { lowWater, highWater, grace, connected := [] }

/-- A peer is connected. The time of a peer that is connected already stays. -/
def connect (m : ConnectionManager) (peer : PeerId) (now : Millis) : ConnectionManager :=
  if Keyed.contains peer m.connected then m
  else { m with connected := Keyed.put peer now m.connected }

/-- A peer is not connected any more. -/
def disconnect (m : ConnectionManager) (peer : PeerId) : ConnectionManager :=
  { m with connected := Keyed.erase peer m.connected }

/-- How many peers are connected. -/
def peerCount (m : ConnectionManager) : Nat :=
  m.connected.length

/-- A connection may be trimmed. -/
def expendable (m : ConnectionManager) (now : Millis) (guarded : List PeerId)
    (entry : PeerId × Millis) : Bool :=
  !guarded.contains entry.1 && m.grace ≤ now - entry.2

/-- Older connections come first. -/
def olderFirst (x y : PeerId × Millis) : Bool :=
  if x.2 < y.2 then true else if y.2 < x.2 then false else x.1.le y.1

/-- The peers to disconnect, oldest first. -/
def trimCandidates (m : ConnectionManager) (now : Millis) (guarded : List PeerId) :
    List PeerId :=
  if m.peerCount ≤ m.highWater then []
  else
    let candidates := (m.connected.filter (m.expendable now guarded)).mergeSort olderFirst
    (candidates.take (m.peerCount - m.lowWater)).map (·.1)

end ConnectionManager

end GossipDirectory
