import GossipDirectory.Directory.Basic
import GossipDirectory.Peerstore.Snapshot

/-!
# Regular snapshots

A running node writes a snapshot every five minutes, the first one five minutes after its start,
until it is told to stop. A snapshot that fails changes nothing.
-/

namespace GossipDirectory

/-- The regular writing of snapshots. -/
structure Persistence where
  /-- When the next snapshot is due. -/
  next : Millis
  ended : Bool := false
  deriving DecidableEq, Repr

namespace Persistence

/-- The time between two snapshots. -/
def interval : Millis := 5 * 60 * 1000

/-- Starts to write snapshots. -/
def start (now : Millis) : Persistence :=
  { next := now + interval }

/-- How many snapshots are due. -/
def due (p : Persistence) (now : Millis) : Nat :=
  if p.ended ∨ now < p.next then 0 else (now - p.next) / interval + 1

/-- The files after the snapshots that are due, each written by `write`. -/
def run (p : Persistence) (now : Millis) (write : FileTree → Except Failure (Nat × FileTree))
    (files : FileTree) : Persistence × FileTree :=
  let count := p.due now
  let once (files : FileTree) : FileTree :=
    match write files with
    | .ok (_, files) => files
    | .error _ => files
  ({ p with next := p.next + count * interval }, Nat.repeat once count files)

/-- Stops. -/
def stop (p : Persistence) : Persistence :=
  { p with ended := true }

end Persistence

end GossipDirectory
