import GossipDirectory.Collection.Channel
import GossipDirectory.Collection.Settle
import GossipDirectory.Directory.Apply

/-!
# The consumer of delivered envelopes

The consumer applies envelopes to the directory until it is told to stop or no more can come. A
refused envelope changes nothing and does not stop it.
-/

namespace GossipDirectory

namespace Consumer

/-- The consumer with its queue and the directory. -/
structure State where
  queue : Channel Message
  directory : Directory
  cancelled : Bool := false
  ended : Bool := false

/-- What the consumer can do. -/
inductive Action
  /-- Notices that it was told to stop. -/
  | stop
  /-- Applies the next envelope. -/
  | applyNext
  /-- Notices that no more envelopes will come. -/
  | noticeEnd
  deriving DecidableEq, Repr

/-- The consumer has returned. -/
def State.finish (s : State) : State :=
  { s with ended := true, queue := s.queue.closeOutput }

/-- One step of the consumer at a time. -/
def step (registry : Registry) (now : Millis) (s : State) (a : Action) : Option State :=
  if s.ended then none
  else match a with
    | .stop => if s.cancelled then some s.finish else none
    | .applyNext =>
      (s.queue.receive?).map fun (m, queue) =>
        { s with queue, directory := s.directory.deliver registry m now }
    | .noticeEnd => if s.queue.exhausted then some s.finish else none

/-- The consumer after everything that it can do at once. -/
def State.settled (s : State) (registry : Registry) (now : Millis) : State :=
  settle (step registry now) [.stop, .applyNext, .noticeEnd] (s.queue.items.length + 1) s

end Consumer

end GossipDirectory
