import GossipDirectory.Directory.Basic
import GossipDirectory.Envelope.Mutation

/-!
# Applying envelopes to the directory

An envelope whose context has a decoder changes the directory or is refused as a whole; every other
envelope is passed over.
-/

namespace GossipDirectory

namespace Directory

/-- The directory after a mutation. -/
def mutate (d : Directory) (m : Mutation) (now : Millis) : Except Failure Directory :=
  match m with
  | .add e => d.add e.key e.value (timeToLive e.mode) now
  | .remove e => .ok (d.remove e.key e.value)

/-- Applies one envelope. The answer says whether its context was one of the registry's; a refusal
comes before anything is changed. -/
def apply (registry : Registry) (d : Directory) (m : Message) (now : Millis) :
    Except Failure Bool × Directory :=
  match registry.decode m with
  | none => (.ok false, d)
  | some (.error e) => (.error e, d)
  | some (.ok mutation) =>
    match d.mutate mutation now with
    | .ok d => (.ok true, d)
    | .error e => (.error e, d)

/-- The directory after an envelope was delivered, whatever came of it. -/
def deliver (registry : Registry) (d : Directory) (m : Message) (now : Millis) : Directory :=
  (d.apply registry m now).2

end Directory

end GossipDirectory
