import GossipDirectory.Shard.Descriptor

/-!
# Supervising shards

The supervisor starts at most one process for every shard id and kills all of them when it shuts
down, in ascending order of their ids and whether or not a kill succeeds.

## Implementation notes

What a launch does is a parameter: it answers the process or a failure. The supervisor keeps the
processes in ascending order of the shard ids.
-/

namespace GossipDirectory

/-- What is asked of the launcher. -/
structure Launch where
  name : String
  program : String
  arguments : List String
  deriving DecidableEq, Repr

/-- A process that was started, told apart from all others by its number. -/
structure ChildProcess where
  name : String
  number : Nat
  deriving DecidableEq, Repr

/-- A shard and its process. -/
structure RunningChild where
  descriptor : ChildDescriptor
  process : ChildProcess
  deriving DecidableEq, Repr

/-- The running shards by id. -/
structure Supervisor where
  executable : String
  children : List (UInt32 × RunningChild) := []
  deriving DecidableEq, Repr

namespace Supervisor

/-- The name of a shard's process. -/
def processName (childId : UInt32) : String :=
  "soroban-child-" ++ Decimal.text childId.toNat

/-- A path that does not depend on where it is used, or starts at the directory. -/
def anchored (path : String) : String :=
  if path.startsWith "/" then path else "./" ++ path

/-- A supervisor of copies of a program, which has to be a file. -/
def ofExecutable (files : FileTree) (path : String) : Except Failure Supervisor :=
  let executable := anchored path
  if files.isFile executable then .ok { executable }
  else .error (.spawn (.noExecutable executable))

/-- Puts a child into ascending order. -/
def insertChild (id : UInt32) (child : RunningChild) :
    List (UInt32 × RunningChild) → List (UInt32 × RunningChild)
  | [] => [(id, child)]
  | (k, c) :: rest => if id < k then (id, child) :: (k, c) :: rest else (k, c) :: insertChild id child rest

/-- What came of starting a child. -/
structure Start where
  result : Except Failure ChildDescriptor
  /-- What the launcher was asked, if it was. -/
  attempt : Option Launch
  supervisor : Supervisor

/-- The launch of a shard. -/
def launchOf (s : Supervisor) (childId : UInt32) (o : Options) : Launch :=
  { name := processName childId, program := s.executable, arguments := childArguments childId o }

/-- Starts a shard unless its id is reserved or taken. -/
def startChild (s : Supervisor) (childId : UInt32) (o : Options)
    (launch : Launch → Except Failure ChildProcess) : Start :=
  if childId = 0 then
    { result := .error (.spawn .reservedId), attempt := none, supervisor := s }
  else if Keyed.contains childId s.children then
    { result := .error (.spawn (.alreadyRunning childId.toNat)), attempt := none, supervisor := s }
  else
    let asked := s.launchOf childId o
    match launch asked with
    | .error e => { result := .error e, attempt := some asked, supervisor := s }
    | .ok process =>
      let descriptor := ChildDescriptor.ofOptions childId o
      { result := .ok descriptor
        attempt := some asked
        supervisor :=
          { s with children := insertChild childId { descriptor, process } s.children } }

/-- The processes to kill, in this order, and the supervisor without them. -/
def shutdown (s : Supervisor) : List ChildProcess × Supervisor :=
  (s.children.map fun (_, child) => child.process, { s with children := [] })

/-- A kill and what came of it. -/
structure Kill where
  process : ChildProcess
  result : Except Failure Unit

/-- Kills children one after the other. A kill that fails does not keep the next from following. -/
def killEach (kill : ChildProcess → Except Failure Unit) : List (UInt32 × RunningChild) → List Kill
  | [] => []
  | (_, child) :: rest =>
    { process := child.process, result := kill child.process } :: killEach kill rest

/-- Kills the running shards, the lowest id first, and gives all of them up. -/
def killAll (s : Supervisor) (kill : ChildProcess → Except Failure Unit) :
    List Kill × Supervisor :=
  (killEach kill s.children, { s with children := [] })

/-- The kills are those of a shutdown, whatever comes of them. -/
theorem killAll_eq (s : Supervisor) (kill : ChildProcess → Except Failure Unit) :
    s.killAll kill = (s.shutdown.1.map fun process => { process, result := kill process },
      s.shutdown.2) := by
  obtain ⟨executable, children⟩ := s
  induction children with
  | nil => rfl
  | cons entry rest ih => exact Prod.ext (congrArg (_ :: ·) (Prod.mk.inj ih).1) rfl

/-- The ids of the running shards. -/
def ids (s : Supervisor) : List UInt32 :=
  Keyed.keys s.children

/-- What came of starting several shards. -/
structure StartAll where
  result : Except Failure Unit
  supervisor : Supervisor
  /-- The processes that were killed again because a later start failed. -/
  killed : List ChildProcess

/-- Starts shards one by one. A failure stops the ones that run already. -/
def startAll (s : Supervisor) (o : Options) (launch : Launch → Except Failure ChildProcess) :
    List UInt32 → StartAll
  | [] => { result := .ok (), supervisor := s, killed := [] }
  | id :: rest =>
    let start := s.startChild id o launch
    match start.result with
    | .ok _ => startAll start.supervisor o launch rest
    | .error e =>
      let (killed, supervisor) := start.supervisor.shutdown
      { result := .error e, supervisor, killed }

end Supervisor

end GossipDirectory
