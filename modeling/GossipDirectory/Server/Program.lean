import GossipDirectory.CommandLine.Resolve
import GossipDirectory.Logging
import GossipDirectory.Server.Modes

/-!
# The program

A run reads its command line, sets up logging and brings the process up. What happens is told by the
exit code: zero for help, version and a run that was stopped, two for a wrong command line, one for
everything else that goes wrong.
-/

namespace GossipDirectory

/-- How a run ends. -/
inductive Ending
  | help
  | version
  | usage (cause : UsageError)
  | invalidOptions (cause : Failure)
  | loggingFailed (cause : Failure)
  | nodeFailed (cause : Failure)
  /-- The process came up and was told to stop. -/
  | stopped

namespace Program

/-- The name and version of the program. -/
def versionLine : String := "soroban-p2p 0.1.0"

/-- The exit code of a run. -/
def exitCode : Ending → Nat
  | .help | .version | .stopped => 0
  | .usage _ => 2
  | .invalidOptions _ | .loggingFailed _ | .nodeFailed _ => 1

/-- What a run says about its end. -/
def report? : Ending → Option String
  | .help => some "Soroban peer-to-peer directory node"
  | .version => some versionLine
  | .usage _ => some "wrong command line"
  | .invalidOptions cause => some ("Invalid options: " ++ cause.message)
  | .loggingFailed cause => some ("Failed to set up logging: " ++ cause.message)
  | .nodeFailed cause => some ("Soroban node failed: " ++ cause.message)
  | .stopped => none

/-- What a process that came up logs. -/
def startedLine (o : Options) : String :=
  match o.mode with
  | .shard => "Soroban started in child mode (child " ++ Decimal.text o.bus.childId.toNat ++
      ", port " ++ Decimal.text o.effectiveListenPort.toNat ++ ")"
  | .parent => "Started " ++ Decimal.text o.bus.childProcessCount.toNat ++ " shards"
  | .standalone => "Soroban started"

/-- The run of a process whose logging is set up. -/
def serve (m : Machine) (o : Options) (r : Randomness) (s : LogState) (files : FileTree) :
    Ending × FileTree :=
  match Server.start { m with files } o r false with
  | .error e =>
    (.nodeFailed e, (Logging.emit s .error ("Soroban node failed: " ++ e.message) files).2)
  | .ok server =>
    let files := (Logging.emit s .info (startedLine o) files).2
    match server.stop with
    | .ok () => (.stopped, files)
    | .error e =>
      (.nodeFailed e, (Logging.emit s .error ("Soroban node failed: " ++ e.message) files).2)

/-- The options file that a command line names; none if it is empty. -/
def optionsFile (arguments : List String) : String :=
  match Arguments.read arguments with
  | .ok a => a.text .config
  | .error _ => ""

/-- The log file of a run, if it has one. -/
def logFile? (arguments : List String) (files : FileTree) : Option String :=
  match optionsOfCommandLine arguments files with
  | .error _ => none
  | .ok o => if o.logFile = "" ∨ o.logFile = "-" then none else some o.logFile

/-- The snapshot file of a run, if it has one. -/
def snapshotFile? (arguments : List String) (files : FileTree) : Option String :=
  match optionsOfCommandLine arguments files with
  | .error _ => none
  | .ok o =>
    if o.p2p.peerstoreEnabled then some (Snapshot.path o.p2p.peerstoreFile o.bus.childId) else none

/-- A run of the program that is told to stop once it is up. -/
def run (m : Machine) (arguments : List String) (environment : Option String) (r : Randomness) :
    Ending × FileTree :=
  match optionsOfCommandLine arguments m.files with
  | .error (.usage .help) => (.help, m.files)
  | .error (.usage .version) => (.version, m.files)
  | .error (.usage cause) => (.usage cause, m.files)
  | .error (.options cause) => (.invalidOptions cause, m.files)
  | .ok o =>
    match Logging.initialise {} o.logLevel o.logFile environment m.files with
    | (.error e, _, files) => (.loggingFailed e, files)
    | (.ok (), s, files) => serve m o r s files

end Program

end GossipDirectory
