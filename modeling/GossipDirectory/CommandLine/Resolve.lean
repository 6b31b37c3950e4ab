import GossipDirectory.CommandLine.Scan
import GossipDirectory.Options.File

/-!
# From a command line to options

The defaults come first, then the options file, then the flags. A flag overrides when its value is
not empty and not zero; the server switch overrides whenever it is given.
-/

namespace GossipDirectory

namespace Arguments

/-- The given flags as a layer of options. -/
def layer (a : Arguments) : Options :=
  { logLevel := a.text .log
    logFile := a.text .logFile
    p2p :=
      { seed := a.text .seed
        bootstrap := a.text .bootstrap
        hostname := a.text .hostname
        listenPort := a.port .listenPort
        lowWater := a.size .lowWater
        highWater := a.size .highWater
        room := a.text .room
        dhtServerMode := a.dhtServer.getD false
        peerstoreFile := a.text .peerstoreFile
        socksProxy := a.text .socksProxy }
    gossip :=
      { d := a.size .d
        dlo := a.size .dlo
        dhi := a.size .dhi
        dout := a.size .dout
        dscore := a.size .dscore
        dlazy := a.size .dlazy
        prunePeers := a.size .prunePeers
        limit := a.size .limit }
    bus :=
      { subject := a.text .subject
        childId := a.id .childId
        childProcessCount := a.id .childProcessCount
        natsHost := a.text .natsHost
        natsPort := a.port .natsPort } }

/-- Options with the server switch as the command line sets it. -/
def switched (a : Arguments) (o : Options) : Options :=
  match a.dhtServer with
  | some on => { o with p2p := { o.p2p with dhtServerMode := on } }
  | none => o

/-- The checked options of a process. -/
def toOptions (a : Arguments) (files : FileTree) : Except Failure Options := do
  let base ← Options.load {} files (a.text .config)
  let o := a.switched (base.merge a.layer)
  o.validate
  return o

end Arguments

/-- Why a command line gives no options. -/
inductive CommandLineError
  | usage (cause : UsageError)
  | options (cause : Failure)
  deriving DecidableEq, Repr

/-- The options that a command line stands for. -/
def optionsOfCommandLine (line : List String) (files : FileTree) :
    Except CommandLineError Options := do
  let a ← (Arguments.read line).mapError .usage
  (a.toOptions files).mapError .options

end GossipDirectory
