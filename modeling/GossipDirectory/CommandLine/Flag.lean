import GossipDirectory.Options.Basic

/-!
# Flags

Every setting has a flag of its own; one more flag names an options file. All flags take a value;
only the server switch may stand alone.
-/

namespace GossipDirectory

/-- Flags whose value is any text. -/
inductive TextFlag
  | log | logFile | config | seed | bootstrap | hostname | room | peerstoreFile | socksProxy
  | subject | natsHost
  deriving DecidableEq, Repr

/-- Flags whose value is a port. -/
inductive PortFlag
  | listenPort | natsPort
  deriving DecidableEq, Repr

/-- Flags whose value is a shard id or a number of shards. -/
inductive IdFlag
  | childId | childProcessCount
  deriving DecidableEq, Repr

/-- Flags whose value is a size. -/
inductive SizeFlag
  | lowWater | highWater | d | dlo | dhi | dout | dscore | dlazy | prunePeers | limit
  deriving DecidableEq, Repr

/-- A flag of the command line. -/
inductive Flag
  | text (flag : TextFlag)
  | port (flag : PortFlag)
  | id (flag : IdFlag)
  | size (flag : SizeFlag)
  | dhtServer
  deriving DecidableEq, Repr

namespace Flag

/-- Every flag. -/
def all : List Flag :=
  [.text .log, .text .logFile, .text .config, .text .seed, .text .bootstrap, .text .hostname,
    .port .listenPort, .size .lowWater, .size .highWater, .text .room, .dhtServer,
    .text .peerstoreFile, .text .socksProxy, .size .d, .size .dlo, .size .dhi, .size .dout,
    .size .dscore, .size .dlazy, .size .prunePeers, .size .limit, .text .subject, .id .childId,
    .id .childProcessCount, .text .natsHost, .port .natsPort]

/-- The name of a flag, without its dashes. -/
def name : Flag → String
  | .text .log => "log"
  | .text .logFile => "logfile"
  | .text .config => "config"
  | .text .seed => "p2pSeed"
  | .text .bootstrap => "p2pBootstrap"
  | .text .hostname => "p2pHostname"
  | .port .listenPort => "p2pListenPort"
  | .size .lowWater => "p2pLowWater"
  | .size .highWater => "p2pHighWater"
  | .text .room => "p2pRoom"
  | .dhtServer => "p2pDHTServerMode"
  | .text .peerstoreFile => "p2pPeerstoreFile"
  | .text .socksProxy => "p2pSocksProxy"
  | .size .d => "gossipD"
  | .size .dlo => "gossipDlo"
  | .size .dhi => "gossipDhi"
  | .size .dout => "gossipDout"
  | .size .dscore => "gossipDscore"
  | .size .dlazy => "gossipDlazy"
  | .size .prunePeers => "gossipPrunePeers"
  | .size .limit => "gossipLimit"
  | .text .subject => "ipcSubject"
  | .id .childId => "ipcChildID"
  | .id .childProcessCount => "ipcChildProcessCount"
  | .text .natsHost => "ipcNatsHost"
  | .port .natsPort => "ipcNatsPort"

/-- The flag of a name. -/
def ofName? (name : String) : Option Flag :=
  all.find? (·.name = name)

/-- A flag as it is written. -/
def word (f : Flag) : String :=
  "--" ++ f.name

end Flag

/-- Why a command line is not carried out. -/
inductive UsageError
  | unknownArgument
  /-- A value is missing, or is no truth value where one has to stand. -/
  | invalidValue
  /-- A number that cannot be read or is out of range. -/
  | unreadableNumber
  | repeatedFlag
  /-- A value was given to a flag that takes none. -/
  | unwantedValue
  /-- The help text was asked for. -/
  | help
  /-- The version was asked for. -/
  | version
  deriving DecidableEq, Repr

/-- The values that a command line gives. -/
structure Arguments where
  texts : List (TextFlag × String) := []
  ports : List (PortFlag × UInt16) := []
  ids : List (IdFlag × UInt32) := []
  sizes : List (SizeFlag × UInt64) := []
  dhtServer : Option Bool := none
  deriving DecidableEq, Repr

namespace Arguments

/-- A value of a flag was given. -/
def gives (a : Arguments) : Flag → Bool
  | .text f => Keyed.contains f a.texts
  | .port f => Keyed.contains f a.ports
  | .id f => Keyed.contains f a.ids
  | .size f => Keyed.contains f a.sizes
  | .dhtServer => a.dhtServer.isSome

/-- The text given for a flag; empty without one. -/
def text (a : Arguments) (f : TextFlag) : String :=
  (Keyed.get? f a.texts).getD ""

/-- The port given for a flag; zero without one. -/
def port (a : Arguments) (f : PortFlag) : UInt16 :=
  (Keyed.get? f a.ports).getD 0

/-- The id given for a flag; zero without one. -/
def id (a : Arguments) (f : IdFlag) : UInt32 :=
  (Keyed.get? f a.ids).getD 0

/-- The size given for a flag; zero without one. -/
def size (a : Arguments) (f : SizeFlag) : UInt64 :=
  (Keyed.get? f a.sizes).getD 0

/-- A number below a bound, with an optional sign. Only zero may be negative. -/
def signed? (bound : Nat) (cs : List Char) : Option Nat :=
  match cs with
  | '-' :: digits => (Decimal.ofChars? digits).filter (· = 0)
  | _ => Decimal.parse? bound cs

/-- The truth value of a text. -/
def truth? (s : String) : Option Bool :=
  if s = "true" then some true else if s = "false" then some false else none

/-- Takes over the value of a flag. -/
def accept (a : Arguments) (f : Flag) (value : String) : Except UsageError Arguments :=
  if a.gives f then .error .repeatedFlag
  else match f with
    | .text f => .ok { a with texts := Keyed.put f value a.texts }
    | .port f =>
      match signed? UInt16.size value.toList with
      | some n => .ok { a with ports := Keyed.put f (UInt16.ofNat n) a.ports }
      | none => .error .unreadableNumber
    | .id f =>
      match signed? UInt32.size value.toList with
      | some n => .ok { a with ids := Keyed.put f (UInt32.ofNat n) a.ids }
      | none => .error .unreadableNumber
    | .size f =>
      match Decimal.parse? UInt64.size value.toList with
      | some n => .ok { a with sizes := Keyed.put f (UInt64.ofNat n) a.sizes }
      | none => .error .unreadableNumber
    | .dhtServer =>
      match truth? value with
      | some b => .ok { a with dhtServer := some b }
      | none => .error .invalidValue

end Arguments

end GossipDirectory
