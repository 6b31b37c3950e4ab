import GossipDirectory.Options.Layer
import GossipDirectory.Yaml.Node

/-!
# Option files

A file is a mapping with a nested mapping for each group of settings. Settings that a file leaves
out take their defaults, so a file always stands for complete options; unknown names are passed
over and a known name may stand only once. Text settings take any scalar as it is written, numbers
and switches only plain ones.
-/

namespace GossipDirectory

namespace Options

/-- How a setting changes when a file gives it. -/
abbrev Setter (α : Type) := α → Yaml.Node → Except ConfigError α

/-- A file error. -/
def fileError {α : Type} (detail : String) : Except ConfigError α :=
  .error (.document detail)

/-- The text of a scalar. -/
def textOf : Yaml.Node → Except ConfigError String
  | .scalar _ text => .ok text
  | _ => fileError "invalid type: expected a string"

/-- The number that digits of a base write. -/
def digitsIn (base : Nat) (cs : List Char) : Option Nat :=
  if cs.isEmpty then none
  else (cs.mapM fun c => (Yaml.hexDigit? c).filter (· < base)).map fun ds =>
    ds.foldl (fun n d => base * n + d) 0

/-- The number that follows the mark of its base. -/
def marked? (cs : List Char) : Option Nat :=
  match cs with
  | '0' :: 'x' :: rest => digitsIn 16 rest
  | '0' :: 'o' :: rest => digitsIn 8 rest
  | '0' :: 'b' :: rest => digitsIn 2 rest
  | _ => none

/-- The number that a plain scalar writes. A decimal number has no leading zeros. -/
def number? (cs : List Char) : Option Nat :=
  let unsigned := match cs with
    | '+' :: rest => rest
    | _ => cs
  match marked? unsigned with
  | some n => some n
  | none =>
    if 1 < unsigned.length ∧ unsigned.head? = some '0' then none else digitsIn 10 unsigned

/-- A number below a bound. -/
def numberOf (bound : Nat) : Yaml.Node → Except ConfigError Nat
  | .scalar true text =>
    match (number? text.toList).filter (· < bound) with
    | some n => .ok n
    | none => fileError "invalid value: expected a number in range"
  | _ => fileError "invalid type: expected a number"

/-- A switch. -/
def switchOf : Yaml.Node → Except ConfigError Bool
  | .scalar true text =>
    if text ∈ ["true", "True", "TRUE"] then .ok true
    else if text ∈ ["false", "False", "FALSE"] then .ok false
    else fileError "invalid type: expected a boolean"
  | _ => fileError "invalid type: expected a boolean"

/-- Takes over the entries of a mapping; `seen` are the known names that came before. -/
def takeEntries {α : Type} (setters : List (String × Setter α)) :
    List String → α → List (Yaml.Node × Yaml.Node) → Except ConfigError α
  | _, x, [] => .ok x
  | seen, x, (key, v) :: rest => do
    let name ← textOf key
    match Keyed.get? name setters with
    | none => takeEntries setters seen x rest
    | some set =>
      if name ∈ seen then fileError "duplicate field"
      else
        let x ← set x v
        takeEntries setters (name :: seen) x rest

/-- Reads a group of settings on top of their defaults. A missing value stands for the defaults. -/
def group {α : Type} (setters : List (String × Setter α)) (defaults : α) :
    Yaml.Node → Except ConfigError α
  | .mapping entries => takeEntries setters [] defaults entries
  | .scalar true "" => .ok defaults
  | _ => fileError "invalid type: expected a mapping"

/-- A text setting. -/
def textSetter {α : Type} (set : α → String → α) : Setter α := fun x v =>
  (textOf v).map (set x)

/-- A port setting. -/
def portSetter {α : Type} (set : α → UInt16 → α) : Setter α := fun x v =>
  (numberOf UInt16.size v).map fun n => set x (UInt16.ofNat n)

/-- An id or count setting. -/
def idSetter {α : Type} (set : α → UInt32 → α) : Setter α := fun x v =>
  (numberOf UInt32.size v).map fun n => set x (UInt32.ofNat n)

/-- A setting of a size. -/
def sizeSetter {α : Type} (set : α → UInt64 → α) : Setter α := fun x v =>
  (numberOf UInt64.size v).map fun n => set x (UInt64.ofNat n)

/-- The settings of the peer-to-peer node by name. -/
def peerSetters : List (String × Setter PeerOptions) :=
  [("seed", textSetter fun p s => { p with seed := s }),
    ("bootstrap", textSetter fun p s => { p with bootstrap := s }),
    ("hostname", textSetter fun p s => { p with hostname := s }),
    ("listenport", portSetter fun p n => { p with listenPort := n }),
    ("lowwater", sizeSetter fun p n => { p with lowWater := n }),
    ("highwater", sizeSetter fun p n => { p with highWater := n }),
    ("room", textSetter fun p s => { p with room := s }),
    ("dhtservermode", fun p v => (switchOf v).map fun b => { p with dhtServerMode := b }),
    ("peerstorefile", textSetter fun p s => { p with peerstoreFile := s }),
    ("socksproxy", textSetter fun p s => { p with socksProxy := s })]

/-- The settings of the mesh by name. -/
def meshSetters : List (String × Setter MeshOptions) :=
  [("d", sizeSetter fun m n => { m with d := n }),
    ("dlo", sizeSetter fun m n => { m with dlo := n }),
    ("dhi", sizeSetter fun m n => { m with dhi := n }),
    ("dout", sizeSetter fun m n => { m with dout := n }),
    ("dscore", sizeSetter fun m n => { m with dscore := n }),
    ("dlazy", sizeSetter fun m n => { m with dlazy := n }),
    ("prunepeers", sizeSetter fun m n => { m with prunePeers := n }),
    ("limit", sizeSetter fun m n => { m with limit := n })]

/-- The settings of the bus by name. -/
def busSetters : List (String × Setter BusOptions) :=
  [("subject", textSetter fun b s => { b with subject := s }),
    ("childid", idSetter fun b n => { b with childId := n }),
    ("childprocesscount", idSetter fun b n => { b with childProcessCount := n }),
    ("natshost", textSetter fun b s => { b with natsHost := s }),
    ("natsport", portSetter fun b n => { b with natsPort := n })]

/-- All settings and groups of settings by name. -/
def setters : List (String × Setter Options) :=
  [("loglevel", textSetter fun o s => { o with logLevel := s }),
    ("logfile", textSetter fun o s => { o with logFile := s }),
    ("p2p", fun o v => (group peerSetters {} v).map fun p => { o with p2p := p }),
    ("gossip", fun o v => (group meshSetters {} v).map fun m => { o with gossip := m }),
    ("ipc", fun o v => (group busSetters {} v).map fun b => { o with bus := b })]

/-- The options that a document stands for. -/
def ofNode (root : Yaml.Node) : Except ConfigError Options :=
  group setters {} root

/-- The options that a text stands for. -/
def parse (text : String) : Except Failure Options :=
  match Yaml.parse text with
  | .error e => .error (.config (.document e.reason))
  | .ok root => (ofNode root).mapError .config

/-- Puts a file on top of options. An empty path stands for no file. -/
def load (o : Options) (files : FileTree) (path : String) : Except Failure Options :=
  if path = "" then .ok o
  else match files.readText path with
    | .error cause => .error (.config (.unreadableFile path cause))
    | .ok text => (parse text).map o.merge

end Options

end GossipDirectory
