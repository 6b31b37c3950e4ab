import GossipDirectory.CommandLine.Flag

/-!
# Scanning a command line

Arguments are scanned from left to right. A value attached to its flag is looked at once, a value
that follows as an argument of its own only when the next flag comes or the line ends. An argument
that nothing accepts is refused even if a value before it would be.
-/

namespace GossipDirectory

namespace Arguments

/-- What an argument looks like. -/
inductive Shape
  /-- Two dashes alone. -/
  | escape
  /-- A long flag and the value attached to it. -/
  | long (name : String) (value : Option String)
  /-- A dash and other characters. -/
  | short (first : Char)
  | plain
  deriving DecidableEq, Repr

/-- Splits at the first equals sign. -/
def splitValue : List Char → List Char × Option (List Char)
  | [] => ([], none)
  | '=' :: rest => ([], some rest)
  | c :: rest =>
    let (name, value) := splitValue rest
    (c :: name, value)

/-- The shape of an argument. -/
def shape (argument : String) : Shape :=
  match argument.toList with
  | '-' :: '-' :: [] => .escape
  | '-' :: '-' :: rest =>
    let (name, value) := splitValue rest
    .long (String.ofList name) (value.map String.ofList)
  | '-' :: c :: _ => .short c
  | _ => .plain

/-- A flag whose separate value has not been looked at, with the value if it has come. -/
abbrev Pending := Option (Flag × Option String)

/-- Takes over the pending value. -/
def settle (a : Arguments) : Pending → Except UsageError Arguments
  | none => .ok a
  | some (f, some value) => a.accept f value
  | some (.dhtServer, none) => a.accept .dhtServer "true"
  | some (_, none) => .error .invalidValue

/-- Scans the rest of a command line. -/
def scan (a : Arguments) (pending : Pending) : List String → Except UsageError Arguments
  | [] => a.settle pending
  | argument :: rest =>
    match shape argument with
    | .escape => if rest.isEmpty then a.settle pending else .error .unknownArgument
    | .long name value =>
      if name = "help" ∨ name = "version" then
        if value.isSome then .error .unwantedValue
        else do
          let _ ← a.settle pending
          .error (if name = "help" then .help else .version)
      else match Flag.ofName? name, value with
        | none, _ => .error .unknownArgument
        | some f, some value => do
          let a ← a.settle pending
          let a ← a.accept f value
          scan a none rest
        | some f, none => do
          let a ← a.settle pending
          scan a (some (f, none)) rest
    | .short c =>
      if c = 'h' ∨ c = 'V' then do
        let _ ← a.settle pending
        .error (if c = 'h' then .help else .version)
      else .error .unknownArgument
    | .plain =>
      match pending with
      | some (f, none) => scan a (some (f, some argument)) rest
      | _ => .error .unknownArgument

/-- Reads a command line. -/
def read (line : List String) : Except UsageError Arguments :=
  scan {} none line

end Arguments

end GossipDirectory
