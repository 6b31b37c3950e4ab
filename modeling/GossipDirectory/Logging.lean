import GossipDirectory.Address.Ip
import GossipDirectory.Error
import GossipDirectory.Json.Printer

/-!
# Logging

Events up to a level are written to standard error or, one JSON line each, to the end of a file. The
level comes from the options unless the environment sets a filter. Logging is set up once; later
attempts do nothing.
-/

namespace GossipDirectory

/-- How much an event matters, most important first. -/
inductive LogLevel
  | error
  | warn
  | info
  | debug
  | trace
  deriving DecidableEq, Repr

namespace LogLevel

/-- Every level. -/
def all : List LogLevel :=
  [.error, .warn, .info, .debug, .trace]

/-- The rank of a level, one for the most important. -/
def rank : LogLevel → Nat
  | .error => 1
  | .warn => 2
  | .info => 3
  | .debug => 4
  | .trace => 5

/-- The name of a level. -/
def name : LogLevel → String
  | .error => "ERROR"
  | .warn => "WARN"
  | .info => "INFO"
  | .debug => "DEBUG"
  | .trace => "TRACE"

/-- The name of a level in small letters. -/
def lowerName : LogLevel → String
  | .error => "error"
  | .warn => "warn"
  | .info => "info"
  | .debug => "debug"
  | .trace => "trace"

end LogLevel

/-- The least important level that is shown; nothing is shown without one. -/
abbrev LogFilter := Option LogLevel

namespace LogFilter

/-- The filter shows events of a level. -/
def shows (f : LogFilter) (l : LogLevel) : Bool :=
  match f with
  | some limit => l.rank ≤ limit.rank
  | none => false

/-- A text in lower case, as far as it lies in ASCII. -/
def lowered (cs : List Char) : List Char :=
  cs.map Char.toLower

/-- The filter of a level name in the options. Unknown names stand for the middle level. -/
def ofOption (level : String) : LogFilter :=
  let name := String.ofList (lowered level.toList)
  if name = "trace" then some .trace
  else if name = "debug" then some .debug
  else if name = "warn" ∨ name = "warning" then some .warn
  else if name = "error" ∨ name = "fatal" ∨ name = "panic" then some .error
  else some .info

/-- The filter of a level name in the environment. -/
def ofWord? (cs : List Char) : Option LogFilter :=
  let word := String.ofList (lowered cs)
  if word = "off" ∨ word = "0" then some none
  else (LogLevel.all.find? fun l =>
    word = l.lowerName ∨ word = Decimal.text l.rank).map some

/-- A character of the name of a program part. -/
def isTargetChar (c : Char) : Bool :=
  c.isAlphanum || c = '_' || c = ':' || c = '-' || 128 ≤ c.toNat

/-- A name of a program part, or one in brackets, at the front; with what follows. -/
def targetPart? (cs : List Char) : Option (List Char) :=
  match cs with
  | '[' :: rest =>
    match rest.dropWhile (· ≠ ']') with
    | _ :: rest => some rest
    | [] => none
  | _ =>
    let rest := cs.dropWhile isTargetChar
    if rest.length < cs.length then some rest else none

/-- What may follow the parts of a directive: nothing, or an equals sign and maybe a level. -/
def endsDirective : List Char → Bool
  | [] => true
  | '=' :: level => level.isEmpty || (ofWord? level).isSome
  | _ => false

/-- A directive that concerns one part of a program. -/
def isTargeted (cs : List Char) : Bool :=
  match targetPart? cs with
  | none => false
  | some rest => endsDirective rest || ((targetPart? rest).any endsDirective)

/-- Reads directives; `seen` is the last one that concerns every part, `any` whether there was
one at all. -/
def directives (seen : Option LogFilter) (any : Bool) : List (List Char) → Option LogFilter
  | [] =>
    match seen with
    | some f => some f
    | none => if any then some none else some (some .error)
  | word :: rest =>
    match ofWord? word with
    | some f => directives (some f) true rest
    | none => if isTargeted word then directives seen true rest else none

/-- The filter that the environment sets, if it can be read. Directives for single parts of a
program show nothing else. -/
def ofEnvironment? (text : String) : Option LogFilter :=
  directives none false ((splitAt ',' text.toList).filter fun word => !word.isEmpty)

/-- The filter in force. -/
def choose (level : String) (environment : Option String) : LogFilter :=
  match environment.bind ofEnvironment? with
  | some f => f
  | none => ofOption level

end LogFilter

/-- Where events go. -/
inductive LogSink
  | standardError
  | file (path : String)
  deriving DecidableEq, Repr

/-- Logging as it was set up. -/
structure Logging where
  filter : LogFilter
  sink : LogSink
  deriving DecidableEq, Repr

/-- Whether logging was set up before, and how. -/
structure LogState where
  called : Bool := false
  active : Option Logging := none
  deriving DecidableEq, Repr

namespace Logging

open Json

/-- The file can be appended to; it is created if it does not exist. -/
def openFile (files : FileTree) (path : String) : Except Failure FileTree :=
  let content := match files.read path with
    | .ok content => content
    | .error _ => []
  match files.write path content with
  | .ok files => .ok files
  | .error cause => .error (.config (.logFile path cause))

/-- Sets up logging for the first time. -/
def install (level file : String) (environment : Option String) (files : FileTree) :
    Except Failure (Logging × FileTree) :=
  let filter := LogFilter.choose level environment
  if file = "" ∨ file = "-" then .ok ({ filter, sink := .standardError }, files)
  else do
    let files ← openFile files file
    return ({ filter, sink := .file file }, files)

/-- Sets up logging unless that was tried before. -/
def initialise (s : LogState) (level file : String) (environment : Option String)
    (files : FileTree) : Except Failure Unit × LogState × FileTree :=
  if s.called then (.ok (), s, files)
  else match install level file environment files with
    | .ok (logging, files) => (.ok (), { called := true, active := some logging }, files)
    | .error e => (.error e, { called := true, active := none }, files)

/-- A line of a log file. -/
def line (l : LogLevel) (text : String) : Bytes :=
  openBrace :: (separated [memberBytes "level" (stringBytes l.name),
    memberBytes "fields" (openBrace :: (memberBytes "message" (stringBytes text) ++ [closeBrace]))]
    ++ [closeBrace, 10])

/-- Logs an event; the answer says whether it went to standard error. -/
def emit (s : LogState) (l : LogLevel) (text : String) (files : FileTree) : Bool × FileTree :=
  match s.active with
  | none => (false, files)
  | some logging =>
    if logging.filter.shows l then
      match logging.sink with
      | .standardError => (true, files)
      | .file path =>
        match files.read path with
        | .ok content =>
          match files.write path (content ++ line l text) with
          | .ok files => (false, files)
          | .error _ => (false, files)
        | .error _ => (false, files)
    else (false, files)

end Logging

end GossipDirectory
