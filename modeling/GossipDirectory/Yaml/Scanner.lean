import GossipDirectory.Yaml.Property

/-!
# Tokens of a document

Block structure is marked by indentation, so the scanner turns changes of the indentation into
tokens. Whether a scalar or a flow collection is the key of a mapping shows only when a colon
follows it on the same line; then the tokens that start the key are put in before it.
-/

namespace GossipDirectory

namespace Yaml

/-- How a scalar is written. -/
inductive Style
  | plain
  | quoted
  | literal
  | folded
  deriving DecidableEq, Repr

/-- A piece of a document. -/
inductive Token
  | directive (d : Directive)
  | documentStart
  | documentEnd
  | blockSequenceStart
  | blockMappingStart
  | blockEnd
  | flowSequenceStart
  | flowSequenceEnd
  | flowMappingStart
  | flowMappingEnd
  | blockEntry
  | flowEntry
  | key
  | value
  | alias (name : String)
  | anchor (name : String)
  | tag (t : WrittenTag)
  | scalar (style : Style) (text : String)
  deriving DecidableEq, Repr

/-- A place where a key may start. -/
structure PendingKey where
  /-- Nothing else than a key fits here. -/
  required : Bool
  /-- How many tokens come before it. -/
  place : Nat
  origin : Cursor

/-- The state of scanning. -/
structure Scanner where
  cursor : Cursor
  /-- The tokens so far. -/
  tokens : List Token := []
  /-- The pending key outside every flow collection. -/
  blockKey : Option PendingKey := none
  /-- The pending keys of the open flow collections, innermost first. -/
  flowKeys : List (Option PendingKey) := []
  /-- The column of the innermost block collection. -/
  indent : Int := -1
  /-- The columns of the outer ones. -/
  outer : List Int := []
  /-- A key may start here. -/
  keyAllowed : Bool := true

namespace Scanner

/-- A flow collection is open. -/
def inFlow (s : Scanner) : Bool :=
  !s.flowKeys.isEmpty

/-- The pending key of the innermost collection. -/
def pending (s : Scanner) : Option PendingKey :=
  match s.flowKeys with
  | k :: _ => k
  | [] => s.blockKey

/-- Replaces the pending key of the innermost collection. -/
def setPending (s : Scanner) (k : Option PendingKey) : Scanner :=
  match s.flowKeys with
  | _ :: rest => { s with flowKeys := k :: rest }
  | [] => { s with blockKey := k }

/-- Adds a token. -/
def emit (s : Scanner) (t : Token) : Scanner :=
  { s with tokens := s.tokens ++ [t] }

/-- Puts a token before others. -/
def insertToken (s : Scanner) (place : Nat) (t : Token) : Scanner :=
  { s with tokens := s.tokens.take place ++ t :: s.tokens.drop place }

/-- Gives up the pending key. -/
def dropPending (s : Scanner) : Except Malformed Scanner :=
  if s.pending.any (·.required) then .error ⟨"could not find expected ':'"⟩
  else .ok (s.setPending none)

/-- Notes that a key may start here. -/
def savePending (s : Scanner) : Except Malformed Scanner :=
  if s.keyAllowed then do
    let s ← s.dropPending
    return s.setPending (some {
      required := !s.inFlow && s.indent = (s.cursor.column : Int)
      place := s.tokens.length
      origin := s.cursor })
  else .ok s

/-- A key that started before this line, or too long ago. -/
def isStale (c : Cursor) (k : PendingKey) : Bool :=
  k.origin.line < c.line || k.origin.index + 1024 < c.index

/-- Forgets a pending key that has become stale. -/
def freshKey (c : Cursor) (k : Option PendingKey) : Except Malformed (Option PendingKey) :=
  match k with
  | none => .ok none
  | some k =>
    if isStale c k then
      if k.required then .error ⟨"could not find expected ':'"⟩ else .ok none
    else .ok (some k)

/-- Forgets the pending keys that have become stale. -/
def dropStale (s : Scanner) : Except Malformed Scanner := do
  let blockKey ← freshKey s.cursor s.blockKey
  let flowKeys ← s.flowKeys.mapM (freshKey s.cursor)
  return { s with blockKey, flowKeys }

/-- Opens a block collection if the column lies right of the current one. -/
def roll (s : Scanner) (column : Nat) (place : Nat) (t : Token) : Scanner :=
  if !s.inFlow ∧ s.indent < (column : Int) then
    { s.insertToken place t with indent := column, outer := s.indent :: s.outer }
  else s

/-- Closes block collections that lie right of a column. -/
def closeBlocks (column : Int) : List Int → Int → List Token → List Token × Int × List Int
  | outer, indent, tokens =>
    if indent ≤ column then (tokens, indent, outer)
    else match outer with
      | next :: rest => closeBlocks column rest next (tokens ++ [.blockEnd])
      | [] => (tokens, indent, [])

/-- Closes the block collections that the column has left. -/
def unroll (s : Scanner) (column : Int) : Scanner :=
  if s.inFlow then s
  else
    let (tokens, indent, outer) := closeBlocks column s.outer s.indent s.tokens
    { s with tokens, indent, outer }

/-- The mark of the order of bytes, which may come before a line. -/
def byteOrderMark : Char :=
  Char.ofNat 0xFEFF

/-- Skips white space, comments and line ends. A new line of a block may start with a key. -/
def toNextToken : Nat → Scanner → Scanner
  | 0, s => s
  | fuel + 1, s =>
    match s.cursor.rest with
    | [] => s
    | x :: _ =>
      if x = ' ' ∨ (x = '\t' ∧ (s.inFlow ∨ !s.keyAllowed)) ∨
          (x = byteOrderMark ∧ s.cursor.column = 0) then
        toNextToken fuel { s with cursor := s.cursor.skip }
      else if x = '#' then toNextToken fuel { s with cursor := s.cursor.lineEnd }
      else if isBreak x then
        toNextToken fuel
          { s with cursor := s.cursor.nextLine.2, keyAllowed := s.keyAllowed || !s.inFlow }
      else s

/-- Opens a flow collection. -/
def openFlow (s : Scanner) (t : Token) : Except Malformed Scanner := do
  let s ← s.savePending
  return { s.emit t with
    flowKeys := none :: s.flowKeys, keyAllowed := true, cursor := s.cursor.skip }

/-- Closes a flow collection. -/
def closeFlow (s : Scanner) (t : Token) : Except Malformed Scanner := do
  let s ← s.dropPending
  return { s.emit t with
    flowKeys := s.flowKeys.drop 1, keyAllowed := false, cursor := s.cursor.skip }

/-- The comma of a flow collection. -/
def flowEntry (s : Scanner) : Except Malformed Scanner := do
  let s ← s.dropPending
  return { s.emit .flowEntry with keyAllowed := true, cursor := s.cursor.skip }

/-- The dash of a block sequence. -/
def blockEntry (s : Scanner) : Except Malformed Scanner := do
  if !s.inFlow ∧ !s.keyAllowed then
    .error ⟨"block sequence entries are not allowed in this context"⟩
  let s := s.roll s.cursor.column s.tokens.length .blockSequenceStart
  let s ← s.dropPending
  return { s.emit .blockEntry with keyAllowed := true, cursor := s.cursor.skip }

/-- The question mark before a key. -/
def explicitKey (s : Scanner) : Except Malformed Scanner := do
  if !s.inFlow ∧ !s.keyAllowed then
    .error ⟨"mapping keys are not allowed in this context"⟩
  let s := s.roll s.cursor.column s.tokens.length .blockMappingStart
  let s ← s.dropPending
  return { s.emit .key with keyAllowed := !s.inFlow, cursor := s.cursor.skip }

/-- The colon before a value. -/
def mappingValue (s : Scanner) : Except Malformed Scanner :=
  match s.pending with
  | some k =>
    let s := s.insertToken k.place .key
    let s := s.roll k.origin.column k.place .blockMappingStart
    let s := s.setPending none
    .ok { s.emit .value with keyAllowed := false, cursor := s.cursor.skip }
  | none =>
    if !s.inFlow ∧ !s.keyAllowed then
      .error ⟨"mapping values are not allowed in this context"⟩
    else
      let s := s.roll s.cursor.column s.tokens.length .blockMappingStart
      .ok { s.emit .value with keyAllowed := !s.inFlow, cursor := s.cursor.skip }

/-- A directive. -/
def directive (s : Scanner) : Except Malformed Scanner := do
  let s ← (s.unroll (-1)).dropPending
  let (d, cursor) ← Yaml.directive s.cursor
  return { s.emit (.directive d) with keyAllowed := false, cursor }

/-- An anchor, or an alias of one. -/
def anchor (s : Scanner) (token : String → Token) : Except Malformed Scanner := do
  let s ← s.savePending
  let (name, cursor) ← anchorName s.cursor.skip
  return { s.emit (token name) with keyAllowed := false, cursor }

/-- A tag. -/
def tag (s : Scanner) : Except Malformed Scanner := do
  let s ← s.savePending
  let (t, cursor) ← writtenTag s.inFlow s.cursor
  return { s.emit (.tag t) with keyAllowed := false, cursor }

/-- A quoted scalar. -/
def quoted (s : Scanner) (quote : Char) : Except Malformed Scanner := do
  let s ← s.savePending
  let (text, cursor) ← quotedScalar quote s.cursor
  return { s.emit (.scalar .quoted (String.ofList text)) with keyAllowed := false, cursor }

/-- A block scalar. -/
def block (s : Scanner) (literal : Bool) : Except Malformed Scanner := do
  let s ← s.dropPending
  let (text, cursor) ← blockScalar literal s.indent s.cursor
  let style := if literal then .literal else .folded
  return { s.emit (.scalar style (String.ofList text)) with keyAllowed := true, cursor }

/-- A plain scalar. A line that ended after it may be followed by a key. -/
def plain (s : Scanner) : Except Malformed Scanner := do
  let s ← s.savePending
  let (scalar, cursor) ← plainScalar s.inFlow s.indent s.cursor
  return { s.emit (.scalar .plain (String.ofList scalar.text)) with
    keyAllowed := scalar.broken, cursor }

/-- The mark of a document's start or end. -/
def documentMark (s : Scanner) (t : Token) : Except Malformed Scanner := do
  let s := s.unroll (-1)
  let s ← s.dropPending
  return { s.emit t with keyAllowed := false, cursor := s.cursor.advance 3 }

/-- Characters that start something else than a plain scalar. -/
def isIndicator (c : Char) : Bool :=
  c ∈ ['-', '?', ':', ',', '[', ']', '{', '}', '#', '&', '*', '!', '|', '>', '\'', '"', '%', '@',
    Char.ofNat 96]

/-- A plain scalar starts here. -/
def startsPlain (s : Scanner) (x : Char) (rest : List Char) : Bool :=
  !(isIndicator x || isBlank x) || (x = '-' && !rest.head?.any isBlank) ||
    (!s.inFlow && (x = '?' || x = ':') && !atGap rest)

/-- Reads one token; nothing is left to read at the end of the text. -/
def next (s : Scanner) : Except Malformed (Option Scanner) := do
  let s := toNextToken (s.cursor.rest.length + 1) s
  let s ← s.dropStale
  let s := s.unroll s.cursor.column
  match s.cursor.rest with
  | [] => return none
  | x :: rest =>
    if s.cursor.column = 0 ∧ x = '%' then return some (← s.directive)
    else if s.cursor.atDocumentMark then
      return some (← s.documentMark (if x = '-' then .documentStart else .documentEnd))
    else if x = '[' then return some (← s.openFlow .flowSequenceStart)
    else if x = '\x7b' then return some (← s.openFlow .flowMappingStart)
    else if x = ']' then return some (← s.closeFlow .flowSequenceEnd)
    else if x = '\x7d' then return some (← s.closeFlow .flowMappingEnd)
    else if x = ',' then return some (← s.flowEntry)
    else if x = '-' ∧ atGap rest then return some (← s.blockEntry)
    else if x = '?' ∧ (s.inFlow ∨ atGap rest) then return some (← s.explicitKey)
    else if x = ':' ∧ (s.inFlow ∨ atGap rest) then return some (← s.mappingValue)
    else if x = '*' then return some (← s.anchor .alias)
    else if x = '&' then return some (← s.anchor .anchor)
    else if x = '!' then return some (← s.tag)
    else if x = '|' ∧ !s.inFlow then return some (← s.block true)
    else if x = '>' ∧ !s.inFlow then return some (← s.block false)
    else if x = '\'' ∨ x = '"' then return some (← s.quoted x)
    else if s.startsPlain x rest then return some (← s.plain)
    else .error ⟨"found character that cannot start any token"⟩

/-- Reads tokens up to the end of the text. -/
def run : Nat → Scanner → Except Malformed (List Token)
  | 0, s => .ok s.tokens
  | fuel + 1, s => do
    match ← s.next with
    | some s => run fuel s
    | none =>
      let s := s.unroll (-1)
      let s ← s.dropPending
      return s.tokens

end Scanner

/-- Characters that a document may hold. -/
def isAllowed (c : Char) : Bool :=
  let n := c.toNat
  n = 9 || n = 10 || n = 13 || (0x20 ≤ n && n ≤ 0x7E) || n = 0x85 || (0xA0 ≤ n && n ≤ 0xFFFD) ||
    0x10000 ≤ n

/-- The tokens of a text. -/
def tokens (text : List Char) : Except Malformed (List Token) :=
  if text.all isAllowed then Scanner.run (text.length + 1) { cursor := .start text }
  else .error ⟨"control characters are not allowed"⟩

end Yaml

end GossipDirectory
