import GossipDirectory.Text.Utf8
import GossipDirectory.Yaml.Scalar

/-!
# Anchors, tags and directives

Anchors and tags stand before a node. A tag is a handle and a suffix, which may spell bytes as
escapes; directives at the start of a document say what its handles stand for.
-/

namespace GossipDirectory

namespace Yaml

/-- A character of a name. -/
def isWordChar (c : Char) : Bool :=
  c.isAlphanum || c = '_' || c = '-'

/-- The cursor after spaces and tabs. -/
def Cursor.skipBlanks (c : Cursor) : Cursor :=
  c.advance (c.rest.takeWhile isBlank).length

/-- The characters of a name. -/
def word (c : Cursor) : List Char × Cursor :=
  let name := c.rest.takeWhile isWordChar
  (name, c.advance name.length)

/-! ## Anchors -/

/-- What may come after the name of an anchor. -/
def endsAnchor (rest : List Char) : Bool :=
  atGap rest || rest.head?.any (· ∈ ['?', ':', ',', ']', '\x7d', '%', '@', Char.ofNat 96])

/-- Reads the name of an anchor after its indicator. -/
def anchorName (c : Cursor) : Except Malformed (String × Cursor) := do
  let (name, c) := word c
  if name.isEmpty ∨ !endsAnchor c.rest then
    .error ⟨"did not find expected alphabetic or numeric character"⟩
  return (String.ofList name, c)

/-! ## Tags -/

/-- The byte of an escape. -/
def octet? : List Char → Option UInt8
  | '%' :: high :: low :: _ => do
    let high ← hexDigit? high
    let low ← hexDigit? low
    some (UInt8.ofNat (16 * high + low))
  | _ => none

/-- How many bytes a character has whose first byte is given. -/
def octetWidth? (first : UInt8) : Option Nat :=
  if first &&& 0x80 = 0 then some 1
  else if first &&& 0xE0 = 0xC0 then some 2
  else if first &&& 0xF0 = 0xE0 then some 3
  else if first &&& 0xF8 = 0xF0 then some 4
  else none

/-- The bytes of `count` escapes that go on with a character. -/
def trailingOctets : Nat → List Char → Except Malformed Bytes
  | 0, _ => .ok []
  | count + 1, rest =>
    match octet? rest with
    | none => .error ⟨"did not find URI escaped octet"⟩
    | some b =>
      if b &&& 0xC0 = 0x80 then (trailingOctets count (rest.drop 3)).map (b :: ·)
      else .error ⟨"found an incorrect trailing UTF-8 octet"⟩

/-- The bytes of a character that is spelled as escapes, one for each byte. -/
def escapedChar (rest : List Char) : Except Malformed Bytes :=
  match octet? rest with
  | none => .error ⟨"did not find URI escaped octet"⟩
  | some first =>
    match octetWidth? first with
    | none => .error ⟨"found an incorrect leading UTF-8 octet"⟩
    | some width => (trailingOctets (width - 1) (rest.drop 3)).map (first :: ·)

/-- A character of a tag; a verbatim tag may have more of them. -/
def isTagChar (verbatim : Bool) (c : Char) : Bool :=
  isWordChar c ||
    c ∈ [';', '/', '?', ':', '@', '&', '=', '+', '$', '.', '!', '~', '*', '\'', '(', ')'] ||
    verbatim && c ∈ [',', '[', ']']

/-- Reads the characters of a tag. -/
def tagChars (verbatim : Bool) : Nat → Bytes → Cursor → Except Malformed (Bytes × Cursor)
  | 0, text, c => .ok (text, c)
  | fuel + 1, text, c =>
    match c.head? with
    | none => .ok (text, c)
    | some x =>
      if x = '%' then do
        let bytes ← escapedChar c.rest
        tagChars verbatim fuel (text ++ bytes) (c.advance (3 * bytes.length))
      else if isTagChar verbatim x then
        tagChars verbatim fuel (text ++ String.utf8EncodeChar x) c.skip
      else .ok (text, c)

/-- Reads a tag, or what goes on after `start`, which was taken for a handle. -/
def tagText (verbatim : Bool) (start : List Char) (c : Cursor) :
    Except Malformed (Bytes × Cursor) := do
  let (text, c) ← tagChars verbatim c.rest.length [] c
  if start.isEmpty ∧ text.isEmpty then .error ⟨"did not find expected tag URI"⟩
  return (Utf8.encode (String.ofList (start.drop 1)) ++ text, c)

/-- Reads a handle. Outside directives a handle may lack its end, and is then part of a tag. -/
def tagHandle (directive : Bool) (c : Cursor) : Except Malformed (List Char × Cursor) := do
  if c.head? ≠ some '!' then .error ⟨"did not find expected '!'"⟩
  let (name, c) := word c.skip
  if c.head? = some '!' then return ('!' :: (name ++ ['!']), c.skip)
  if directive ∧ !name.isEmpty then .error ⟨"did not find expected '!'"⟩
  return ('!' :: name, c)

/-- A tag as it is written. An empty handle stands for nothing. -/
structure WrittenTag where
  handle : String
  suffix : Bytes
  deriving DecidableEq, Repr

/-- Reads a tag without a handle, between angle brackets. -/
def verbatimTag (c : Cursor) : Except Malformed (WrittenTag × Cursor) := do
  let (suffix, c) ← tagText true [] (c.advance 2)
  if c.head? ≠ some '>' then .error ⟨"did not find the expected '>'"⟩
  return ({ handle := "", suffix }, c.skip)

/-- Reads a tag with a handle. A single exclamation mark is a tag of its own. -/
def handledTag (c : Cursor) : Except Malformed (WrittenTag × Cursor) := do
  let (handle, c) ← tagHandle false c
  if 1 < handle.length ∧ handle.getLast? = some '!' then
    let (suffix, c) ← tagText false [] c
    return ({ handle := String.ofList handle, suffix }, c)
  let (suffix, c) ← tagText false handle c
  if suffix.isEmpty then return ({ handle := "", suffix := Utf8.encode "!" }, c)
  return ({ handle := "!", suffix }, c)

/-- Reads a tag. White space ends it, in a flow collection also a comma. -/
def writtenTag (flow : Bool) (c : Cursor) : Except Malformed (WrittenTag × Cursor) := do
  let (tag, c) ← if (c.rest.drop 1).head? = some '<' then verbatimTag c else handledTag c
  if atGap c.rest ∨ (flow ∧ c.head? = some ',') then return (tag, c)
  .error ⟨"did not find expected whitespace or line break"⟩

/-! ## Directives -/

/-- A directive of a document. -/
inductive Directive
  | version (major minor : Nat)
  | handle (name : String) (start : Bytes)
  deriving DecidableEq, Repr

/-- Reads a part of a version's number, of at most nine digits. -/
def versionPart (c : Cursor) : Except Malformed (Nat × Cursor) := do
  let digits := c.rest.takeWhile Char.isDigit
  if 9 < digits.length then .error ⟨"found extremely long version number"⟩
  if digits.isEmpty then .error ⟨"did not find expected version number"⟩
  let n := digits.foldl (fun n d => 10 * n + (d.toNat - 48)) 0
  return (n, c.advance digits.length)

/-- Reads the number of a version. -/
def versionDirective (c : Cursor) : Except Malformed (Directive × Cursor) := do
  let (major, c) ← versionPart c.skipBlanks
  if c.head? ≠ some '.' then .error ⟨"did not find expected digit or '.' character"⟩
  let (minor, c) ← versionPart c.skip
  return (.version major minor, c)

/-- Reads a handle and what it stands for. -/
def handleDirective (c : Cursor) : Except Malformed (Directive × Cursor) := do
  let (name, c) ← tagHandle true c.skipBlanks
  if !c.head?.any isBlank then .error ⟨"did not find expected whitespace"⟩
  let (start, c) ← tagText true [] c.skipBlanks
  if !atGap c.rest then .error ⟨"did not find expected whitespace or line break"⟩
  return (.handle (String.ofList name) start, c)

/-- Reads a directive from its indicator on, up to the end of the line. -/
def directive (c : Cursor) : Except Malformed (Directive × Cursor) := do
  let (name, c) := word c.skip
  if name.isEmpty then .error ⟨"could not find expected directive name"⟩
  if !atGap c.rest then .error ⟨"found unexpected non-alphabetical character"⟩
  let (d, c) ←
    if name = "YAML".toList then versionDirective c
    else if name = "TAG".toList then handleDirective c
    else .error ⟨"found unknown directive name"⟩
  let c := c.skipBlanks
  let c := if c.head? = some '#' then c.lineEnd else c
  if !atLineEnd c.rest then .error ⟨"did not find expected comment or line break"⟩
  return (d, c.nextLine.2)

end Yaml

end GossipDirectory
