/-!
# Places in a document

A cursor is the text that is left together with its place: how many characters and lines came
before, and the column. A line ends with a line feed, a carriage return, both, or one of three
Unicode characters.
-/

namespace GossipDirectory

namespace Yaml

/-- Why a text is no document. -/
structure Malformed where
  reason : String
  deriving DecidableEq, Repr

/-- The text that is left, and its place. -/
structure Cursor where
  rest : List Char
  index : Nat
  line : Nat
  column : Nat

/-- A space or a tab. -/
def isBlank (c : Char) : Bool :=
  c = ' ' || c = '\t'

/-- A character that ends a line. -/
def isBreak (c : Char) : Bool :=
  c = '\n' || c = '\r' || c.toNat = 0x85 || c.toNat = 0x2028 || c.toNat = 0x2029

/-- White space or the end of the text comes first. -/
def atGap : List Char → Bool
  | [] => true
  | c :: _ => isBlank c || isBreak c

/-- The end of a line or of the text comes first. -/
def atLineEnd : List Char → Bool
  | [] => true
  | c :: _ => isBreak c

/-- The mark of a document's start or end, whichever comes first. -/
def documentMark? : List Char → Option Char
  | '-' :: '-' :: '-' :: rest => if atGap rest then some '-' else none
  | '.' :: '.' :: '.' :: rest => if atGap rest then some '.' else none
  | _ => none

namespace Cursor

/-- The start of a text. -/
def start (text : List Char) : Cursor :=
  { rest := text, index := 0, line := 0, column := 0 }

/-- The next character. -/
def head? (c : Cursor) : Option Char :=
  c.rest.head?

/-- The cursor after one character of the same line. -/
def skip (c : Cursor) : Cursor :=
  { c with rest := c.rest.drop 1, index := c.index + 1, column := c.column + 1 }

/-- The cursor after a line's end, and what the line's end stands for in a text. -/
def nextLine (c : Cursor) : List Char × Cursor :=
  match c.rest with
  | '\r' :: '\n' :: rest =>
    (['\n'], { rest, index := c.index + 2, line := c.line + 1, column := 0 })
  | b :: rest =>
    (if b.toNat = 0x2028 ∨ b.toNat = 0x2029 then [b] else ['\n'],
      { rest, index := c.index + 1, line := c.line + 1, column := 0 })
  | [] => ([], c)

/-- A document's mark stands here, at the start of a line. -/
def atDocumentMark (c : Cursor) : Bool :=
  c.column = 0 && (documentMark? c.rest).isSome

/-- The cursor at the end of the line. -/
def lineEnd (c : Cursor) : Cursor :=
  let width := (c.rest.takeWhile fun x => !isBreak x).length
  { c with rest := c.rest.drop width, index := c.index + width, column := c.column + width }

end Cursor

end Yaml

end GossipDirectory
