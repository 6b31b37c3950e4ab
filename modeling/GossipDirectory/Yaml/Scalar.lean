import GossipDirectory.Yaml.Cursor

/-!
# Scalars

A scalar is plain, quoted once or twice, or a block of lines. Line ends inside plain and quoted
scalars are folded: a single one reads as a space, of several the first is dropped.

## Implementation notes

Loops take the number of characters that are left as fuel; every round takes at least one of them.
-/

namespace GossipDirectory

namespace Yaml

/-- White space between two words of a scalar. -/
structure Gap where
  spaces : List Char := []
  /-- A line ended here. -/
  broken : Bool := false
  firstBreak : List Char := []
  moreBreaks : List Char := []

/-- What a gap reads as. -/
def Gap.folded (g : Gap) : List Char :=
  if g.broken then
    if g.firstBreak = ['\n'] then
      if g.moreBreaks.isEmpty then [' '] else g.moreBreaks
    else g.firstBreak ++ g.moreBreaks
  else g.spaces

/-- Takes white space. A tab left of column `indent` on a new line is refused. -/
def takeGap (indent : Int) : Nat → Gap → Cursor → Except Malformed (Gap × Cursor)
  | 0, g, c => .ok (g, c)
  | fuel + 1, g, c =>
    match c.head? with
    | none => .ok (g, c)
    | some x =>
      if isBlank x then
        if g.broken then
          if x = '\t' ∧ (c.column : Int) < indent then .error ⟨"a tab violates indentation"⟩
          else takeGap indent fuel g c.skip
        else takeGap indent fuel { g with spaces := g.spaces ++ [x] } c.skip
      else if isBreak x then
        let (b, c) := c.nextLine
        if g.broken then takeGap indent fuel { g with moreBreaks := g.moreBreaks ++ b } c
        else takeGap indent fuel { g with spaces := [], broken := true, firstBreak := b } c
      else .ok (g, c)

/-! ## Plain scalars -/

/-- An indicator of flow collections. -/
def isFlowIndicator (c : Char) : Bool :=
  c = ',' || c = '[' || c = ']' || c = '{' || c = '}'

/-- The characters of a plain word, at the front of a text. -/
def plainWord (flow : Bool) : List Char → Except Malformed (List Char)
  | [] => .ok []
  | x :: rest =>
    if isBlank x || isBreak x then .ok []
    else if x = ':' ∧ flow ∧ rest.head?.any (fun y => isFlowIndicator y || y = '?') then
      .error ⟨"found unexpected ':'"⟩
    else if x = ':' ∧ atGap rest then .ok []
    else if flow && isFlowIndicator x then .ok []
    else do
      let word ← plainWord flow rest
      return x :: word

/-- A scalar that was read, and whether a line ended after its last word. -/
structure PlainScalar where
  text : List Char
  broken : Bool

/-- Reads the words of a plain scalar; `g` is the white space before the next one. -/
def plainWords (flow : Bool) (indent : Int) :
    Nat → List Char → Gap → Cursor → Except Malformed (PlainScalar × Cursor)
  | 0, text, g, c => .ok (⟨text, g.broken⟩, c)
  | fuel + 1, text, g, c => do
    if c.atDocumentMark ∨ c.head? = some '#' then return (⟨text, g.broken⟩, c)
    let word ← plainWord flow c.rest
    let width := word.length
    if width = 0 then return (⟨text, g.broken⟩, c)
    let text := text ++ g.folded ++ word
    let c := { c with
      rest := c.rest.drop width, index := c.index + width, column := c.column + width }
    if !atGap c.rest || c.rest.isEmpty then return (⟨text, false⟩, c)
    let (g, c) ← takeGap indent c.rest.length {} c
    if !flow ∧ (c.column : Int) < indent then return (⟨text, g.broken⟩, c)
    plainWords flow indent fuel text g c

/-- Reads a plain scalar inside a block of the given indentation. -/
def plainScalar (flow : Bool) (indent : Int) (c : Cursor) :
    Except Malformed (PlainScalar × Cursor) :=
  plainWords flow (indent + 1) c.rest.length [] {} c

/-! ## Quoted scalars -/

/-- The value of a hexadecimal digit. -/
def hexDigit? (c : Char) : Option Nat :=
  let n := c.toNat
  if 48 ≤ n ∧ n ≤ 57 then some (n - 48)
  else if 97 ≤ n ∧ n ≤ 102 then some (n - 87)
  else if 65 ≤ n ∧ n ≤ 70 then some (n - 55)
  else none

/-- The character that `width` hexadecimal digits name. -/
def hexChar? (width : Nat) (rest : List Char) : Option Char := do
  let digits ← (rest.take width).mapM hexDigit?
  let n := digits.foldl (fun n d => 16 * n + d) 0
  if digits.length = width ∧ (n < 0xD800 ∨ (0xDFFF < n ∧ n ≤ 0x10FFFF)) then some (Char.ofNat n)
  else none

/-- What an escape sequence stands for, and its length after the backslash. -/
def escape? : List Char → Option (Char × Nat)
  | '0' :: _ => some ('\x00', 1)
  | 'a' :: _ => some ('\x07', 1)
  | 'b' :: _ => some ('\x08', 1)
  | 't' :: _ => some ('\t', 1)
  | '\t' :: _ => some ('\t', 1)
  | 'n' :: _ => some ('\n', 1)
  | 'v' :: _ => some ('\x0b', 1)
  | 'f' :: _ => some ('\x0c', 1)
  | 'r' :: _ => some ('\r', 1)
  | 'e' :: _ => some ('\x1b', 1)
  | ' ' :: _ => some (' ', 1)
  | '"' :: _ => some ('"', 1)
  | '/' :: _ => some ('/', 1)
  | '\\' :: _ => some ('\\', 1)
  | 'N' :: _ => some (Char.ofNat 0x85, 1)
  | '_' :: _ => some (Char.ofNat 0xA0, 1)
  | 'L' :: _ => some (Char.ofNat 0x2028, 1)
  | 'P' :: _ => some (Char.ofNat 0x2029, 1)
  | 'x' :: rest => (hexChar? 2 rest).map (·, 3)
  | 'u' :: rest => (hexChar? 4 rest).map (·, 5)
  | 'U' :: rest => (hexChar? 8 rest).map (·, 9)
  | _ => none

/-- The cursor after some characters of the same line. -/
def Cursor.advance (c : Cursor) (width : Nat) : Cursor :=
  { c with rest := c.rest.drop width, index := c.index + width, column := c.column + width }

/-- Reads characters of a quoted scalar up to white space or the closing quote. An escaped line end
ends the word as well; the answer then says that the line was broken. -/
def quotedWord (quote : Char) : Nat → List Char → Cursor → Except Malformed (List Char × Bool × Cursor)
  | 0, text, c => .ok (text, false, c)
  | fuel + 1, text, c =>
    match c.rest with
    | [] => .ok (text, false, c)
    | x :: rest =>
      if isBlank x || isBreak x then .ok (text, false, c)
      else if quote = '\'' ∧ x = '\'' ∧ rest.head? = some '\'' then
        quotedWord quote fuel (text ++ ['\'']) (c.advance 2)
      else if x = quote then .ok (text, false, c)
      else if quote = '"' ∧ x = '\\' then
        if rest.head?.any isBreak then .ok (text, true, c.skip.nextLine.2)
        else match escape? rest with
          | some (y, width) => quotedWord quote fuel (text ++ [y]) (c.advance (width + 1))
          | none => .error ⟨"found unknown escape character"⟩
      else quotedWord quote fuel (text ++ [x]) c.skip

/-- Reads the rest of a quoted scalar. -/
def quotedWords (quote : Char) : Nat → List Char → Cursor → Except Malformed (List Char × Cursor)
  | 0, _, _ => .error ⟨"found unexpected end of stream"⟩
  | fuel + 1, text, c => do
    if c.atDocumentMark then .error ⟨"found unexpected document indicator"⟩
    if c.rest.isEmpty then .error ⟨"found unexpected end of stream"⟩
    let (text, broken, c) ← quotedWord quote c.rest.length text c
    if c.head? = some quote then return (text, c.skip)
    let (g, c) ← takeGap (-1) c.rest.length { broken } c
    quotedWords quote fuel (text ++ g.folded) c

/-- Reads a quoted scalar, from its opening quote on. -/
def quotedScalar (quote : Char) (c : Cursor) : Except Malformed (List Char × Cursor) :=
  quotedWords quote (c.rest.length + 1) [] c.skip

/-! ## Block scalars -/

/-- What happens to the line ends at the end of a block. -/
inductive Chomping
  | strip
  | clip
  | keep
  deriving DecidableEq, Repr

/-- Reads the chomping of a block's header. -/
def chomping? (c : Cursor) : Option (Chomping × Cursor) :=
  match c.head? with
  | some '+' => some (.keep, c.skip)
  | some '-' => some (.strip, c.skip)
  | _ => none

/-- Reads the indentation of a block's header; a zero is refused. -/
def increment? (c : Cursor) : Except Malformed (Option (Nat × Cursor)) :=
  match c.head? with
  | some x =>
    if '1' ≤ x ∧ x ≤ '9' then .ok (some (x.toNat - 48, c.skip))
    else if x = '0' then .error ⟨"found an indentation indicator equal to 0"⟩
    else .ok none
  | none => .ok none

/-- Reads the header of a block after its first indicator. -/
def blockHeader (c : Cursor) : Except Malformed (Chomping × Option Nat × Cursor) := do
  match chomping? c with
  | some (chomping, c) =>
    match ← increment? c with
    | some (n, c) => return (chomping, some n, c)
    | none => return (chomping, none, c)
  | none =>
    match ← increment? c with
    | some (n, c) =>
      match chomping? c with
      | some (chomping, c) => return (chomping, some n, c)
      | none => return (.clip, some n, c)
    | none => return (.clip, none, c)

/-- Skips spaces left of column `limit`; without a limit, all spaces. -/
def skipIndent (limit : Option Nat) : Nat → Cursor → Cursor
  | 0, c => c
  | fuel + 1, c =>
    if c.head? = some ' ' ∧ limit.all (c.column < ·) then skipIndent limit fuel c.skip else c

/-- Reads empty lines of a block; answers their line ends and the greatest column reached. -/
def emptyLines (limit : Option Nat) :
    Nat → Nat → List Char → Cursor → Except Malformed (Nat × List Char × Cursor)
  | 0, widest, breaks, c => .ok (widest, breaks, c)
  | fuel + 1, widest, breaks, c =>
    let c := skipIndent limit c.rest.length c
    let widest := max widest c.column
    if c.head? = some '\t' ∧ limit.all (c.column < ·) then
      .error ⟨"found a tab character where an indentation space is expected"⟩
    else if c.rest.head?.any isBreak then
      let (b, c) := c.nextLine
      emptyLines limit fuel widest (breaks ++ b) c
    else .ok (widest, breaks, c)

/-- The lines of a block as they are read. -/
structure Block where
  text : List Char := []
  /-- The end of the last line. -/
  lastBreak : List Char := []
  /-- Line ends after it. -/
  moreBreaks : List Char := []
  /-- The last line starts with white space. -/
  leadingBlank : Bool := false

/-- Reads the lines of a block whose indentation is known. -/
def blockLines (literal : Bool) (indent : Nat) : Nat → Block → Cursor → Except Malformed (Block × Cursor)
  | 0, b, c => .ok (b, c)
  | fuel + 1, b, c => do
    if c.column ≠ indent ∨ c.rest.isEmpty then return (b, c)
    let blank := c.rest.head?.any isBlank
    let folded := !literal && b.lastBreak.head? = some '\n' && !b.leadingBlank && !blank
    let joint :=
      if folded then if b.moreBreaks.isEmpty then [' '] else [] else b.lastBreak
    let line := c.rest.takeWhile fun x => !isBreak x
    let (lastBreak, next) := c.lineEnd.nextLine
    let (_, moreBreaks, next) ← emptyLines (some indent) next.rest.length 0 [] next
    blockLines literal indent fuel
      { text := b.text ++ joint ++ b.moreBreaks ++ line, lastBreak, moreBreaks
        leadingBlank := blank } next

/-- Reads a block scalar, from its indicator on, inside a block of the given indentation. -/
def blockScalar (literal : Bool) (parent : Int) (c : Cursor) :
    Except Malformed (List Char × Cursor) := do
  let (chomping, increment, c) ← blockHeader c.skip
  let blanks := (c.rest.takeWhile isBlank).length
  let c := c.advance blanks
  let c := if c.head? = some '#' then c.lineEnd else c
  if !atLineEnd c.rest then .error ⟨"did not find expected comment or line break"⟩
  let c := c.nextLine.2
  let known := increment.map fun n => (max parent 0).toNat + n
  let (widest, breaks, c) ← emptyLines known c.rest.length 0 [] c
  let indent := known.getD (max (max widest (parent + 1).toNat) 1)
  let (b, c) ← blockLines literal indent c.rest.length { moreBreaks := breaks } c
  let text := match chomping with
    | .strip => b.text
    | .clip => b.text ++ b.lastBreak
    | .keep => b.text ++ b.lastBreak ++ b.moreBreaks
  return (text, c)

end Yaml

end GossipDirectory
