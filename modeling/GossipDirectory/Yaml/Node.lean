import GossipDirectory.Yaml.Scanner
import GossipDirectory.Yaml.Tree

/-!
# Documents

A document is a tree of scalars, sequences and mappings. A text holds at most one document; a text
without any reads as an empty plain scalar, just like a missing value. Tags change nothing but what
a literal block may stand for: with the tag of numbers it may be one, with that of truth values it
may be one of those.
-/

namespace GossipDirectory

namespace Yaml

/-- A reader takes the tokens that are left; it answers what it read and the tokens after that. -/
abbrev TokenReader (α : Type) := List Token → Except Malformed (α × List Token)

/-! ## Tags -/

/-- What the handles of a document's tags stand for. -/
abbrev Handles := List (String × Bytes)

/-- What handles stand for unless a document says otherwise. -/
def standardHandles : Handles :=
  [("!", Utf8.encode "!"), ("!!", Utf8.encode "tag:yaml.org,2002:")]

/-- The tag that is meant. -/
def fullTag (handles : Handles) (t : WrittenTag) : Except Malformed Bytes :=
  if t.handle = "" then .ok t.suffix
  else match Keyed.get? t.handle handles with
    | some start => .ok (start ++ t.suffix)
    | none => .error ⟨"found undefined tag handle"⟩

/-- The plain scalars that stand for truth values. -/
def truthTexts : List String :=
  ["true", "True", "TRUE", "false", "False", "FALSE"]

/-- A scalar may be read as a number or a truth value. -/
def readsAsPlain (style : Style) (tag : Option Bytes) (text : String) : Bool :=
  match style with
  | .plain => true
  | .literal =>
    (tag = some (Utf8.encode "tag:yaml.org,2002:int") && text ∉ "" :: truthTexts) ||
      (tag = some (Utf8.encode "tag:yaml.org,2002:bool") && text ∈ truthTexts)
  | _ => false

/-- What stands before the content of a node. -/
structure Properties where
  anchor : Option String := none
  tag : Option Bytes := none
  deriving DecidableEq

/-- Reads an anchor and a tag, in either order. -/
def properties (handles : Handles) : TokenReader Properties
  | .anchor name :: .tag t :: ts | .tag t :: .anchor name :: ts => do
    return ({ anchor := some name, tag := some (← fullTag handles t) }, ts)
  | .anchor name :: ts => .ok ({ anchor := some name }, ts)
  | .tag t :: ts => do
    return ({ tag := some (← fullTag handles t) }, ts)
  | ts => .ok ({}, ts)

/-- A node without content; it is there only if something stands before its content. -/
def contentless (p : Properties) : TokenReader Tree := fun ts =>
  if p = {} then .error ⟨"did not find expected node content"⟩
  else .ok (.scalar p.anchor true "", ts)

/-! ## Nodes -/

/-- Reads a node unless one of the given tokens, or no token, comes first. -/
def nodeUnless (node : TokenReader Tree) (stop : List Token) : TokenReader Tree := fun ts =>
  match ts with
  | t :: _ => if t ∈ stop then .ok (.missing, ts) else node ts
  | [] => node []

/-- Reads a mapping's value in a block. -/
def blockValue (node : TokenReader Tree) : TokenReader Tree
  | .value :: ts => nodeUnless node [.key, .value, .blockEnd] ts
  | ts => .ok (.missing, ts)

/-- Reads a mapping's value in a flow collection that ends with `close`. -/
def flowValue (node : TokenReader Tree) (close : Token) : TokenReader Tree
  | .value :: ts => nodeUnless node [.flowEntry, close] ts
  | ts => .ok (.missing, ts)

mutual

/-- Reads a node. Block collections are allowed in a block only, and a sequence without
indentation only as the value of a mapping. -/
def node (handles : Handles) (block indentless : Bool) : Nat → TokenReader Tree
  | 0, _ => .error ⟨"nesting is too deep"⟩
  | _ + 1, .alias name :: ts => .ok (.alias name, ts)
  | fuel + 1, ts => do
    let (p, ts) ← properties handles ts
    match ts with
    | .blockEntry :: _ =>
      if indentless then do
        let (items, ts) ← indentlessItems handles fuel ts
        return (.sequence p.anchor items, ts)
      else contentless p ts
    | .scalar style text :: ts =>
      return (.scalar p.anchor (readsAsPlain style p.tag text) text, ts)
    | .flowSequenceStart :: ts => do
      let (items, ts) ← flowItems handles true fuel ts
      return (.sequence p.anchor items, ts)
    | .flowMappingStart :: ts => do
      let (entries, ts) ← flowEntries handles true fuel ts
      return (.mapping p.anchor entries, ts)
    | .blockSequenceStart :: rest =>
      if block then do
        let (items, ts) ← blockItems handles fuel rest
        return (.sequence p.anchor items, ts)
      else contentless p ts
    | .blockMappingStart :: rest =>
      if block then do
        let (entries, ts) ← blockEntries handles fuel rest
        return (.mapping p.anchor entries, ts)
      else contentless p ts
    | _ => contentless p ts

/-- Reads the items of a block sequence. -/
def blockItems (handles : Handles) : Nat → TokenReader (List Tree)
  | 0, _ => .error ⟨"nesting is too deep"⟩
  | fuel + 1, ts =>
    match ts with
    | .blockEntry :: ts => do
      let (item, ts) ← nodeUnless (node handles true false fuel) [.blockEntry, .blockEnd] ts
      let (items, ts) ← blockItems handles fuel ts
      return (item :: items, ts)
    | .blockEnd :: ts => .ok ([], ts)
    | _ => .error ⟨"did not find expected '-' indicator"⟩

/-- Reads the items of a sequence without indentation. -/
def indentlessItems (handles : Handles) : Nat → TokenReader (List Tree)
  | 0, _ => .error ⟨"nesting is too deep"⟩
  | fuel + 1, ts =>
    match ts with
    | .blockEntry :: ts => do
      let (item, ts) ←
        nodeUnless (node handles true false fuel) [.blockEntry, .key, .value, .blockEnd] ts
      let (items, ts) ← indentlessItems handles fuel ts
      return (item :: items, ts)
    | _ => .ok ([], ts)

/-- Reads the entries of a block mapping. -/
def blockEntries (handles : Handles) : Nat → TokenReader (List (Tree × Tree))
  | 0, _ => .error ⟨"nesting is too deep"⟩
  | fuel + 1, ts =>
    match ts with
    | .key :: ts => do
      let (k, ts) ← nodeUnless (node handles true true fuel) [.key, .value, .blockEnd] ts
      let (v, ts) ← blockValue (node handles true true fuel) ts
      let (entries, ts) ← blockEntries handles fuel ts
      return ((k, v) :: entries, ts)
    | .blockEnd :: ts => .ok ([], ts)
    | _ => .error ⟨"did not find expected key"⟩

/-- Reads the items of a flow sequence, each after the first behind a comma. -/
def flowItems (handles : Handles) (first : Bool) : Nat → TokenReader (List Tree)
  | 0, _ => .error ⟨"nesting is too deep"⟩
  | fuel + 1, ts =>
    match first, ts with
    | _, .flowSequenceEnd :: ts => .ok ([], ts)
    | true, ts => flowItem handles fuel ts
    | false, .flowEntry :: .flowSequenceEnd :: ts => .ok ([], ts)
    | false, .flowEntry :: ts => flowItem handles fuel ts
    | false, _ => .error ⟨"did not find expected ',' or ']'"⟩

/-- Reads an item of a flow sequence and those after it. A pair is a mapping of its own. -/
def flowItem (handles : Handles) : Nat → TokenReader (List Tree)
  | 0, _ => .error ⟨"nesting is too deep"⟩
  | fuel + 1, ts =>
    match ts with
    | .key :: ts => do
      let (k, ts) ←
        nodeUnless (node handles false false fuel) [.value, .flowEntry, .flowSequenceEnd] ts
      let (v, ts) ← flowValue (node handles false false fuel) .flowSequenceEnd ts
      let (items, ts) ← flowItems handles false fuel ts
      return (.mapping none [(k, v)] :: items, ts)
    | _ => do
      let (item, ts) ← node handles false false fuel ts
      let (items, ts) ← flowItems handles false fuel ts
      return (item :: items, ts)

/-- Reads the entries of a flow mapping, each after the first behind a comma. -/
def flowEntries (handles : Handles) (first : Bool) : Nat → TokenReader (List (Tree × Tree))
  | 0, _ => .error ⟨"nesting is too deep"⟩
  | fuel + 1, ts =>
    match first, ts with
    | _, .flowMappingEnd :: ts => .ok ([], ts)
    | true, ts => flowPair handles fuel ts
    | false, .flowEntry :: .flowMappingEnd :: ts => .ok ([], ts)
    | false, .flowEntry :: ts => flowPair handles fuel ts
    | false, _ => .error ⟨"did not find expected ',' or end of mapping"⟩

/-- Reads an entry of a flow mapping and those after it. -/
def flowPair (handles : Handles) : Nat → TokenReader (List (Tree × Tree))
  | 0, _ => .error ⟨"nesting is too deep"⟩
  | fuel + 1, ts =>
    match ts with
    | .key :: ts => do
      let (k, ts) ←
        nodeUnless (node handles false false fuel) [.value, .flowEntry, .flowMappingEnd] ts
      let (v, ts) ← flowValue (node handles false false fuel) .flowMappingEnd ts
      let (entries, ts) ← flowEntries handles false fuel ts
      return ((k, v) :: entries, ts)
    | _ => do
      let (k, ts) ← node handles false false fuel ts
      let (entries, ts) ← flowEntries handles false fuel ts
      return ((k, .missing) :: entries, ts)

end

/-! ## Documents -/

/-- Reads the directives of a document. -/
def directives : Bool → Handles → List Token → Except Malformed (Handles × List Token)
  | versioned, handles, .directive (.version major minor) :: ts =>
    if versioned then .error ⟨"found duplicate %YAML directive"⟩
    else if major ≠ 1 ∨ (minor ≠ 1 ∧ minor ≠ 2) then .error ⟨"found incompatible YAML document"⟩
    else directives true handles ts
  | versioned, handles, .directive (.handle name start) :: ts =>
    if Keyed.contains name handles then .error ⟨"found duplicate %TAG directive"⟩
    else directives versioned (Keyed.put name start handles) ts
  | _, handles, ts => .ok (handles, ts)

/-- The content of a document starts here. -/
def startsContent : Token → Bool
  | .directive _ | .documentStart | .documentEnd => false
  | _ => true

/-- Reads the content of a document; it may be missing. -/
def content (handles : Handles) (ts : List Token) : Except Malformed (Tree × List Token) :=
  if ts.head?.any startsContent then
    node (handles ++ standardHandles) true false (4 * ts.length + 4) ts
  else .ok (.missing, ts)

/-- Reads a document. Without its mark it has content and no directives. -/
def written (ts : List Token) : Except Malformed (Tree × List Token) := do
  let (handles, rest) ← directives false [] ts
  match ts, rest with
  | [], _ => .ok (.missing, [])
  | _, .documentStart :: rest => content handles rest
  | .directive _ :: _, _ => .error ⟨"did not find expected <document start>"⟩
  | .documentEnd :: _, _ => .error ⟨"did not find expected node content"⟩
  | ts, _ => content handles ts

/-- The document that tokens write. Nothing but end marks may follow it. -/
def document (ts : List Token) : Except Malformed Node := do
  let (tree, rest) ← written ts
  let (root, _) ← resolve [] tree
  if (rest.dropWhile (· = .documentEnd)).isEmpty then .ok root
  else .error ⟨"more than one document"⟩

/-- Reads a text. -/
def parse (text : String) : Except Malformed Node := do
  document (← tokens text.toList)

end Yaml

end GossipDirectory
