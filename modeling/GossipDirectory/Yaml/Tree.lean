import GossipDirectory.Collection.Keyed
import GossipDirectory.Yaml.Cursor

/-!
# Aliases

A node may have an anchor, and an alias stands for the node that had its anchor last. A tree is what
a document writes; following its aliases in the order of the document gives the node that it stands
for.

## Implementation notes

An alias inside the collection that it names would make that collection infinite. Here it stands for
an empty one.
-/

namespace GossipDirectory

namespace Yaml

/-- A node of a document. A scalar is plain if it may stand for a number or a switch. -/
inductive Node
  | scalar (plain : Bool) (text : String)
  | sequence (items : List Node)
  | mapping (entries : List (Node × Node))
  deriving Repr

/-- What stands where a value is missing. -/
def Node.missing : Node :=
  .scalar true ""

instance : Inhabited Node := ⟨.missing⟩

/-- A node as it is written. -/
inductive Tree
  | alias (name : String)
  | scalar (anchor : Option String) (plain : Bool) (text : String)
  | sequence (anchor : Option String) (items : List Tree)
  | mapping (anchor : Option String) (entries : List (Tree × Tree))

/-- What stands where a value is missing. -/
def Tree.missing : Tree :=
  .scalar none true ""

instance : Inhabited Tree := ⟨.missing⟩

/-- Nodes by their anchors, the latest first. -/
abbrev Anchors := List (String × Node)

/-- The node under its anchor, if it has one. -/
def anchored (anchor : Option String) (node : Node) : Anchors :=
  anchor.toList.map (·, node)

mutual

/-- The node that a tree stands for, and the anchors in it. -/
def resolve (known : Anchors) : Tree → Except Malformed (Node × Anchors)
  | .alias name =>
    match Keyed.get? name known with
    | some node => .ok (node, [])
    | none => .error ⟨"unknown anchor"⟩
  | .scalar anchor plain text =>
    .ok (.scalar plain text, anchored anchor (.scalar plain text))
  | .sequence anchor items => do
    let (items, inner) ← resolveItems (anchored anchor (.sequence []) ++ known) items
    return (.sequence items, inner ++ anchored anchor (.sequence items))
  | .mapping anchor entries => do
    let (entries, inner) ← resolveEntries (anchored anchor (.mapping []) ++ known) entries
    return (.mapping entries, inner ++ anchored anchor (.mapping entries))

/-- The nodes that the items stand for. -/
def resolveItems (known : Anchors) : List Tree → Except Malformed (List Node × Anchors)
  | [] => .ok ([], [])
  | t :: rest => do
    let (node, first) ← resolve known t
    let (nodes, others) ← resolveItems (first ++ known) rest
    return (node :: nodes, others ++ first)

/-- The nodes that the names and values of entries stand for. -/
def resolveEntries (known : Anchors) :
    List (Tree × Tree) → Except Malformed (List (Node × Node) × Anchors)
  | [] => .ok ([], [])
  | (k, v) :: rest => do
    let (key, first) ← resolve known k
    let (value, second) ← resolve (first ++ known) v
    let (entries, others) ← resolveEntries (second ++ (first ++ known)) rest
    return ((key, value) :: entries, others ++ (second ++ first))

end

end Yaml

end GossipDirectory
