import Custody.Yaml.Atom
import Custody.Yaml.Tree

/-!
# Graphs of YAML documents

Where a tree has an alias, the document has the very node of that name, so that a node may be
within several collections, and a collection within itself. A `Graph` is therefore a table of nodes,
which refer to each other by their places in it. A node is a scalar, a sequence or a mapping with
its type: the one that its tag names, or the usual one.

`Graph.ofTree` numbers the nodes of a tree, each collection before what is in it.
-/

namespace Custody.Yaml

/-- The type of a node. -/
inductive NodeType where
  | scalar (type : ScalarType)
  | list | map | set | pairs | orderedMap
  /-- The mark under which a mapping has other mappings. -/
  | merge
  /-- The mark under which a mapping has its value as a scalar. -/
  | default
  /-- Types that no document of values has. -/
  | unknown
deriving DecidableEq, Repr

namespace NodeType

/-- The type of a plain scalar. -/
def ofPlain : PlainType → NodeType
  | .null => .scalar .null
  | .bool => .scalar .bool
  | .int => .scalar .int
  | .decimal => .scalar .decimal
  | .timestamp => .scalar .timestamp
  | .merge => .merge
  | .default => .default
  | .reserved => .unknown
  | .text => .scalar .text

/-- The types by the tags that name them. -/
def named : List (String × NodeType) :=
  [("null", .scalar .null), ("bool", .scalar .bool), ("int", .scalar .int),
   ("float", .scalar .decimal), ("binary", .scalar .binary), ("timestamp", .scalar .timestamp),
   ("str", .scalar .text), ("omap", .orderedMap), ("pairs", .pairs), ("set", .set),
   ("seq", .list), ("map", .map), ("merge", .merge), ("value", .default)]

/-- The type that a tag names. -/
def ofTag (tag : List Char) : NodeType :=
  match named.find? fun (name, _) => ("tag:yaml.org,2002:" ++ name).toList == tag with
  | some (_, type) => type
  | none => .unknown

/-- The type of a node with the given tag, where `usual` is that of one without. An exclamation
mark alone asks for the usual type. -/
def of (tag : Option (List Char)) (usual : NodeType) : NodeType :=
  match tag with
  | none => usual
  | some tag => if tag == ['!'] then usual else ofTag tag

/-- The type that a text has as a plain scalar. -/
def ofText (t : Text) : NodeType :=
  match t.chars? with
  | some cs => ofPlain (PlainType.of cs)
  | none => .scalar .text

/-- The type of a scalar: a plain one, and one whose tag asks for it, has the type that its
spelling has as a plain scalar. -/
def ofScalar (tag : Option (List Char)) (t : Text) (plain : Bool) : NodeType :=
  of tag (if plain || tag == some ['!'] then ofText t else .scalar .text)

end NodeType

/-- The place of a node in a graph. -/
abbrev Place := Nat

/-- What a node is made of. -/
inductive Shape where
  | scalar (t : Text)
  | sequence (items : List Place)
  | mapping (entries : List (Place × Place))
deriving DecidableEq, Repr

/-- A node of a document. -/
structure Node where
  /-- Its type. -/
  type : NodeType
  /-- What it is made of. -/
  shape : Shape
deriving DecidableEq, Repr

/-- A table of nodes. -/
abbrev Graph := Array Node

namespace Graph

/-- The graph with another shape of a node. -/
def setShape (place : Place) (shape : Shape) (g : Graph) : Graph :=
  g.modify place fun node => { node with shape }

/-- The type of the node at a place. -/
def typeAt (g : Graph) (place : Place) : NodeType :=
  (g[place]?.map (·.type)).getD .unknown

/-- The shape of the node at a place. -/
def shapeAt (g : Graph) (place : Place) : Shape :=
  (g[place]?.map (·.shape)).getD (.sequence [])

/-! ## Numbering a tree -/

/-- The nodes that have names. -/
abbrev Anchors := List (List Char × Place)

/-- The nodes numbered so far, and those that have names. -/
structure Numbering where
  /-- The nodes. -/
  graph : Graph := #[]
  /-- The places of those that have names. -/
  anchors : Anchors := []

namespace Numbering

/-- A node more, and its place. -/
def add (anchor : Option (List Char)) (node : Node) (n : Numbering) : Place × Numbering :=
  let place := n.graph.size
  (place,
    { graph := n.graph.push node
      anchors := (anchor.map fun name => (name, place)).toList ++ n.anchors })

/-- The node at a place given its shape. -/
def finish (place : Place) (shape : Shape) (n : Numbering) : Numbering :=
  { n with graph := n.graph.setShape place shape }

mutual

/-- The place of a tree's node, its name known before what is in it is numbered. -/
def addTree (n : Numbering) : Tree → Except Fault (Place × Numbering)
  | .alias name =>
    match n.anchors.lookup name with
    | some place => .ok (place, n)
    | none => .error .malformed
  | .scalar properties t plain =>
    .ok (n.add properties.anchor ⟨.ofScalar properties.tag t plain, .scalar t⟩)
  | .sequence properties trees => do
    let (place, n) := n.add properties.anchor ⟨.of properties.tag .list, .sequence []⟩
    let (items, n) ← addItems n trees
    .ok (place, n.finish place (.sequence items))
  | .mapping properties trees => do
    let (place, n) := n.add properties.anchor ⟨.of properties.tag .map, .mapping []⟩
    let (entries, n) ← addEntries n trees
    .ok (place, n.finish place (.mapping entries))

/-- The places of the items of a sequence. -/
def addItems (n : Numbering) : List Tree → Except Fault (List Place × Numbering)
  | [] => .ok ([], n)
  | tree :: rest => do
    let (place, n) ← addTree n tree
    let (places, n) ← addItems n rest
    .ok (place :: places, n)

/-- The places of the entries of a mapping. -/
def addEntries (n : Numbering) :
    List (Tree × Tree) → Except Fault (List (Place × Place) × Numbering)
  | [] => .ok ([], n)
  | (key, value) :: rest => do
    let (key, n) ← addTree n key
    let (value, n) ← addTree n value
    let (entries, n) ← addEntries n rest
    .ok ((key, value) :: entries, n)

end

end Numbering

/-- The graph of a tree, and the place of the tree's own node. -/
def ofTree (tree : Tree) : Except Fault (Place × Graph) := do
  let (place, n) ← Numbering.addTree {} tree
  .ok (place, n.graph)

end Graph

end Custody.Yaml
