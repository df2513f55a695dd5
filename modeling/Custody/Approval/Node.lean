import Custody.NameSet
import Custody.Wire.Field

/-!
# Expression nodes

An approval expression is a tree of nodes. A leaf names a signer; an inner node asks for all of its
children or for a number of them. On the wire a node is a message whose fields are the kind, the
threshold, the children and the signer's name; `encode` leaves out fields that are zero or empty,
and `decode` reads any message of that form, whatever the tree means. Trees nest at most
`Node.maxDepth` deep below their root when they are read, and one level less when they are written
(`encode?`).
-/

namespace Custody.Approval

/-- A node of an approval expression, as it stands on the wire. -/
structure Node where
  /-- What the node asks for: 1 for all of its children, 2 for `threshold` of them, 3 for the
  signer. -/
  kind : UInt32 := 0
  /-- How many children a node of kind 2 asks for. -/
  threshold : UInt32 := 0
  /-- The nodes below. -/
  children : List Node := []
  /-- The abbreviation of the participant that a node of kind 3 asks for. -/
  signer : String := ""
deriving Inhabited

namespace Node

/-- The kind of a node that asks for all of its children. -/
def allKind : UInt32 := 1

/-- The kind of a node that asks for a number of its children. -/
def thresholdKind : UInt32 := 2

/-- The kind of a leaf. -/
def signerKind : UInt32 := 3

/-- The leaf that asks for a participant. -/
def ofSigner (name : String) : Node :=
  { kind := signerKind, signer := name }

/-- The node that asks for all of the children. -/
def allOf (children : List Node) : Node :=
  { kind := allKind, children }

/-- The node that asks for `count` of the children. -/
def atLeast (count : UInt32) (children : List Node) : Node :=
  { kind := thresholdKind, threshold := count, children }

/-- The node that asks for any one of the children. -/
def anyOf (children : List Node) : Node :=
  atLeast 1 children

mutual

/-- The written form of a node. -/
def encode : Node → Bytes
  | ⟨kind, threshold, children, signer⟩ =>
    Wire.writeNonzero 1 kind.toNat ++ Wire.writeNonzero 2 threshold.toNat ++
      encodeChildren children ++ Wire.writeNonempty 4 (Utf8.encode signer)

/-- The written forms of children, each as a field of its parent. -/
def encodeChildren : List Node → Bytes
  | [] => []
  | child :: rest => Wire.writeBytes 3 child.encode ++ encodeChildren rest

end

mutual

/-- How many levels of nodes lie below a node. -/
def levels : Node → Nat
  | ⟨_, _, children, _⟩ => levelsOf children

/-- How many levels children and the nodes below them make up. -/
def levelsOf : List Node → Nat
  | [] => 0
  | child :: rest => max (child.levels + 1) (levelsOf rest)

end

/-- How many levels of nodes may lie below one that is written. -/
def deepestWritten : Nat := 99

/-- The written form of a node, unless too many levels lie below it. -/
def encode? (node : Node) : Option Bytes :=
  if node.levels ≤ deepestWritten then some node.encode else none

/-- A field of the message taken into the node; `child` reads the nodes below. -/
def addField (child : Bytes → Except Wire.Fault Node) (node : Node) :
    Wire.Field → Except Wire.Fault Node
  | ⟨1, .number n⟩ => .ok { node with kind := UInt32.ofNat n }
  | ⟨2, .number n⟩ => .ok { node with threshold := UInt32.ofNat n }
  | ⟨3, .bytes content⟩ =>
    match child content with
    | .error fault => .error fault
    | .ok c => .ok { node with children := node.children ++ [c] }
  | ⟨4, .bytes content⟩ =>
    match Wire.readText content with
    | .error fault => .error fault
    | .ok signer => .ok { node with signer }
  | _ => .ok node

/-- The node that a message holds, below which `depth` levels may nest. -/
def decodeWithin : (depth : Nat) → Bytes → Except Wire.Fault Node
  | 0 => Wire.foldFields 0 (addField fun _ => .error .tooDeep) {}
  | depth + 1 => Wire.foldFields (depth + 1) (addField (decodeWithin depth)) {}

/-- How many levels of nodes may lie below the root. -/
def maxDepth : Nat := 100

/-- The node that bytes are a message of. -/
def decode (raw : Bytes) : Except Wire.Fault Node :=
  decodeWithin maxDepth raw

end Node

end Custody.Approval
