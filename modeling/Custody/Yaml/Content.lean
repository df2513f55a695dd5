import Custody.Yaml.Merge

/-!
# What nodes hold

`Filling.fillAll` finds out what the nodes of a graph hold, from one node on: an atom, or the places
of what is in a collection. A collection is opened when its place is first come to, and filled when
all those opened before it have been, so that collections may contain each other; of several faults,
the one come to first in this order counts. Keys of mappings and members of sets are atoms.

`valueAt` reads off the value of a node.
-/

namespace Custody.Yaml

/-- A key of a mapping. -/
structure Key where
  /-- The place of its node. -/
  place : Place
  /-- Its value. -/
  atom : Atom

/-- Whether two keys are one. -/
def Key.same (a b : Key) : Bool :=
  a.place == b.place || a.atom.sameKey b.atom

/-- The entries of a mapping, with one more. The key that was there first stays, with the value
that came last. -/
def insertEntry (key : Key) (value : Place) : List (Key × Place) → List (Key × Place)
  | [] => [(key, value)]
  | (k, v) :: rest =>
    if k.same key then (k, value) :: rest else (k, v) :: insertEntry key value rest

/-- What a node holds. -/
inductive Content where
  | atom (a : Atom)
  | list (items : List Place)
  | map (entries : List (Key × Place))
  | set (members : List Key)
  /-- A list of so many pairs. -/
  | pairs (count : Nat)

/-- The text of the node at a place as a scalar: a scalar's own, or that of a mapping's value under
the mark for a default. -/
def Graph.scalarText (g : Graph) : (fuel : Nat) → Place → Except Fault Text
  | 0, _ => .error .endless
  | fuel + 1, place =>
    match g.shapeAt place with
    | .scalar t => .ok t
    | .sequence _ => .error .malformed
    | .mapping entries =>
      match entries.find? fun (key, _) => g.typeAt key = .default with
      | some (_, value) => scalarText g fuel value
      | none => .error .malformed

/-- The atom that the node at a place holds as a scalar of a type. -/
def Graph.atomAt [NumeralLimit] (g : Graph) (type : ScalarType) (place : Place) :
    Except Fault Atom := do
  let t ← g.scalarText (g.size + 1) place
  match type, g.shapeAt place with
  | .timestamp, .mapping _ => .error .mappingAsDate
  | _, _ => Atom.read type t

/-- How far the nodes of a graph have been looked at. -/
structure Filling where
  /-- The nodes, with the merging done so far carried out. -/
  graph : Graph
  /-- What the nodes hold, as far as it is known; an open collection seems to be empty. -/
  contents : Array (Option Content)
  /-- The collections that are open but not filled, in the order in which they are to be. -/
  waiting : List Place := []

namespace Filling

/-- What the node at a place is known to hold. -/
def content? (s : Filling) (place : Place) : Option Content :=
  s.contents[place]?.join

/-- What the node at a place holds made known. -/
def put (place : Place) (content : Content) (s : Filling) : Filling :=
  { s with contents := s.contents.setIfInBounds place (some content) }

/-- The collection at a place opened. -/
def openWith (place : Place) (content : Content) (s : Filling) : Filling :=
  { s.put place content with waiting := s.waiting ++ [place] }

/-- The node at a place come to: a scalar is read, a collection opened. -/
def visit [NumeralLimit] (s : Filling) (place : Place) : Except Fault Filling :=
  match s.content? place with
  | some _ => .ok s
  | none =>
    match s.graph.typeAt place with
    | .scalar type => (s.graph.atomAt type place).map fun a => s.put place (.atom a)
    | .list => .ok (s.openWith place (.list []))
    | .map => .ok (s.openWith place (.map []))
    | .set => .ok (s.openWith place (.set []))
    | .pairs | .orderedMap => .ok (s.openWith place (.pairs 0))
    | .merge | .default | .unknown => .error .malformed

/-- A key of a mapping come to: it has to be an atom. -/
def visitKey [NumeralLimit] (s : Filling) (place : Place) : Except Fault (Key × Filling) := do
  let s ← s.visit place
  match s.content? place with
  | some (.atom atom) => .ok (⟨place, atom⟩, s)
  | _ => .error .malformed

/-- The keys and values of the mapping at a place come to, with all merging into it carried
out. -/
def visitEntries [NumeralLimit] (s : Filling) (place : Place) :
    Except Fault (List (Key × Place) × Filling) := do
  let graph ← s.graph.merged place
  let entries ← graph.entriesAt place
  entries.foldlM (fun (held, s) (key, value) => do
    let (key, s) ← s.visitKey key
    let s ← s.visit value
    .ok (insertEntry key value held, s)) ([], { s with graph })

/-- A pair come to: a mapping of one entry, whose key may be anything. -/
def visitPair [NumeralLimit] (s : Filling) (place : Place) : Except Fault Filling :=
  match s.graph.shapeAt place with
  | .mapping [(key, value)] => do
    let s ← s.visit key
    s.visit value
  | _ => .error .malformed

/-- The collection at a place filled. -/
def fill [NumeralLimit] (s : Filling) (place : Place) : Except Fault Filling :=
  match s.graph.typeAt place, s.graph.shapeAt place with
  | .list, .sequence items => do
    let s ← items.foldlM visit s
    .ok (s.put place (.list items))
  | .pairs, .sequence items | .orderedMap, .sequence items => do
    let s ← items.foldlM visitPair s
    .ok (s.put place (.pairs items.length))
  | .map, .mapping _ => do
    let (entries, s) ← s.visitEntries place
    .ok (s.put place (.map entries))
  | .set, .mapping _ => do
    let (entries, s) ← s.visitEntries place
    .ok (s.put place (.set (entries.map Prod.fst)))
  | _, _ => .error .malformed

/-- All collections filled that are waiting, and those they contain. -/
def fillAll [NumeralLimit] : (fuel : Nat) → Filling → Except Fault Filling
  | 0, s => .ok s
  | fuel + 1, s =>
    match s.waiting with
    | [] => .ok s
    | place :: waiting => do
      let s ← fill { s with waiting } place
      fillAll fuel s

end Filling

/-- What the nodes of a graph hold, from the node at a place on. Each node is opened at most
once. -/
def Graph.contentsFrom [NumeralLimit] (g : Graph) (root : Place) :
    Except Fault (Array (Option Content)) := do
  let s ← Filling.visit { graph := g, contents := Array.replicate g.size none } root
  let s ← s.fillAll g.size
  .ok s.contents

/-- The value of the node at a place. A way through more nodes than there are comes by one of them
twice, so that it does not end. -/
def valueAt (contents : Array (Option Content)) : (fuel : Nat) → Place → Except Fault Value
  | 0, _ => .error .endless
  | fuel + 1, place =>
    match contents[place]?.join with
    | none => .error .malformed
    | some (.atom a) => .ok a.toValue
    | some (.list items) => do
      let values ← items.mapM (valueAt contents fuel)
      .ok (.list values)
    | some (.map entries) => do
      let values ← entries.mapM fun (key, place) => do
        let value ← valueAt contents fuel place
        .ok (key.atom.toValue, value)
      .ok (.map values)
    | some (.set members) => .ok (.set members.length)
    | some (.pairs count) => .ok (.list (List.replicate count .opaqueValue))

/-- The value of a graph from the node at a place on. -/
def Graph.value [NumeralLimit] (g : Graph) (root : Place) : Except Fault Value := do
  let contents ← g.contentsFrom root
  valueAt contents contents.size root

end Custody.Yaml
