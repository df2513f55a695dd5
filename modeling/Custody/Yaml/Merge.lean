import Custody.Yaml.Graph

/-!
# Merging mappings

A mapping may have other mappings under the merge mark; their entries then go before its own.
`Graph.merged` carries this out for one mapping, and before that for those that are merged into it,
and leaves them so in the graph. Once that is done, the mark for a default counts as text where it
is a key of one of these mappings.

Each step takes an entry with the mark away for good, so that there are no more steps than such
entries.
-/

namespace Custody.Yaml.Graph

/-- The entries before the first under the merge mark, the value of that one, and the entries after
it. -/
def splitMerge (g : Graph) : List (Place × Place) →
    Option (List (Place × Place) × Place × List (Place × Place))
  | [] => none
  | (key, value) :: rest =>
    if g.typeAt key = .merge then some ([], value, rest)
    else (splitMerge g rest).map fun (before, found, after) =>
      ((key, value) :: before, found, after)

/-- The graph with a key that is the mark for a default made text. -/
def keyAsText (g : Graph) (key : Place) : Graph :=
  g.modify key fun node =>
    if node.type = .default then { node with type := .scalar .text } else node

/-- The entries of the mapping at a place, if there is one. -/
def entriesAt (g : Graph) (place : Place) : Except Fault (List (Place × Place)) :=
  match g.shapeAt place with
  | .mapping entries => .ok entries
  | _ => .error .malformed

/-- The graph with all merging into the mapping at a place carried out; `merged` are the entries
that were merged into it so far. -/
def mergeInto : (fuel : Nat) → Graph → Place → List (Place × Place) → Except Fault Graph
  | 0, _, _, _ => .error .malformed
  | fuel + 1, g, place, merged => do
    let entries ← g.entriesAt place
    match g.splitMerge entries with
    | none =>
      let g := entries.foldl (fun g (key, _) => g.keyAsText key) g
      .ok (g.setShape place (.mapping (merged ++ entries)))
    | some (before, value, after) =>
      let g := g.setShape place (.mapping (before ++ after))
      match g.shapeAt value with
      | .scalar _ => .error .malformed
      | .mapping _ => do
        let g ← mergeInto fuel g value []
        mergeInto fuel g place (merged ++ (← g.entriesAt value))
      | .sequence items => do
        let (g, parts) ← items.foldlM (fun (g, parts) item => do
          let g ← mergeInto fuel g item []
          .ok (g, (← g.entriesAt item) :: parts)) (g, [])
        mergeInto fuel g place (merged ++ parts.flatten)

/-- The number of entries under the merge mark. -/
def countMerges (g : Graph) : Nat :=
  g.foldl (fun n node =>
    match node.shape with
    | .mapping entries => n + (entries.filter fun (key, _) => g.typeAt key = .merge).length
    | _ => n) 0

/-- The graph with all merging into the mapping at a place carried out. -/
def merged (g : Graph) (place : Place) : Except Fault Graph :=
  g.mergeInto (g.countMerges + 1) place []

end Custody.Yaml.Graph
