import Custody.Yaml.Content

/-!
# YAML documents

`Yaml.load` reads the value of a text's one document; a text without a document has the value
null.
-/

namespace Custody.Yaml

/-- The value of a text's document, null if it has none. -/
def load [NumeralLimit] (text : List Char) : Except Fault Value := do
  match ← Tree.ofTokens (Token.scan (unifyLineEnds text)) with
  | none => .ok .null
  | some tree => do
    let (root, graph) ← Graph.ofTree tree
    graph.value root

end Custody.Yaml
