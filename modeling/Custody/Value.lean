import Custody.Bytes
import Custody.Decimal.Double
import Custody.Text.Basic

/-!
# Plain data

The values that documents hold before they are given a meaning: scalars, lists and mappings, and a
few kinds of scalar that no setting takes. A mapping is a list of entries in the order in which
they were written; of several entries with one key, the last counts.
-/

namespace Custody

/-- A value of a document. -/
inductive Value where
  | null
  | bool (b : Bool)
  | int (n : Int)
  | decimal (x : Double)
  | text (s : Text)
  | bytes (content : Bytes)
  | list (items : List Value)
  | map (entries : List (Value × Value))
  /-- A set, of which only the number of members matters. -/
  | set (size : Nat)
  /-- A value of another kind, such as a date. -/
  | opaqueValue
deriving Inhabited

namespace Value

/-- A mapping with text keys. -/
def ofFields (fields : List (String × Value)) : Value :=
  .map (fields.map fun (key, value) => (.text key, value))

/-- Whether a value is a given text. -/
def isText (name : String) : Value → Bool
  | .text s => s == Text.ofString name
  | _ => false

/-- The value of the last entry with the given text as its key. -/
def field? (name : String) (entries : List (Value × Value)) : Option Value :=
  (entries.reverse.find? fun entry => entry.1.isText name).map Prod.snd

/-- Whether a value is empty or zero, so that a document of it counts as a document without
entries. -/
def isVoid : Value → Bool
  | .null => true
  | .bool b => !b
  | .int n => n == 0
  | .decimal x => x.isZero
  | .text s => s.isEmpty
  | .bytes content => content.isEmpty
  | .list items => items.isEmpty
  | .map entries => entries.isEmpty
  | .set size => size == 0
  | .opaqueValue => false

end Value

end Custody
