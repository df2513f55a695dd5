import Custody.Settings.Validation
import Custody.Yaml.Document

/-!
# Loading settings

Settings are loaded from the text of a YAML document: its value, or an empty mapping where that is
void, with the placeholders in it expanded, is validated. A placeholder with a name that cannot be
asked for is a fault of its own, before anything is validated.
-/

namespace Custody.Settings

/-- Why a text does not give settings. -/
inductive LoadFault where
  /-- It is not a document of values. -/
  | unreadable (fault : Yaml.Fault)
  /-- A name in its value cannot be asked for. -/
  | unencodable (fault : UnencodableName)
  /-- Its value is not that of settings. -/
  | invalid (flaws : List Flaw)
deriving DecidableEq, Repr

/-- The settings that a value gives in an environment. -/
def ofValueIn (env : Environment) (value : Value) : Except LoadFault Settings :=
  match value.expand env with
  | .error fault => .error (.unencodable fault)
  | .ok expanded => (ofValue expanded).mapError .invalid

/-- The settings that a text gives in an environment. -/
def load [NumeralLimit] (env : Environment) (text : String) : Except LoadFault Settings :=
  match Yaml.load text.toList with
  | .error fault => .error (.unreadable fault)
  | .ok value => ofValueIn env (if value.isVoid then .map [] else value)

end Custody.Settings
