import Custody.Text.System

/-!
# Environments

The system holds an environment: variables with names and values, which are bytes. It is asked for a
name that is a text, and what it has for it is a text again. A name that cannot be handed over to
the system is a fault, not a name without a value.
-/

namespace Custody

/-- The values of names, as the system holds them. -/
abbrev Environment := Bytes → Option Bytes

/-- That a name cannot be handed over to the system. -/
structure UnencodableName where
  /-- The name. -/
  name : Text
deriving DecidableEq, Repr

namespace Environment

/-- What an environment has for a name. -/
def lookup (env : Environment) (name : Text) : Except UnencodableName (Option Text) :=
  match SystemText.encode? name with
  | some key => .ok ((env key).map SystemText.decode)
  | none => .error ⟨name⟩

/-- The environment of variables whose names and values are strings. -/
def ofStrings (strings : List (String × String)) : Environment := fun key =>
  (strings.find? fun v => Utf8.encode v.1 == key).map fun v => Utf8.encode v.2

/-- A name that is a string can be asked for, and a value that is one is had as it is. -/
theorem lookup_ofString (env : Environment) (name : String) :
    env.lookup (.ofString name) = .ok ((env (Utf8.encode name)).map SystemText.decode) := by
  rw [lookup, SystemText.encode?_ofString]

/-- In an environment of strings a name that is one has its first value. -/
theorem lookup_ofStrings (strings : List (String × String)) (name : String) :
    (ofStrings strings).lookup (.ofString name) =
      .ok ((strings.find? fun v => v.1 == name).map fun v => .ofString v.2) := by
  have same : ∀ other : String, (Utf8.encode other == Utf8.encode name) = (other == name) := by
    intro other
    rw [Bool.eq_iff_iff, beq_iff_eq, beq_iff_eq, ← Utf8.decode?_eq_some_iff, Utf8.decode?_encode,
      Option.some.injEq, eq_comm]
  simp only [lookup_ofString, ofStrings, same, Option.map_map, Function.comp_def,
    SystemText.decode_encode]

end Environment

end Custody
