import Custody.Environment
import Custody.Value

/-!
# Placeholders

A placeholder is a dollar sign and a name in braces; the name has at least one character and no
closing brace. `Placeholder.split` cuts a text into placeholders and single code points, taking
each placeholder as far to the left as it can; every text is its own pieces put together again
(`source_split`). `expand` puts the values of an environment in the place of placeholders, once:
what is put in is not looked at again, and a placeholder whose name has no value stays. The first
placeholder whose name the environment cannot be asked for ends the expanding.
-/

namespace Custody

namespace Placeholder

/-- A piece of a text. -/
inductive Piece where
  | point (p : CodePoint)
  | placeholder (name : List CodePoint)
deriving DecidableEq, Repr

/-- The text that a piece was cut from. -/
def Piece.source : Piece → List CodePoint
  | .point p => [p]
  | .placeholder name => .char '$' :: .char '\x7b' :: name ++ [.char '\x7d']

/-- The code points before the first closing brace, and those after it. -/
def untilBrace : List CodePoint → Option (List CodePoint × List CodePoint)
  | [] => none
  | p :: rest =>
    if p = .char '\x7d' then some ([], rest)
    else (untilBrace rest).map fun (name, after) => (p :: name, after)

/-- A name, the closing brace and what follows it make up the text they were read from. -/
theorem eq_of_untilBrace {text name after : List CodePoint}
    (h : untilBrace text = some (name, after)) : text = name ++ .char '\x7d' :: after := by
  induction text generalizing name with
  | nil => simp [untilBrace] at h
  | cons p rest ih =>
    simp only [untilBrace] at h
    split at h
    · simp_all
    · simp only [Option.map_eq_some_iff, Prod.mk.injEq, Prod.exists] at h
      obtain ⟨_, _, eq, rfl, rfl⟩ := h
      simp [ih eq]

/-- The pieces of a text. -/
def split (text : List CodePoint) : List Piece :=
  match text with
  | [] => []
  | .char '$' :: .char '\x7b' :: inside =>
    match _read : untilBrace inside with
    | some (first :: name, after) => .placeholder (first :: name) :: split after
    | _ => .point (.char '$') :: split (.char '\x7b' :: inside)
  | p :: rest => .point p :: split rest
termination_by text.length
decreasing_by
  · have := congrArg List.length (eq_of_untilBrace ‹_›)
    simp only [List.length_append, List.length_cons] at this ⊢
    omega
  · simp
  · simp

/-- What a piece becomes in an environment. -/
def Piece.expand (env : Environment) : Piece → Except UnencodableName (List CodePoint)
  | .point p => .ok [p]
  | .placeholder name =>
    match env.lookup ⟨name⟩ with
    | .ok (some value) => .ok value.points
    | .ok none => .ok (Piece.placeholder name).source
    | .error fault => .error fault

/-- A text with the values of an environment in the place of its placeholders. -/
def expand (env : Environment) (t : Text) : Except UnencodableName Text :=
  ((split t.points).mapM (Piece.expand env)).map fun parts => ⟨parts.flatten⟩

/-- A text is its pieces put together again. -/
theorem source_split (text : List CodePoint) : (split text).flatMap Piece.source = text := by
  fun_induction split text with
  | case1 => rfl
  | case2 inside first name after read ih => simp [Piece.source, ih, eq_of_untilBrace read]
  | case3 inside _ ih => simp [Piece.source, ih]
  | case4 p rest _ ih => simp [Piece.source, ih]

end Placeholder

namespace Value

mutual

/-- A value with the placeholders expanded in every text that stands as a value in it, at any
depth. Keys of mappings stay as they are. -/
def expand (env : Environment) : Value → Except UnencodableName Value
  | .text s => (Placeholder.expand env s).map .text
  | .list items => (expandItems env items).map .list
  | .map entries => (expandEntries env entries).map .map
  | value => .ok value

/-- The items of a list with their placeholders expanded. -/
def expandItems (env : Environment) : List Value → Except UnencodableName (List Value)
  | [] => .ok []
  | item :: rest => do
    let item ← item.expand env
    let rest ← expandItems env rest
    .ok (item :: rest)

/-- The entries of a mapping with the placeholders in their values expanded. -/
def expandEntries (env : Environment) :
    List (Value × Value) → Except UnencodableName (List (Value × Value))
  | [] => .ok []
  | (key, value) :: rest => do
    let value ← value.expand env
    let rest ← expandEntries env rest
    .ok ((key, value) :: rest)

end

end Value

end Custody
