import Custody.Proofs.Outcome
import Custody.Text.Placeholder

/-!
# Names that can be asked for

Expanding a text asks the environment for the names of its placeholders, one after the other, and
ends at the first that cannot be asked for. Where all can be, it gives the text with what the
environment has put in (`Placeholder.expand_eq_ok_iff`): this filling in (`Placeholder.fill`) cannot
fail, since it takes a name that cannot be asked for as one that has no value. The same holds of
values, by the texts that stand in them (`Value.expand_eq_ok_iff`).

Whether a name can be asked for depends on its surrogates alone (`exists_encode?_iff`).
-/

namespace Custody

open Outcome

/-- A code point stands for bytes: it is a character, or a surrogate that a byte becomes. -/
def CodePoint.IsEncodable : CodePoint → Prop
  | .char _ => True
  | .surrogate offset => 0x480 ≤ offset.val ∧ offset.val < 0x500

instance (p : CodePoint) : Decidable p.IsEncodable :=
  match p with
  | .char _ => inferInstanceAs (Decidable True)
  | .surrogate offset => inferInstanceAs (Decidable (0x480 ≤ offset.val ∧ offset.val < 0x500))

namespace Placeholder

/-- A name can be asked for. -/
def IsEncodable (name : List CodePoint) : Prop :=
  ∀ p ∈ name, p.IsEncodable

instance (name : List CodePoint) : Decidable (IsEncodable name) :=
  inferInstanceAs (Decidable (∀ p ∈ name, p.IsEncodable))

/-- A code point has bytes exactly if it stands for some. -/
theorem exists_systemBytes?_iff {p : CodePoint} :
    (∃ bytes, p.systemBytes? = some bytes) ↔ p.IsEncodable := by
  cases p with
  | char c => exact iff_of_true ⟨_, rfl⟩ trivial
  | surrogate offset =>
    rw [CodePoint.systemBytes?, CodePoint.IsEncodable]
    by_cases range : 0x480 ≤ offset.val ∧ offset.val < 0x500
    · rw [if_pos range]
      exact iff_of_true ⟨_, rfl⟩ range
    · rw [if_neg range]
      refine iff_of_false ?_ range
      rintro ⟨bytes, eq⟩
      cases eq

/-- A name can be handed over exactly if each of its code points stands for bytes. -/
theorem exists_encode?_iff {name : List CodePoint} :
    (∃ key, SystemText.encode? ⟨name⟩ = some key) ↔ IsEncodable name := by
  unfold SystemText.encode? IsEncodable
  simp only [Option.map_eq_some_iff]
  induction name with
  | nil => simp
  | cons p name ih =>
    rw [List.forall_mem_cons, ← exists_systemBytes?_iff, ← ih]
    constructor
    · rintro ⟨key, parts, read, -⟩
      rw [List.mapM_cons] at read
      obtain ⟨first, one, read⟩ := Option.bind_eq_some_iff.1 read
      obtain ⟨others, rest, -⟩ := Option.bind_eq_some_iff.1 read
      exact ⟨⟨first, one⟩, _, others, rest, rfl⟩
    · rintro ⟨⟨first, one⟩, _, others, rest, rfl⟩
      refine ⟨_, first :: others, ?_, rfl⟩
      simp [List.mapM_cons, one, rest]

/-! ## Texts -/

/-- What an environment has for a name, if it can be asked for it and has anything. -/
def valueOf (env : Environment) (name : List CodePoint) : Option (List CodePoint) :=
  match env.lookup ⟨name⟩ with
  | .ok value => value.map Text.points
  | .error _ => none

/-- An environment has something for a name exactly if it answers with it. -/
theorem valueOf_eq_some_iff {env : Environment} {name points : List CodePoint} :
    valueOf env name = some points ↔
      ∃ value : Text, env.lookup ⟨name⟩ = .ok (some value) ∧ value.points = points := by
  rw [valueOf]
  cases env.lookup ⟨name⟩ with
  | error fault => simp
  | ok value => simp

/-- The environment without values has nothing for a name. -/
theorem valueOf_nothing (name : List CodePoint) : valueOf (fun _ => none) name = none := by
  rw [valueOf, Environment.lookup]
  cases SystemText.encode? ⟨name⟩ with
  | none => rfl
  | some key => rfl

/-- An environment of strings has for a name that is one its first value. -/
theorem valueOf_ofStrings (strings : List (String × String)) (name : String) :
    valueOf (.ofStrings strings) (Text.ofString name).points =
      (strings.find? fun v => v.1 == name).map fun v => (Text.ofString v.2).points := by
  have asked := Environment.lookup_ofStrings strings name
  rw [valueOf, asked]
  exact Option.map_map ..

/-- A piece with what an environment has put in. -/
def Piece.fill (env : Environment) : Piece → List CodePoint
  | .point p => [p]
  | .placeholder name => (valueOf env name).getD (Piece.placeholder name).source

/-- A text with what an environment has put in for its placeholders. -/
def fill (env : Environment) (t : Text) : Text :=
  ⟨(split t.points).flatMap (Piece.fill env)⟩

/-- All names of the placeholders of a text can be asked for. -/
def IsAskable (t : Text) : Prop :=
  ∀ name, .placeholder name ∈ split t.points → IsEncodable name

/-- A placeholder whose name can be asked for becomes what is put in for it. -/
theorem expand_placeholder_of_isEncodable {name : List CodePoint} (encodable : IsEncodable name)
    (env : Environment) :
    Piece.expand env (.placeholder name) = .ok (Piece.fill env (.placeholder name)) := by
  obtain ⟨key, encoded⟩ := exists_encode?_iff.2 encodable
  have asked : env.lookup ⟨name⟩ = .ok ((env key).map SystemText.decode) := by
    rw [Environment.lookup, encoded]
  rw [Piece.expand, Piece.fill, valueOf, asked]
  cases env key with
  | none => rfl
  | some value => rfl

/-- A placeholder whose name cannot be asked for ends the expanding. -/
theorem expand_placeholder_of_not_isEncodable {name : List CodePoint}
    (unencodable : ¬ IsEncodable name) (env : Environment) :
    Piece.expand env (.placeholder name) = .error ⟨⟨name⟩⟩ := by
  have unencoded : SystemText.encode? ⟨name⟩ = none := by
    refine Option.eq_none_iff_forall_ne_some.2 fun key encoded => ?_
    exact unencodable (exists_encode?_iff.1 ⟨key, encoded⟩)
  rw [Piece.expand, Environment.lookup, unencoded]

/-- A text whose names can be asked for is expanded to the text with their values put in. -/
theorem expand_of_isAskable {t : Text} (askable : IsAskable t) (env : Environment) :
    expand env t = .ok (fill env t) := by
  have each : ∀ piece ∈ split t.points, piece.expand env = .ok (piece.fill env) := by
    intro piece mem
    cases piece with
    | point p => rfl
    | placeholder name => exact expand_placeholder_of_isEncodable (askable name mem) env
  rw [expand, mapM_eq_map each, map_ok, fill, List.flatMap_def]

/-- A text is not expanded because one of its names cannot be asked for. -/
theorem exists_of_expand_eq_error {env : Environment} {t : Text} {fault : UnencodableName}
    (failed : expand env t = .error fault) :
    ∃ name, .placeholder name ∈ split t.points ∧ ¬ IsEncodable name ∧ fault = ⟨⟨name⟩⟩ := by
  obtain ⟨piece, mem, failed⟩ := exists_of_mapM_eq_error (map_eq_error.1 failed)
  cases piece with
  | point p => cases failed
  | placeholder name =>
    by_cases encodable : IsEncodable name
    · rw [expand_placeholder_of_isEncodable encodable] at failed
      cases failed
    · rw [expand_placeholder_of_not_isEncodable encodable] at failed
      exact ⟨name, mem, encodable, (Except.error.inj failed).symm⟩

/-- A text is expanded exactly if all its names can be asked for, and then to the text with their
values put in. -/
theorem expand_eq_ok_iff {env : Environment} {t t' : Text} :
    expand env t = .ok t' ↔ IsAskable t ∧ fill env t = t' := by
  constructor
  · intro expanded
    have askable : IsAskable t := by
      intro name mem
      obtain ⟨parts, done, -⟩ := map_eq_ok.1 expanded
      obtain ⟨part, done⟩ := exists_mapM_eq_ok_iff.1 ⟨parts, done⟩ _ mem
      by_contra unencodable
      rw [expand_placeholder_of_not_isEncodable unencodable] at done
      cases done
    rw [expand_of_isAskable askable] at expanded
    exact ⟨askable, Except.ok.inj expanded⟩
  · rintro ⟨askable, rfl⟩
    exact expand_of_isAskable askable env

end Placeholder

/-! ## Values -/

namespace Value

/-- A value is no text, and there are no values in it. -/
def IsInert : Value → Prop
  | text _ | list _ | map _ => False
  | _ => True

/-- What holds of texts and of values without values in them, and of a list or a mapping whenever it
holds of the values in it, holds of every value. -/
theorem induction_on {motive : Value → Prop} (text : ∀ t, motive (text t))
    (list : ∀ items, (∀ item ∈ items, motive item) → motive (list items))
    (map : ∀ entries, (∀ entry ∈ entries, motive entry.2) → motive (map entries))
    (inert : ∀ value : Value, value.IsInert → motive value) : ∀ value, motive value
  | .text t => text t
  | .list items => list items fun item _ => induction_on text list map inert item
  | .map entries => map entries fun entry _ => induction_on text list map inert entry.2
  | .null => inert _ trivial
  | .bool _ => inert _ trivial
  | .int _ => inert _ trivial
  | .decimal _ => inert _ trivial
  | .bytes _ => inert _ trivial
  | .set _ => inert _ trivial
  | .opaqueValue => inert _ trivial
termination_by value => sizeOf value
decreasing_by
  · have smaller := List.sizeOf_lt_of_mem ‹item ∈ items›
    rw [Value.list.sizeOf_spec]
    omega
  · have smaller := List.sizeOf_lt_of_mem ‹entry ∈ entries›
    obtain ⟨key, value⟩ := entry
    rw [Prod.mk.sizeOf_spec] at smaller
    rw [Value.map.sizeOf_spec]
    show sizeOf value < _
    omega

mutual

/-- A value with what an environment has put in for the placeholders of the texts in it. -/
def fill (env : Environment) : Value → Value
  | .text s => .text (Placeholder.fill env s)
  | .list items => .list (fillItems env items)
  | .map entries => .map (fillEntries env entries)
  | value => value

/-- The items of a list, each so filled. -/
def fillItems (env : Environment) : List Value → List Value
  | [] => []
  | item :: rest => item.fill env :: fillItems env rest

/-- The entries of a mapping, the value of each so filled. -/
def fillEntries (env : Environment) : List (Value × Value) → List (Value × Value)
  | [] => []
  | (key, value) :: rest => (key, value.fill env) :: fillEntries env rest

end

mutual

/-- The texts that stand as values in a value, at any depth. -/
def texts : Value → List Text
  | .text s => [s]
  | .list items => textsOfItems items
  | .map entries => textsOfEntries entries
  | _ => []

/-- The texts in the items of a list. -/
def textsOfItems : List Value → List Text
  | [] => []
  | item :: rest => item.texts ++ textsOfItems rest

/-- The texts in the values of the entries of a mapping. -/
def textsOfEntries : List (Value × Value) → List Text
  | [] => []
  | (_, value) :: rest => value.texts ++ textsOfEntries rest

end

/-- All names of the placeholders of the texts in a value can be asked for. -/
def IsAskable (value : Value) : Prop :=
  ∀ t ∈ value.texts, Placeholder.IsAskable t

/-- The items of a list are filled each. -/
theorem fillItems_eq (env : Environment) (items : List Value) :
    fillItems env items = items.map (fill env) := by
  induction items with
  | nil => rfl
  | cons item items ih => rw [fillItems, ih, List.map_cons]

/-- The entries of a mapping are filled each. -/
theorem fillEntries_eq (env : Environment) (entries : List (Value × Value)) :
    fillEntries env entries = entries.map fun entry => (entry.1, entry.2.fill env) := by
  induction entries with
  | nil => rfl
  | cons entry entries ih => rw [fillEntries, ih, List.map_cons]

/-- The texts in the items of a list are those of each. -/
theorem textsOfItems_eq (items : List Value) : textsOfItems items = items.flatMap texts := by
  induction items with
  | nil => rfl
  | cons item items ih => rw [textsOfItems, ih, List.flatMap_cons]

/-- The texts in the entries of a mapping are those of each value. -/
theorem textsOfEntries_eq (entries : List (Value × Value)) :
    textsOfEntries entries = entries.flatMap fun entry => entry.2.texts := by
  induction entries with
  | nil => rfl
  | cons entry entries ih => rw [textsOfEntries, ih, List.flatMap_cons]

/-- The items of a list are expanded one after the other. -/
theorem expandItems_eq (env : Environment) (items : List Value) :
    expandItems env items = items.mapM (expand env) := by
  induction items with
  | nil => rfl
  | cons item items ih =>
    rw [expandItems, ih, List.mapM_cons]
    rfl

/-- The entries of a mapping are expanded one after the other. -/
theorem expandEntries_eq (env : Environment) (entries : List (Value × Value)) :
    expandEntries env entries =
      entries.mapM fun entry => (entry.2.expand env).map (entry.1, ·) := by
  induction entries with
  | nil => rfl
  | cons entry entries ih =>
    rw [expandEntries, ih, List.mapM_cons]
    cases entry.2.expand env with
    | error fault => rfl
    | ok value => rfl

/-- A text in an item of a list is a text in the list. -/
theorem mem_texts_list {t : Text} {items : List Value} :
    t ∈ (list items).texts ↔ ∃ item ∈ items, t ∈ item.texts := by
  rw [texts, textsOfItems_eq, List.mem_flatMap]

/-- A text in the value of an entry of a mapping is a text in the mapping. -/
theorem mem_texts_map {t : Text} {entries : List (Value × Value)} :
    t ∈ (map entries).texts ↔ ∃ entry ∈ entries, t ∈ entry.2.texts := by
  rw [texts, textsOfEntries_eq, List.mem_flatMap]

/-- The names of a text can be asked for as those of a value. -/
@[simp] theorem isAskable_text {t : Text} : (text t).IsAskable ↔ Placeholder.IsAskable t := by
  simp [IsAskable, texts]

/-- The names in a list can be asked for if those in each of its items can be. -/
@[simp] theorem isAskable_list {items : List Value} :
    (list items).IsAskable ↔ ∀ item ∈ items, item.IsAskable := by
  simp only [IsAskable, mem_texts_list]
  exact ⟨fun all item mem t mem' => all t ⟨item, mem, mem'⟩,
    fun all t ⟨item, mem, mem'⟩ => all item mem t mem'⟩

/-- The names in a mapping can be asked for if those in the value of each of its entries can be. -/
@[simp] theorem isAskable_map {entries : List (Value × Value)} :
    (map entries).IsAskable ↔ ∀ entry ∈ entries, entry.2.IsAskable := by
  simp only [IsAskable, mem_texts_map]
  exact ⟨fun all entry mem t mem' => all t ⟨entry, mem, mem'⟩,
    fun all t ⟨entry, mem, mem'⟩ => all entry mem t mem'⟩

/-- What is no text and has no values in it is expanded to itself. -/
theorem expand_of_isInert (env : Environment) {value : Value} (inert : value.IsInert) :
    value.expand env = .ok value := by
  cases value with
  | text t => exact inert.elim
  | list items => exact inert.elim
  | map entries => exact inert.elim
  | _ => rfl

/-- What is no text and has no values in it is not filled. -/
theorem fill_of_isInert (env : Environment) {value : Value} (inert : value.IsInert) :
    value.fill env = value := by
  cases value with
  | text t => exact inert.elim
  | list items => exact inert.elim
  | map entries => exact inert.elim
  | _ => rfl

/-- What is no text and has no values in it has no names. -/
theorem isAskable_of_isInert {value : Value} (inert : value.IsInert) : value.IsAskable := by
  cases value with
  | text t => exact inert.elim
  | list items => exact inert.elim
  | map entries => exact inert.elim
  | _ => exact fun t mem => absurd mem List.not_mem_nil

/-- A value whose names can be asked for is expanded to the value with theirs put in. -/
theorem expand_of_isAskable {value : Value} (askable : value.IsAskable) (env : Environment) :
    value.expand env = .ok (value.fill env) := by
  induction value using induction_on with
  | text t =>
    rw [expand, Placeholder.expand_of_isAskable (isAskable_text.1 askable)]
    rfl
  | list items ih =>
    have each : ∀ item ∈ items, item.expand env = .ok (item.fill env) := fun item mem =>
      ih item mem (isAskable_list.1 askable item mem)
    rw [expand, expandItems_eq, mapM_eq_map each, fill, fillItems_eq]
    rfl
  | map entries ih =>
    have each : ∀ entry ∈ entries,
        (entry.2.expand env).map (entry.1, ·) = .ok (entry.1, entry.2.fill env) := by
      intro entry mem
      rw [ih entry mem (isAskable_map.1 askable entry mem), map_ok]
    rw [expand, expandEntries_eq, mapM_eq_map each, fill, fillEntries_eq]
    rfl
  | inert value inert => rw [expand_of_isInert env inert, fill_of_isInert env inert]

/-- A value is not expanded because a text in it is not. -/
theorem exists_of_expand_eq_error {env : Environment} {value : Value} {fault : UnencodableName}
    (failed : value.expand env = .error fault) :
    ∃ t ∈ value.texts, Placeholder.expand env t = .error fault := by
  induction value using induction_on with
  | text t => exact ⟨t, List.mem_cons_self, map_eq_error.1 failed⟩
  | list items ih =>
    rw [expand, map_eq_error, expandItems_eq] at failed
    obtain ⟨item, mem, failed⟩ := exists_of_mapM_eq_error failed
    obtain ⟨t, mem', failed⟩ := ih item mem failed
    exact ⟨t, mem_texts_list.2 ⟨item, mem, mem'⟩, failed⟩
  | map entries ih =>
    rw [expand, map_eq_error, expandEntries_eq] at failed
    obtain ⟨entry, mem, failed⟩ := exists_of_mapM_eq_error failed
    obtain ⟨t, mem', failed⟩ := ih entry mem (map_eq_error.1 failed)
    exact ⟨t, mem_texts_map.2 ⟨entry, mem, mem'⟩, failed⟩
  | inert value inert =>
    rw [expand_of_isInert env inert] at failed
    cases failed

/-- A value that is expanded has names only that can be asked for. -/
theorem isAskable_of_expand_eq_ok {env : Environment} {value result : Value}
    (expanded : value.expand env = .ok result) : value.IsAskable := by
  induction value using induction_on generalizing result with
  | text t =>
    obtain ⟨t', expanded, -⟩ := map_eq_ok.1 expanded
    exact isAskable_text.2 (Placeholder.expand_eq_ok_iff.1 expanded).1
  | list items ih =>
    rw [expand, expandItems_eq] at expanded
    obtain ⟨results, expanded, -⟩ := map_eq_ok.1 expanded
    refine isAskable_list.2 fun item mem => ?_
    obtain ⟨result, expanded⟩ := exists_mapM_eq_ok_iff.1 ⟨results, expanded⟩ item mem
    exact ih item mem expanded
  | map entries ih =>
    rw [expand, expandEntries_eq] at expanded
    obtain ⟨results, expanded, -⟩ := map_eq_ok.1 expanded
    refine isAskable_map.2 fun entry mem => ?_
    obtain ⟨result, expanded⟩ := exists_mapM_eq_ok_iff.1 ⟨results, expanded⟩ entry mem
    obtain ⟨value, expanded, -⟩ := map_eq_ok.1 expanded
    exact ih entry mem expanded
  | inert value inert => exact isAskable_of_isInert inert

/-- A value is expanded exactly if all its names can be asked for, and then to the value with theirs
put in. -/
theorem expand_eq_ok_iff {env : Environment} {value result : Value} :
    value.expand env = .ok result ↔ value.IsAskable ∧ value.fill env = result := by
  constructor
  · intro expanded
    have askable := isAskable_of_expand_eq_ok expanded
    rw [expand_of_isAskable askable] at expanded
    exact ⟨askable, Except.ok.inj expanded⟩
  · rintro ⟨askable, rfl⟩
    exact expand_of_isAskable askable env

end Value

end Custody
