import Custody.Proofs.Text.Cut

/-!
# What expanding does

Expanding a value substitutes in each text that stands as a value in it, at any depth, and does
nothing else. `Value.Expands` says so without the function: a text becomes its leftmost cut with the
values filled in, a list or a mapping has as many items or entries as before, each expanded, with
the keys of the mapping as they were, and everything else is the same. Every value becomes one
other so, namely what filling it in gives (`Value.expands_iff`).

That is what comes out wherever something does. But a name that has a surrogate in it which no byte
becomes cannot be asked for, and the placeholder does not stay then: nothing comes out
(`Value.expand_unencodable`). `Value.expand_substitutes_iff` says that this is so exactly for the
values that ask for such a name, and that what an environment has for the names that a value asks
for is all that matters.
-/

namespace Custody

/-- What a function makes of the elements of a list, told element by element. -/
theorem map_eq_iff_zip {α β : Type} {f : α → β} {as : List α} {bs : List β} :
    as.map f = bs ↔ as.length = bs.length ∧ ∀ pair ∈ as.zip bs, f pair.1 = pair.2 := by
  rw [← List.forall₂_eq_eq_eq, List.forall₂_map_left_iff, List.forall₂_iff_zip, Prod.forall]

/-! ## Texts -/

namespace Placeholder

/-- Environments that have the same for the name of a piece expand it alike. -/
theorem Piece.expand_congr {env env' : Environment} {piece : Piece}
    (agree : ∀ name, piece = .placeholder name → valueOf env name = valueOf env' name) :
    piece.expand env = piece.expand env' := by
  cases piece with
  | point p => rfl
  | placeholder name =>
    by_cases encodable : IsEncodable name
    · rw [expand_placeholder_of_isEncodable encodable, expand_placeholder_of_isEncodable encodable,
        fill, fill, agree name rfl]
    · rw [expand_placeholder_of_not_isEncodable encodable,
        expand_placeholder_of_not_isEncodable encodable]

/-- Environments that have the same for the names of a text expand it alike. -/
theorem expand_congr {env env' : Environment} {t : Text}
    (agree : ∀ name, .placeholder name ∈ split t.points → valueOf env name = valueOf env' name) :
    expand env t = expand env' t := by
  have each : ∀ piece ∈ split t.points, piece.expand env = piece.expand env' := by
    intro piece mem
    refine Piece.expand_congr fun name eq => ?_
    exact agree name (eq ▸ mem)
  rw [expand, expand, Outcome.mapM_congr each]

/-- Where an environment has nothing for the names of a text, nothing is filled in. -/
theorem fill_of_unset {env : Environment} {t : Text}
    (unset : ∀ name, .placeholder name ∈ split t.points → valueOf env name = none) :
    fill env t = t := by
  have stays : ∀ piece ∈ split t.points, piece.fill env = piece.source := by
    intro piece mem
    cases piece with
    | point p => rfl
    | placeholder name => rw [Piece.fill, unset name mem, Option.getD_none]
  rw [fill, List.flatMap_congr stays, source_split]

end Placeholder

/-! ## Values -/

namespace Value

open Outcome Placeholder

/-- A value becomes another in an environment. -/
inductive Expands (env : Environment) : Value → Value → Prop
  /-- A text becomes its leftmost cut with the values filled in. -/
  | text {t t' : Text} {c : Cut} : c.source = t.points → c.IsLeftmost →
      t'.points = c.filled env → Expands env (text t) (text t')
  /-- The items of a list become others, one by one. -/
  | list {items items' : List Value} : items.length = items'.length →
      (∀ pair ∈ items.zip items', Expands env pair.1 pair.2) →
      Expands env (list items) (list items')
  /-- The entries of a mapping keep their keys, and their values become others, one by one. -/
  | map {entries entries' : List (Value × Value)} : entries.length = entries'.length →
      (∀ pair ∈ entries.zip entries', pair.1.1 = pair.2.1) →
      (∀ pair ∈ entries.zip entries', Expands env pair.1.2 pair.2.2) →
      Expands env (map entries) (map entries')
  /-- Everything else stays. -/
  | inert {value : Value} : value.IsInert → Expands env value value

/-- A value asks for a name: it is that of a placeholder of the leftmost cut of a text in it. -/
def Asks (value : Value) (name : List CodePoint) : Prop :=
  ∃ t ∈ value.texts, ∃ c : Cut, c.source = t.points ∧ c.IsLeftmost ∧ name ∈ c.names

/-- A text becomes what filling it in gives. -/
theorem expands_text_iff {env : Environment} {t : Text} {result : Value} :
    Expands env (text t) result ↔ (text t).fill env = result := by
  rw [fill]
  constructor
  · intro expands
    cases expands with
    | @text _ t' c written leftmost filled =>
      have points := (points_fill env written leftmost).trans filled.symm
      exact congrArg _ (congrArg Text.mk points)
    | inert inert => exact inert.elim
  · rintro rfl
    have written := Cut.source_ofText t.points
    have leftmost := Cut.isLeftmost_ofText t.points
    exact .text written leftmost (points_fill env written leftmost)

/-- A value becomes what filling it in gives, and nothing else. -/
theorem expands_iff {env : Environment} {value result : Value} :
    Expands env value result ↔ value.fill env = result := by
  induction value using induction_on generalizing result with
  | text t => exact expands_text_iff
  | inert value inert =>
    rw [fill_of_isInert env inert]
    constructor
    · intro expands
      cases expands with
      | inert _ => rfl
      | _ => exact inert.elim
    · rintro rfl
      exact .inert inert
  | list items ih =>
    rw [fill, fillItems_eq]
    constructor
    · intro expands
      cases expands with
      | inert inert => exact inert.elim
      | list length each =>
        refine congrArg _ (map_eq_iff_zip.2 ⟨length, fun pair mem => ?_⟩)
        exact (ih pair.1 (List.of_mem_zip mem).1).1 (each pair mem)
    · rintro rfl
      obtain ⟨length, each⟩ := map_eq_iff_zip.1 (rfl : items.map (fill env) = _)
      refine .list length fun pair mem => ?_
      exact (ih pair.1 (List.of_mem_zip mem).1).2 (each pair mem)
  | map entries ih =>
    rw [fill, fillEntries_eq]
    constructor
    · intro expands
      cases expands with
      | inert inert => exact inert.elim
      | map length keys each =>
        refine congrArg _ (map_eq_iff_zip.2 ⟨length, fun pair mem => ?_⟩)
        have value := (ih pair.1 (List.of_mem_zip mem).1).1 (each pair mem)
        exact Prod.ext (keys pair mem) value
    · rintro rfl
      obtain ⟨length, each⟩ := map_eq_iff_zip.1
        (rfl : entries.map (fun entry => (entry.1, entry.2.fill env)) = _)
      refine .map length (fun pair mem => (Prod.ext_iff.1 (each pair mem)).1) fun pair mem => ?_
      exact (ih pair.1 (List.of_mem_zip mem).1).2 (Prod.ext_iff.1 (each pair mem)).2

/-- A value asks for the names of the placeholders among the pieces of its texts. -/
theorem asks_iff {value : Value} {name : List CodePoint} :
    value.Asks name ↔ ∃ t ∈ value.texts, .placeholder name ∈ split t.points := by
  constructor
  · rintro ⟨t, mem, c, written, leftmost, named⟩
    rw [Cut.eq_ofText written leftmost] at named
    exact ⟨t, mem, Cut.mem_names_ofPieces.1 named⟩
  · rintro ⟨t, mem, piece⟩
    exact ⟨t, mem, _, Cut.source_ofText _, Cut.isLeftmost_ofText _, Cut.mem_names_ofPieces.2 piece⟩

/-- All names of a value can be asked for if those can be that it asks for. -/
theorem isAskable_iff_asks {value : Value} :
    value.IsAskable ↔ ∀ name, value.Asks name → IsEncodable name := by
  simp only [IsAskable, Placeholder.IsAskable, asks_iff]
  constructor
  · rintro askable name ⟨t, mem, piece⟩
    exact askable t mem name piece
  · intro encodable t mem name piece
    exact encodable name ⟨t, mem, piece⟩

/-- A value that is not expanded asks for a name that cannot be asked for. -/
theorem asks_of_expand_eq_error {env : Environment} {value : Value} {fault : UnencodableName}
    (failed : value.expand env = .error fault) :
    value.Asks fault.name.points ∧ ¬ IsEncodable fault.name.points := by
  obtain ⟨t, mem, failed⟩ := exists_of_expand_eq_error failed
  obtain ⟨name, piece, unencodable, rfl⟩ := Placeholder.exists_of_expand_eq_error failed
  exact ⟨asks_iff.2 ⟨t, mem, piece⟩, unencodable⟩

/-- Environments that expand the texts in a value alike expand the value alike. -/
theorem expand_congr_texts {env env' : Environment} {value : Value}
    (alike : ∀ t ∈ value.texts, Placeholder.expand env t = Placeholder.expand env' t) :
    value.expand env = value.expand env' := by
  induction value using induction_on with
  | text t => rw [expand, expand, alike t List.mem_cons_self]
  | list items ih =>
    have each : ∀ item ∈ items, item.expand env = item.expand env' := fun item mem =>
      ih item mem fun t mem' => alike t (mem_texts_list.2 ⟨item, mem, mem'⟩)
    rw [expand, expand, expandItems_eq, expandItems_eq, mapM_congr each]
  | map entries ih =>
    rw [expand, expand, expandEntries_eq, expandEntries_eq]
    refine congrArg _ (mapM_congr fun entry mem => congrArg _ ?_)
    exact ih entry mem fun t mem' => alike t (mem_texts_map.2 ⟨entry, mem, mem'⟩)
  | inert value inert => rw [expand_of_isInert env inert, expand_of_isInert env' inert]

/-- Environments that have the same for the names that a value asks for expand it alike. -/
theorem expand_congr {env env' : Environment} {value : Value}
    (agree : ∀ name, value.Asks name → valueOf env name = valueOf env' name) :
    value.expand env = value.expand env' := by
  refine expand_congr_texts fun t mem => Placeholder.expand_congr fun name piece => ?_
  exact agree name (asks_iff.2 ⟨t, mem, piece⟩)

/-- A value of whose texts none is changed is not changed. -/
theorem fill_of_texts {env : Environment} {value : Value}
    (kept : ∀ t ∈ value.texts, Placeholder.fill env t = t) : value.fill env = value := by
  induction value using induction_on with
  | text t => rw [fill, kept t List.mem_cons_self]
  | list items ih =>
    have each : ∀ item ∈ items, item.fill env = item := fun item mem =>
      ih item mem fun t mem' => kept t (mem_texts_list.2 ⟨item, mem, mem'⟩)
    rw [fill, fillItems_eq, List.map_congr_left each, List.map_id']
  | map entries ih =>
    have each : ∀ entry ∈ entries, (entry.1, entry.2.fill env) = entry := by
      intro entry mem
      refine Prod.ext rfl (ih entry mem fun t mem' => ?_)
      exact kept t (mem_texts_map.2 ⟨entry, mem, mem'⟩)
    rw [fill, fillEntries_eq, List.map_congr_left each, List.map_id']
  | inert value inert => exact fill_of_isInert env inert

/-- Where an environment has nothing for the names that a value asks for, the value stays. -/
theorem fill_of_unset {env : Environment} {value : Value}
    (unset : ∀ name, value.Asks name → valueOf env name = none) : value.fill env = value := by
  refine fill_of_texts fun t mem => Placeholder.fill_of_unset fun name piece => ?_
  exact unset name (asks_iff.2 ⟨t, mem, piece⟩)

/-- Expanding substitutes once, from left to right, exactly where all names can be asked for. Every
text has one leftmost cut, and what the text is expanded to, if its names can be asked for, is that
cut with the values filled in: what is filled in is not looked at again. Every value becomes one
other if this is done to each text that stands as a value in it and nothing to the rest, and that is
what the value is expanded to, if the names that it asks for can be asked for. Otherwise the fault
is about one of them that cannot be. Environments that have the same for the names that a value asks
for expand it alike, and one that has nothing for them leaves it as it is, again exactly if they can
be asked for. -/
theorem expand_substitutes_iff (env : Environment) :
    (∀ text, ∃! c : Cut, c.source = text ∧ c.IsLeftmost) ∧
    (∀ (t t' : Text) (c : Cut), c.source = t.points → c.IsLeftmost →
      (Placeholder.expand env t = .ok t' ↔
        (∀ name ∈ c.names, IsEncodable name) ∧ t'.points = c.filled env)) ∧
    (∀ value, ∃! result, Expands env value result) ∧
    (∀ value result : Value, value.expand env = .ok result ↔
      (∀ name, value.Asks name → IsEncodable name) ∧ Expands env value result) ∧
    (∀ (value : Value) (fault : UnencodableName), value.expand env = .error fault →
      value.Asks fault.name.points ∧ ¬ IsEncodable fault.name.points) ∧
    (∀ (env' : Environment) (value : Value),
      (∀ name, value.Asks name → valueOf env name = valueOf env' name) →
        value.expand env = value.expand env') ∧
    ∀ value : Value, (∀ name, value.Asks name → valueOf env name = none) →
      (value.expand env = .ok value ↔ ∀ name, value.Asks name → IsEncodable name) := by
  refine ⟨Cut.existsUnique, ?_, ?_, ?_, ?_, ?_, ?_⟩
  · intro t t' c written leftmost
    rw [Placeholder.expand_eq_ok_iff, isAskable_iff written leftmost,
      ← points_fill env written leftmost]
    refine and_congr_right fun _ => ⟨?_, fun points => congrArg Text.mk points.symm⟩
    rintro rfl
    rfl
  · intro value
    refine ⟨value.fill env, expands_iff.2 rfl, fun result expands => ?_⟩
    exact (expands_iff.1 expands).symm
  · intro value result
    rw [expand_eq_ok_iff, isAskable_iff_asks, expands_iff]
  · intro value fault failed
    exact asks_of_expand_eq_error failed
  · intro env' value agree
    exact expand_congr agree
  · intro value unset
    rw [expand_eq_ok_iff, isAskable_iff_asks]
    exact and_iff_left (fill_of_unset unset)

/-- A mapping whose one key looks like a placeholder. Of its value, the rest becomes the placeholder
that was there once that has become a dollar sign. -/
def selfQuoting : Value :=
  map [(text "$\x7bB\x7d", text "$\x7bA\x7d\x7bA\x7d")]

/-- The one name that it asks for is that of the placeholder. -/
theorem asks_selfQuoting {name : List CodePoint} (asks : selfQuoting.Asks name) :
    name = (Text.ofString "A").points := by
  obtain ⟨t, mem, piece⟩ := asks_iff.1 asks
  obtain rfl := List.mem_singleton.1 mem
  have pieces : split (Text.ofString "$\x7bA\x7d\x7bA\x7d").points =
      .placeholder (Text.ofString "A").points ::
        (Text.ofString "\x7bA\x7d").points.map .point := by decide +kernel
  rw [pieces] at piece
  simpa using piece

/-- What comes about by expanding it is not expanded, the key makes no difference, and without a
value for its name it stays. -/
theorem expand_substitutes_selfQuoting :
    let dollar := Environment.ofStrings [("A", "$")]
    let both := Environment.ofStrings [("A", "$"), ("B", "x")]
    let other := Environment.ofStrings [("B", "x")]
    Placeholder.expand dollar "$\x7bA\x7d\x7bA\x7d" = .ok "$\x7bA\x7d" ∧
    selfQuoting.expand dollar = selfQuoting.expand both ∧
    selfQuoting.expand other = .ok selfQuoting := by
  intro dollar both other
  obtain ⟨-, texts, -, -, -, alike, -⟩ := expand_substitutes_iff dollar
  obtain ⟨-, -, -, -, -, -, stays⟩ := expand_substitutes_iff other
  refine ⟨?_, ?_, ?_⟩
  · refine (texts _ _ _ (Cut.source_ofText _) (Cut.isLeftmost_ofText _)).2 ?_
    decide +kernel
  · refine alike both selfQuoting fun name asks => ?_
    obtain rfl := asks_selfQuoting asks
    rw [valueOf_ofStrings, valueOf_ofStrings]
    rfl
  · have encodable : ∀ name, selfQuoting.Asks name → IsEncodable name := by
      intro name asks
      obtain rfl := asks_selfQuoting asks
      decide
    refine (stays selfQuoting fun name asks => ?_).2 encodable
    obtain rfl := asks_selfQuoting asks
    rw [valueOf_ofStrings]
    rfl

/-- A placeholder whose name is a surrogate that no byte becomes. -/
def unencodable : Text :=
  ⟨[.char '$', .char '\x7b', .surrogate 0, .char '\x7d']⟩

/-- No environment has anything for that name, so that the placeholder would stay by its cut; but it
is not expanded. -/
theorem expand_unencodable :
    let nothing : Environment := fun _ => none
    (∃ c : Cut, c.source = unencodable.points ∧ c.IsLeftmost ∧
      c.filled nothing = unencodable.points) ∧
    Placeholder.expand nothing unencodable = .error ⟨⟨[.surrogate 0]⟩⟩ ∧
    (text unencodable).expand nothing = .error ⟨⟨[.surrogate 0]⟩⟩ := by
  intro nothing
  have refused : Placeholder.expand nothing unencodable = .error ⟨⟨[.surrogate 0]⟩⟩ := by
    decide +kernel
  refine ⟨⟨_, Cut.source_ofText _, Cut.isLeftmost_ofText _, by decide +kernel⟩, refused, ?_⟩
  rw [expand, refused, map_error]

end Value

end Custody
