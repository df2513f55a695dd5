import Custody.Proofs.Text.Asking

/-!
# Placeholders that stand in a text

A placeholder stands in a text if its source is a stretch of the text (`Placeholder.StandsIn`), be
it that it was written there, or that it came about when other placeholders were expanded. One that
was written stays if the environment has no value for its name (`standsIn_fill`). What else can
come about depends on the values: a value may have a placeholder in it, or parts of one that the
text around it makes whole. Where no value is empty or has a dollar sign or an opening brace in it
(`Environment.IsPlain`), and every placeholder of a text has a value, none stands in the expansion
(`not_standsIn_fill`).

All this is said of `fill`, which is what expanding gives where it gives anything.
-/

namespace Custody

namespace Placeholder

/-! ## Placeholders that were written -/

/-- A placeholder of the name stands somewhere in a text. -/
def StandsIn (name : List CodePoint) (t : Text) : Prop :=
  name ≠ [] ∧ .char '\x7d' ∉ name ∧ (Piece.placeholder name).source <:+: t.points

/-- An environment has no value for a name. -/
def IsUnset (env : Environment) (name : List CodePoint) : Prop :=
  valueOf env name = none

instance (env : Environment) (name : List CodePoint) : Decidable (IsUnset env name) :=
  inferInstanceAs (Decidable (_ = _))

/-- Some placeholder stands in a text for which an environment has no value. -/
def LeftIn (env : Environment) (t : Text) : Prop :=
  ∃ name, StandsIn name t ∧ IsUnset env name

/-- A name that is read ends before the first closing brace. -/
theorem not_mem_of_untilBrace {text name after : List CodePoint}
    (read : untilBrace text = some (name, after)) : .char '\x7d' ∉ name := by
  induction text generalizing name with
  | nil => cases read
  | cons p rest ih =>
    rw [untilBrace] at read
    split at read
    case isTrue =>
      obtain rfl := (Prod.mk.inj (Option.some.inj read)).1
      exact List.not_mem_nil
    case isFalse other =>
      obtain ⟨⟨inner, _⟩, found, eq⟩ := Option.map_eq_some_iff.1 read
      obtain ⟨rfl, rfl⟩ := Prod.mk.inj eq
      exact List.not_mem_cons_of_ne_of_not_mem (Ne.symm other) (ih found)

/-- Where no name is read, there is no closing brace. -/
theorem not_mem_of_untilBrace_eq_none {text : List CodePoint} (none : untilBrace text = none) :
    .char '\x7d' ∉ text := by
  induction text with
  | nil => exact List.not_mem_nil
  | cons p rest ih =>
    rw [untilBrace] at none
    split at none
    case isTrue => cases none
    case isFalse other =>
      exact List.not_mem_cons_of_ne_of_not_mem (Ne.symm other) (ih (Option.map_eq_none_iff.1 none))

/-- The placeholders of a text have names, with no closing brace in them. -/
theorem name_of_mem_split {text name : List CodePoint} (mem : .placeholder name ∈ split text) :
    name ≠ [] ∧ .char '\x7d' ∉ name := by
  fun_induction split text with
  | case1 => exact absurd mem List.not_mem_nil
  | case2 inside first inner after read ih =>
    obtain eq | mem := List.mem_cons.1 mem
    · obtain rfl := Piece.placeholder.inj eq
      exact ⟨List.cons_ne_nil _ _, not_mem_of_untilBrace read⟩
    · exact ih mem
  | case3 inside _ ih => exact ih ((List.mem_cons.1 mem).resolve_left Piece.noConfusion)
  | case4 p rest _ ih => exact ih ((List.mem_cons.1 mem).resolve_left Piece.noConfusion)

/-- The source of a piece is a stretch of the text. -/
theorem source_infix_of_mem_split {piece : Piece} {text : List CodePoint}
    (mem : piece ∈ split text) : piece.source <:+: text := by
  rw [← source_split text, List.flatMap_def]
  exact List.infix_of_mem_flatten (List.mem_map_of_mem mem)

/-- A placeholder that is written in a text and has no value stays in it. -/
theorem standsIn_fill {env : Environment} {t : Text} {name : List CodePoint}
    (written : .placeholder name ∈ split t.points) (unset : IsUnset env name) :
    StandsIn name (fill env t) := by
  obtain ⟨nonempty, closed⟩ := name_of_mem_split written
  refine ⟨nonempty, closed, ?_⟩
  have stays : Piece.fill env (.placeholder name) = (Piece.placeholder name).source := by
    rw [Piece.fill, unset, Option.getD_none]
  rw [← stays, fill, List.flatMap_def]
  exact List.infix_of_mem_flatten (List.mem_map_of_mem written)

/-! ## Texts without placeholders -/

/-- A text that is all points is not changed by filling it in. -/
theorem fill_of_no_placeholder {text : List CodePoint}
    (points : ∀ name, .placeholder name ∉ split text) (env : Environment) :
    (split text).flatMap (Piece.fill env) = text := by
  have same : ∀ piece ∈ split text, piece.fill env = piece.source := by
    intro piece mem
    cases piece with
    | point p => rfl
    | placeholder name => exact absurd mem (points name)
  rw [List.flatMap_congr same, source_split]

/-- A text without one of the three signs of a placeholder has no placeholders. -/
theorem not_mem_split_of_not_mem {text : List CodePoint} (sign : CodePoint)
    (mark : sign ∈ ([.char '$', .char '\x7b', .char '\x7d'] : List CodePoint))
    (absent : sign ∉ text) (name : List CodePoint) : .placeholder name ∉ split text := by
  intro mem
  apply absent
  apply (source_infix_of_mem_split mem).subset
  simp only [Piece.source, List.mem_cons, List.mem_append, List.not_mem_nil] at mark ⊢
  tauto

/-- A text without a dollar sign is not changed by filling it in. -/
theorem fill_of_not_mem {t : Text} (no_dollar : .char '$' ∉ t.points)
    (env : Environment) : fill env t = t := by
  have none := not_mem_split_of_not_mem (.char '$') (by simp) no_dollar
  rw [fill, fill_of_no_placeholder none]

/-- A text without a dollar sign has no names that could not be asked for. -/
theorem isAskable_of_not_mem {t : Text} (no_dollar : .char '$' ∉ t.points) : IsAskable t :=
  fun name mem => absurd mem (not_mem_split_of_not_mem (.char '$') (by simp) no_dollar name)

/-- In a text without a dollar sign stands no placeholder. -/
theorem not_standsIn_of_not_mem {t : Text} (no_dollar : .char '$' ∉ t.points)
    (name : List CodePoint) : ¬ StandsIn name t := by
  rintro ⟨-, -, stands⟩
  exact no_dollar (stands.subset (by simp [Piece.source]))

end Placeholder

/-! ## Plain environments -/

/-- No value of an environment is empty, or has one of the two signs in it that a placeholder starts
with. -/
def Environment.IsPlain (env : Environment) : Prop :=
  ∀ name value, env.lookup name = .ok (some value) →
    value.points ≠ [] ∧ .char '$' ∉ value.points ∧ .char '\x7b' ∉ value.points

namespace Placeholder

variable {env : Environment}

/-- What is put in for a name with a plain value is not empty and has none of the two signs. -/
theorem fill_placeholder_of_isPlain (plain : env.IsPlain) {name : List CodePoint}
    (set : ¬ IsUnset env name) :
    let put := Piece.fill env (.placeholder name)
    put ≠ [] ∧ .char '$' ∉ put ∧ .char '\x7b' ∉ put := by
  obtain ⟨points, found⟩ := Option.ne_none_iff_exists'.1 set
  obtain ⟨value, asked, rfl⟩ := valueOf_eq_some_iff.1 found
  rw [Piece.fill, found, Option.getD_some]
  exact plain ⟨name⟩ value asked

/-- Where all placeholders have plain values, an expansion starts with an opening brace only if the
text does. -/
theorem head?_of_fill (plain : env.IsPlain) {text : List CodePoint}
    (set : ∀ name, .placeholder name ∈ split text → ¬ IsUnset env name)
    (head : ((split text).flatMap (Piece.fill env)).head? = some (.char '\x7b')) :
    text.head? = some (.char '\x7b') := by
  fun_induction split text with
  | case1 => cases head
  | case2 inside first name after read ih =>
    obtain ⟨nonempty, -, brace⟩ := fill_placeholder_of_isPlain plain (set _ List.mem_cons_self)
    rw [List.flatMap_cons, List.head?_append_of_ne_nil _ nonempty] at head
    exact absurd (List.mem_of_head? head) brace
  | case3 inside _ ih => exact absurd head (by simp [Piece.fill])
  | case4 p rest _ ih => simpa [Piece.fill] using head

/-- A stretch that starts with a character that is not in the first of two texts is a stretch of the
second. -/
theorem infix_of_infix_append {c : CodePoint} {stretch first second : List CodePoint}
    (absent : c ∉ first) (stands : c :: stretch <:+: first ++ second) :
    c :: stretch <:+: second := by
  induction first with
  | nil => exact stands
  | cons p first ih =>
    obtain ⟨other, absent⟩ := List.ne_and_not_mem_of_not_mem_cons absent
    obtain front | later := List.infix_cons_iff.1 stands
    · exact absurd (List.cons_prefix_cons.1 front).1 other
    · exact ih absent later

/-- A code point other than a dollar sign is a piece of its own. -/
theorem split_cons_of_ne {p : CodePoint} (other : p ≠ .char '$') (rest : List CodePoint) :
    split (p :: rest) = .point p :: split rest := by
  rw [split]
  simp [other]

/-- A point is put in for itself. -/
theorem flatMap_fill_point (p : CodePoint) (pieces : List Piece) :
    (.point p :: pieces).flatMap (Piece.fill env) = p :: pieces.flatMap (Piece.fill env) :=
  rfl

/-- Where no name with a closing brace behind it is read, none stands at the front of the expansion
either: there is no closing brace, or it comes first. -/
theorem not_prefix_of_unread {inside name : List CodePoint}
    (unread : ∀ first inner after, untilBrace inside ≠ some (first :: inner, after))
    (nonempty : name ≠ []) (closed : .char '\x7d' ∉ name) :
    ¬ name ++ [.char '\x7d'] <+: (split inside).flatMap (Piece.fill env) := by
  intro front
  cases read : untilBrace inside with
  | none =>
    have absent := not_mem_of_untilBrace_eq_none read
    have points := not_mem_split_of_not_mem (.char '\x7d') (by simp) absent
    rw [fill_of_no_placeholder points] at front
    exact absent (front.subset (by simp))
  | some found =>
    obtain ⟨inner, after⟩ := found
    cases inner with
    | cons first inner => exact unread first inner after read
    | nil =>
      obtain rfl : inside = .char '\x7d' :: after := eq_of_untilBrace read
      rw [split_cons_of_ne (by decide), flatMap_fill_point] at front
      cases name with
      | nil => exact nonempty rfl
      | cons p name =>
        obtain ⟨rfl, -⟩ := List.cons_prefix_cons.1 front
        exact closed List.mem_cons_self

/-- Where all placeholders have plain values, none stands in the expansion. -/
theorem not_standsIn_fill (plain : env.IsPlain) {t : Text}
    (set : ∀ name, .placeholder name ∈ split t.points → ¬ IsUnset env name)
    (name : List CodePoint) : ¬ StandsIn name (fill env t) := by
  rintro ⟨nonempty, closed, stands⟩
  obtain ⟨text⟩ := t
  simp only [fill] at set stands
  fun_induction split text with
  | case1 => cases List.infix_nil.1 stands
  | case2 inside first inner after read ih =>
    obtain ⟨-, dollar, -⟩ := fill_placeholder_of_isPlain plain (set _ List.mem_cons_self)
    rw [List.flatMap_cons] at stands
    exact ih (fun name mem => set name (List.mem_cons_of_mem _ mem))
      (infix_of_infix_append dollar stands)
  | case3 inside unread ih =>
    rw [flatMap_fill_point] at stands
    obtain front | later := List.infix_cons_iff.1 stands
    · rw [split_cons_of_ne (by decide), flatMap_fill_point] at front
      obtain ⟨-, front⟩ := List.cons_prefix_cons.1 front
      obtain ⟨-, front⟩ := List.cons_prefix_cons.1 front
      exact not_prefix_of_unread unread nonempty closed front
    · exact ih (fun name mem => set name (List.mem_cons_of_mem _ mem)) later
  | case4 p rest other ih =>
    have set' : ∀ name, .placeholder name ∈ split rest → ¬ IsUnset env name :=
      fun name mem => set name (List.mem_cons_of_mem _ mem)
    rw [flatMap_fill_point] at stands
    obtain front | later := List.infix_cons_iff.1 stands
    · -- An opening brace behind the dollar sign would have been written there.
      obtain ⟨rfl, tail, eq⟩ := List.cons_prefix_cons.1 front
      have head := head?_of_fill plain set' (by rw [← eq]; rfl)
      obtain ⟨inside, eq⟩ := List.head?_eq_some_iff.1 head
      exact other inside rfl eq
    · exact ih set' later

end Placeholder

end Custody
