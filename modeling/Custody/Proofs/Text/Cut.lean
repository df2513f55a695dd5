import Custody.Proofs.Text.Placeholder

/-!
# Texts cut at their placeholders

A text can be written as stretches of it with placeholders between them (`Placeholder.Cut`). Of the
ways to do so one is told by the text alone: each placeholder is the leftmost that starts at or
behind the end of the one before, and behind the last there is none (`Cut.IsLeftmost`). Every text
has such a cut, and no other (`Cut.existsUnique`).

Filling in a text is putting the values of the environment in the place of the placeholders of its
cut (`points_fill`), and a text can be expanded if the names of its cut can be asked for
(`isAskable_iff`). That cut is the one that the pieces of the text make up, which
`Placeholder.split` finds one by one (`Cut.ofText`).
-/

namespace Custody.Placeholder

/-- What can be the name of a placeholder: it is not empty and has no closing brace in it. -/
def IsName (name : List CodePoint) : Prop :=
  name ≠ [] ∧ .char '\x7d' ∉ name

/-- A placeholder starts in a text right behind the stretch that is given. -/
def StartsAfter (before text : List CodePoint) : Prop :=
  ∃ name after, IsName name ∧ text = before ++ ((Piece.placeholder name).source ++ after)

/-- A way to write a text: a stretch and a placeholder, as often as there are placeholders, and a
last stretch. -/
inductive Cut where
  | last (plain : List CodePoint)
  | next (plain name : List CodePoint) (rest : Cut)
deriving DecidableEq

namespace Cut

/-- The text that is so written. -/
def source : Cut → List CodePoint
  | last plain => plain
  | next plain name rest => plain ++ ((Piece.placeholder name).source ++ rest.source)

/-- The names of the placeholders. -/
def names : Cut → List (List CodePoint)
  | last _ => []
  | next _ name rest => name :: rest.names

/-- The text with the value of each placeholder's name in its place, if there is one. -/
def filled (env : Environment) : Cut → List CodePoint
  | last plain => plain
  | next plain name rest =>
    plain ++ ((valueOf env name).getD (Piece.placeholder name).source ++ rest.filled env)

/-- Each placeholder is the leftmost from the end of the one before on, and there are no more. -/
def IsLeftmost : Cut → Prop
  | last plain => ∀ before, ¬ StartsAfter before plain
  | next plain name rest =>
    IsName name ∧
      (∀ before, StartsAfter before (next plain name rest).source → plain.length ≤ before.length) ∧
      rest.IsLeftmost

/-- A cut with one more code point in front. -/
def push (p : CodePoint) : Cut → Cut
  | last plain => last (p :: plain)
  | next plain name rest => next (p :: plain) name rest

/-- The cut that pieces make up. -/
def ofPieces : List Piece → Cut
  | [] => last []
  | .point p :: rest => (ofPieces rest).push p
  | .placeholder name :: rest => next [] name (ofPieces rest)

/-- The cut of a text that its pieces make up. -/
def ofText (text : List CodePoint) : Cut :=
  ofPieces (split text)

end Cut

/-! ## Where placeholders start -/

/-- A name is read up to the first closing brace. -/
theorem untilBrace_append {name : List CodePoint} (closed : .char '\x7d' ∉ name)
    (after : List CodePoint) : untilBrace (name ++ .char '\x7d' :: after) = some (name, after) := by
  induction name with
  | nil => rfl
  | cons p name ih =>
    obtain ⟨other, closed⟩ := List.ne_and_not_mem_of_not_mem_cons closed
    rw [List.cons_append, untilBrace, if_neg (Ne.symm other), ih closed]
    rfl

/-- A placeholder at the front of a text is told by the text, and so is what follows it. -/
theorem placeholder_append_inj {name name' after after' : List CodePoint} (isName : IsName name)
    (isName' : IsName name') (same : (Piece.placeholder name).source ++ after =
      (Piece.placeholder name').source ++ after') : name = name' ∧ after = after' := by
  simp only [Piece.source, List.cons_append, List.append_assoc, List.nil_append, List.cons.injEq,
    true_and] at same
  have read := untilBrace_append isName.2 after
  rw [same, untilBrace_append isName'.2 after'] at read
  obtain ⟨rfl, rfl⟩ := Prod.mk.inj (Option.some.inj read)
  exact ⟨rfl, rfl⟩

/-- A placeholder that does not start at the front starts behind the first code point. -/
theorem StartsAfter.tail {before text : List CodePoint} {p : CodePoint}
    (starts : StartsAfter before (p :: text)) (front : ¬ StartsAfter [] (p :: text)) :
    ∃ before', before = p :: before' ∧ StartsAfter before' text := by
  cases before with
  | nil => exact absurd starts front
  | cons q before =>
    obtain ⟨name, after, isName, eq⟩ := starts
    rw [List.cons_append, List.cons.injEq] at eq
    obtain ⟨rfl, eq⟩ := eq
    exact ⟨before, rfl, name, after, isName, eq⟩

/-- At the front of a text a placeholder starts with a dollar sign, an opening brace, and a name
that is read behind it. -/
theorem exists_read_of_startsAfter {text : List CodePoint} (starts : StartsAfter [] text) :
    ∃ inside first name after, text = .char '$' :: .char '\x7b' :: inside ∧
      untilBrace inside = some (first :: name, after) := by
  obtain ⟨name, after, ⟨nonempty, closed⟩, rfl⟩ := starts
  obtain ⟨first, name, rfl⟩ := List.exists_cons_of_ne_nil nonempty
  refine ⟨first :: name ++ .char '\x7d' :: after, first, name, after, ?_,
    untilBrace_append closed _⟩
  simp [Piece.source]

/-! ## The leftmost cut -/

namespace Cut

/-- A code point in front of a cut is in front of its text. -/
theorem source_push (p : CodePoint) (c : Cut) : (c.push p).source = p :: c.source := by
  cases c with
  | last plain => rfl
  | next plain name rest => rfl

/-- A code point in front of a cut is in front of what is filled in. -/
theorem filled_push (env : Environment) (p : CodePoint) (c : Cut) :
    (c.push p).filled env = p :: c.filled env := by
  cases c with
  | last plain => rfl
  | next plain name rest => rfl

/-- A cut stays leftmost if no placeholder starts at the code point that is put in front. -/
theorem IsLeftmost.push {p : CodePoint} {c : Cut} (leftmost : c.IsLeftmost)
    (front : ¬ StartsAfter [] (p :: c.source)) : (c.push p).IsLeftmost := by
  cases c with
  | last plain =>
    intro before starts
    obtain ⟨before, rfl, later⟩ := starts.tail front
    exact leftmost before later
  | next plain name rest =>
    obtain ⟨isName, first, others⟩ := leftmost
    refine ⟨isName, fun before starts => ?_, others⟩
    obtain ⟨before, rfl, later⟩ := starts.tail front
    exact Nat.succ_le_succ (first before later)

/-- Pieces make up a cut of the text that they were cut from. -/
theorem source_ofPieces (pieces : List Piece) :
    (ofPieces pieces).source = pieces.flatMap Piece.source := by
  induction pieces with
  | nil => rfl
  | cons piece pieces ih =>
    rw [List.flatMap_cons, ← ih]
    cases piece with
    | point p => exact source_push p _
    | placeholder name => rfl

/-- Filling the cut that pieces make up is filling each piece. -/
theorem filled_ofPieces (env : Environment) (pieces : List Piece) :
    (ofPieces pieces).filled env = pieces.flatMap (Piece.fill env) := by
  induction pieces with
  | nil => rfl
  | cons piece pieces ih =>
    rw [List.flatMap_cons, ← ih]
    cases piece with
    | point p => exact filled_push env p _
    | placeholder name => rfl

/-- A code point in front of a cut is part of no name. -/
theorem names_push (p : CodePoint) (c : Cut) : (c.push p).names = c.names := by
  cases c with
  | last plain => rfl
  | next plain name rest => rfl

/-- The names of the cut that pieces make up are those of the placeholders among them. -/
theorem mem_names_ofPieces {name : List CodePoint} {pieces : List Piece} :
    name ∈ (ofPieces pieces).names ↔ .placeholder name ∈ pieces := by
  induction pieces with
  | nil => exact iff_of_false List.not_mem_nil List.not_mem_nil
  | cons piece pieces ih =>
    cases piece with
    | point p => simp [ofPieces, names_push, ih]
    | placeholder other => simp [ofPieces, names, ih]

/-- A text is written by its cut. -/
theorem source_ofText (text : List CodePoint) : (ofText text).source = text := by
  rw [ofText, source_ofPieces, source_split]

/-- The cut of a text is leftmost. -/
theorem isLeftmost_ofText (text : List CodePoint) : (ofText text).IsLeftmost := by
  unfold ofText
  have written (text) : (ofPieces (split text)).source = text := source_ofText text
  fun_induction split text with
  | case1 =>
    rintro before ⟨name, after, -, eq⟩
    simp [Piece.source] at eq
  | case2 inside first name after read ih =>
    have isName : IsName (first :: name) := ⟨List.cons_ne_nil _ _, not_mem_of_untilBrace read⟩
    exact ⟨isName, fun before _ => Nat.zero_le _, ih⟩
  | case3 inside unread ih =>
    -- A placeholder at the dollar sign would have a name that is read behind the brace.
    refine ih.push fun front => ?_
    rw [written] at front
    obtain ⟨_, first, name, after, eq, read⟩ := exists_read_of_startsAfter front
    obtain rfl : inside = _ := by simpa using eq
    exact unread first name after read
  | case4 p rest other ih =>
    -- Nothing else starts with a dollar sign and a brace.
    refine ih.push fun front => ?_
    rw [written] at front
    obtain ⟨inside, _, _, _, eq, -⟩ := exists_read_of_startsAfter front
    obtain ⟨rfl, rfl⟩ := List.cons.inj eq
    exact other inside rfl rfl

/-- The placeholder of a cut starts behind the stretch before it. -/
theorem startsAfter_next {plain name : List CodePoint} {rest : Cut} (isName : IsName name) :
    StartsAfter plain (next plain name rest).source :=
  ⟨name, rest.source, isName, rfl⟩

/-- A text has one leftmost cut at most. -/
theorem IsLeftmost.unique {c c' : Cut} (leftmost : c.IsLeftmost) (leftmost' : c'.IsLeftmost)
    (same : c.source = c'.source) : c = c' := by
  induction c generalizing c' with
  | last plain =>
    cases c' with
    | last plain' => exact congrArg last same
    | next plain' name' rest' =>
      have starts : StartsAfter plain' (next plain' name' rest').source :=
        startsAfter_next leftmost'.1
      rw [← same] at starts
      exact absurd starts (leftmost plain')
  | next plain name rest ih =>
    cases c' with
    | last plain' =>
      have starts : StartsAfter plain (next plain name rest).source :=
        startsAfter_next leftmost.1
      rw [same] at starts
      exact absurd starts (leftmost' plain)
    | next plain' name' rest' =>
      obtain ⟨isName, first, others⟩ := leftmost
      obtain ⟨isName', first', others'⟩ := leftmost'
      -- Neither of the first placeholders starts further left than the other.
      have le : plain.length ≤ plain'.length := first plain' (same ▸ startsAfter_next isName')
      have ge : plain'.length ≤ plain.length := first' plain (same ▸ startsAfter_next isName)
      obtain ⟨rfl, behind⟩ := List.append_inj same (Nat.le_antisymm le ge)
      obtain ⟨rfl, after⟩ := placeholder_append_inj isName isName' behind
      rw [ih others others' after]

/-- A leftmost cut of a text is the cut that its pieces make up. -/
theorem eq_ofText {text : List CodePoint} {c : Cut} (written : c.source = text)
    (leftmost : c.IsLeftmost) : c = ofText text :=
  leftmost.unique (isLeftmost_ofText text) (written.trans (source_ofText text).symm)

/-- A text has one leftmost cut. -/
theorem existsUnique (text : List CodePoint) : ∃! c : Cut, c.source = text ∧ c.IsLeftmost := by
  refine ⟨ofText text, ⟨source_ofText text, isLeftmost_ofText text⟩, ?_⟩
  rintro c ⟨written, leftmost⟩
  exact eq_ofText written leftmost

/-- Empty braces are plain, and a name may have the start of a placeholder in it. -/
example : ofText (Text.ofString "$\x7b\x7d$\x7ba$\x7bb\x7d").points =
    next (Text.ofString "$\x7b\x7d").points (Text.ofString "a$\x7bb").points (last []) := by
  decide +kernel

end Cut

/-- A text is filled in as its leftmost cut is. -/
theorem points_fill (env : Environment) {t : Text} {c : Cut} (written : c.source = t.points)
    (leftmost : c.IsLeftmost) : (fill env t).points = c.filled env := by
  rw [Cut.eq_ofText written leftmost, Cut.ofText, Cut.filled_ofPieces]
  rfl

/-- A text can be expanded if the names of its leftmost cut can be asked for. -/
theorem isAskable_iff {t : Text} {c : Cut} (written : c.source = t.points)
    (leftmost : c.IsLeftmost) : IsAskable t ↔ ∀ name ∈ c.names, IsEncodable name := by
  simp only [Cut.eq_ofText written leftmost, Cut.ofText, Cut.mem_names_ofPieces]
  rfl

end Custody.Placeholder
