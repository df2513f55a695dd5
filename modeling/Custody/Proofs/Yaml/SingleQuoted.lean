import Custody.Proofs.Yaml.Characters

/-!
# Texts in single quotes

What is written in single quotes is read as itself (`readSingleQuoted_writeSingleQuoted`), wherever
its lines are broken: a line is broken at a single space only, which the line end then counts as,
and a line end of the text is written with a further one, as one alone would count as a space.
-/

namespace Custody.Yaml

/-! ## Reading, character by character -/

variable {gap : Gap} {rest : List Char}

/-- A quote is written as two. -/
theorem readSingleQuoted_quote (gap : Gap) (rest : List Char) :
    readSingleQuoted gap ('\'' :: '\'' :: rest) =
      before (gap.text ++ ['\'']) (readSingleQuoted (.blanks []) rest) := by
  rw [readSingleQuoted]

/-- One quote ends the text. -/
theorem readSingleQuoted_end (gap : Gap) (single : rest.head? ≠ some '\'') :
    readSingleQuoted gap ('\'' :: rest) = .ok (gap.text, rest) := by
  rw [readSingleQuoted]
  rintro more rfl
  exact single rfl

/-- A space is a blank more. -/
theorem readSingleQuoted_space (gap : Gap) (rest : List Char) :
    readSingleQuoted gap (' ' :: rest) = readSingleQuoted (gap.addBlank ' ') rest := by
  rw [readSingleQuoted]
  · rfl
  · rintro _ ⟨⟩
  · rintro ⟨⟩

/-- A line feed is a line end more. -/
theorem readSingleQuoted_newline (gap : Gap) (inside : atSeparator rest = false) :
    readSingleQuoted gap ('\n' :: rest) = readSingleQuoted (gap.addBreak '\n') rest := by
  rw [readSingleQuoted]
  · simp [isBreak, inside]
  · rintro _ ⟨⟩
  · rintro ⟨⟩

/-- Every other character stands for itself, after the gap before it. -/
theorem readSingleQuoted_char {c : Char} (gap : Gap) (rest : List Char) (shown : IsShown c)
    (quote : c ≠ '\'') (space : c ≠ ' ') :
    readSingleQuoted gap (c :: rest) =
      before (gap.text ++ [c]) (readSingleQuoted (.blanks []) rest) := by
  rw [readSingleQuoted]
  · simp [shown, space]
  · intro _ eq
    exact absurd eq quote
  · exact quote

/-- The spaces at the start of a line do not count. -/
theorem readSingleQuoted_indented (indent : Nat) (further rest : List Char) :
    readSingleQuoted (.folded '\n' further) (List.replicate indent ' ' ++ rest) =
      readSingleQuoted (.folded '\n' further) rest := by
  induction indent with
  | zero => rfl
  | succ n ih =>
    rw [List.replicate_succ, List.cons_append, readSingleQuoted_space, Gap.addBlank_folded, ih]

/-! ## Reading what was written -/

/-- The gaps that there can be where a text is still to be written, after a character. -/
inductive Follows : (previous : Option Char) → (text : List Char) → Gap → Prop
  /-- After a character that is neither a space nor a line feed there is none. -/
  | char {previous : Option Char} {text : List Char} (space : previous ≠ some ' ')
      (newline : previous ≠ some '\n') : Follows previous text (.blanks [])
  /-- The spaces so far. -/
  | spaces {text : List Char} (blanks : List Char) : Follows (some ' ') text (.blanks blanks)
  /-- A line end in the place of a single space. -/
  | turned {text : List Char} (single : text.head? ≠ some ' ') :
      Follows (some ' ') text (.folded '\n' [])
  /-- The line ends so far, which are one more than those of the text. -/
  | broken {text further : List Char} (some_further : further ≠ []) :
      Follows (some '\n') text (.folded '\n' further)

/-- Whether spaces and line feeds touch, character by character. -/
theorem spaceTouchesBreak_cons {a b : Char} {text : List Char} :
    spaceTouchesBreak (a :: b :: text) = false ↔
      ¬(a = ' ' ∧ b = '\n') ∧ ¬(a = '\n' ∧ b = ' ') ∧ spaceTouchesBreak (b :: text) = false := by
  simp [spaceTouchesBreak, and_assoc]

/-- What is written after a line feed: the next one, or an indented line. -/
def afterNewline (indent : Nat) (text : List Char) : List Char :=
  if text.head? == some '\n' then writeSingleQuoted indent 0 (some '\n') text
  else List.replicate indent ' ' ++ writeSingleQuoted indent indent (some '\n') text

/-- The line feed that is a text's first character, or comes after another character, is written
as two. -/
theorem writeSingleQuoted_first_newline (indent column : Nat) {previous : Option Char}
    (first : previous ≠ some '\n') (text : List Char) :
    writeSingleQuoted indent column previous ('\n' :: text) =
      '\n' :: '\n' :: afterNewline indent text := by
  simp [writeSingleQuoted, first, afterNewline]

/-- A further line feed is written as itself. -/
theorem writeSingleQuoted_further_newline (indent column : Nat) (text : List Char) :
    writeSingleQuoted indent column (some '\n') ('\n' :: text) =
      '\n' :: afterNewline indent text := by
  simp [writeSingleQuoted, afterNewline]

/-- A quote is written as two. -/
theorem writeSingleQuoted_quote (indent column : Nat) (previous : Option Char)
    (text : List Char) :
    writeSingleQuoted indent column previous ('\'' :: text) =
      '\'' :: '\'' :: writeSingleQuoted indent (column + 2) (some '\'') text := by
  simp [writeSingleQuoted]

/-- A space is written as itself, or, where it stands alone, as a line end. -/
theorem writeSingleQuoted_space (indent column : Nat) (previous : Option Char)
    (text : List Char) :
    writeSingleQuoted indent column previous (' ' :: text) =
        ' ' :: writeSingleQuoted indent (column + 1) (some ' ') text ∨
      previous ≠ some ' ' ∧ text.head? ≠ some ' ' ∧
        writeSingleQuoted indent column previous (' ' :: text) =
          '\n' ::
            (List.replicate indent ' ' ++ writeSingleQuoted indent indent (some ' ') text) := by
  rw [writeSingleQuoted, if_neg (by decide), if_neg (by decide)]
  split
  · next turns =>
    simp only [Bool.and_eq_true, bne_iff_ne] at turns
    exact .inr ⟨turns.1.1.1.2, turns.1.2, rfl⟩
  · exact .inl rfl

/-- Every other printable character is written as itself. -/
theorem writeSingleQuoted_char {c : Char} (indent column : Nat) (previous : Option Char)
    (text : List Char) (quote : c ≠ '\'') (newline : c ≠ '\n') (space : c ≠ ' ') :
    writeSingleQuoted indent column previous (c :: text) =
      c :: writeSingleQuoted indent (column + 1) (some c) text := by
  simp [writeSingleQuoted, quote, newline, space]

/-- No mark of a document stands after a line feed. -/
theorem atSeparator_afterNewline {indent : Nat} (positive : 0 < indent) (text rest : List Char) :
    atSeparator (afterNewline indent text ++ rest) = false := by
  rw [afterNewline]
  split
  · next newline =>
    cases text with
    | nil => simp at newline
    | cons c text =>
      obtain rfl : c = '\n' := by simpa using newline
      rw [writeSingleQuoted_further_newline]
      exact atSeparator_newline _
  · rw [List.append_assoc]
    exact atSeparator_indented positive _

/-- A text that can stand in single quotes is read as it was written. -/
theorem readSingleQuoted_writeSingleQuoted {indent : Nat} (positive : 0 < indent)
    {rest : List Char} (ended : rest.head? ≠ some '\'') {text : List Char}
    (simple : isSimple text = true) :
    ∀ {column : Nat} {previous : Option Char} {gap : Gap}, Follows previous text gap →
      spaceTouchesBreak (previous.toList ++ text) = false →
      readSingleQuoted gap (writeSingleQuoted indent column previous text ++ rest) =
        .ok (gap.text ++ text, rest) := by
  induction text with
  | nil =>
    intro column previous gap _ _
    simp [writeSingleQuoted, readSingleQuoted_end _ ended]
  | cons c text ih =>
    intro column previous gap follows apart
    obtain ⟨kind, simple⟩ := isSimple_cons.1 simple
    have apart' : spaceTouchesBreak (c :: text) = false := by
      cases previous with
      | none => exact apart
      | some p => exact (spaceTouchesBreak_cons.1 apart).2.2
    replace ih {column : Nat} {gap : Gap} (follows : Follows (some c) text gap) :
        readSingleQuoted gap (writeSingleQuoted indent column (some c) text ++ rest) =
          .ok (gap.text ++ text, rest) := ih simple follows apart'
    by_cases newline : c = '\n'
    · subst newline
      -- What comes after the line feed is read alike with every number of line ends before it.
      have next (further : List Char) (ne : further ≠ []) :
          readSingleQuoted (.folded '\n' further) (afterNewline indent text ++ rest) =
            .ok (further ++ text, rest) := by
        rw [afterNewline]
        split
        · rw [ih (.broken ne), Gap.text_folded ne]
        · rw [List.append_assoc, readSingleQuoted_indented, ih (.broken ne), Gap.text_folded ne]
      have inside := atSeparator_afterNewline positive text rest
      cases follows with
      | char _ first =>
        rw [writeSingleQuoted_first_newline _ _ first, List.cons_append, List.cons_append,
          readSingleQuoted_newline _ (atSeparator_newline _), Gap.addBreak_blanks,
          readSingleQuoted_newline _ inside, Gap.addBreak_folded, next _ (by simp)]
        rfl
      | spaces => exact absurd ⟨rfl, rfl⟩ (spaceTouchesBreak_cons.1 apart).1
      | turned => exact absurd ⟨rfl, rfl⟩ (spaceTouchesBreak_cons.1 apart).1
      | broken ne =>
        rw [writeSingleQuoted_further_newline, List.cons_append,
          readSingleQuoted_newline _ inside, Gap.addBreak_folded, next _ (by simp),
          Gap.text_folded ne]
        simp
    · have shown : IsShown c := kind.resolve_left newline
      by_cases quote : c = '\''
      · subst quote
        rw [writeSingleQuoted_quote, List.cons_append, List.cons_append, readSingleQuoted_quote,
          ih (.char (by decide) (by decide)), before_ok]
        simp [Gap.text]
      by_cases space : c = ' '
      · subst space
        obtain stays | ⟨alone, single, turns⟩ :=
          writeSingleQuoted_space indent column previous text
        · rw [stays, List.cons_append, readSingleQuoted_space]
          cases follows with
          | char =>
            rw [Gap.addBlank_blanks, ih (.spaces _)]
            rfl
          | spaces =>
            rw [Gap.addBlank_blanks, ih (.spaces _)]
            simp [Gap.text]
          | turned single => exact absurd rfl single
          | broken => exact absurd ⟨rfl, rfl⟩ (spaceTouchesBreak_cons.1 apart).2.1
        · rw [turns, List.cons_append, List.append_assoc,
            readSingleQuoted_newline _ (atSeparator_indented positive _)]
          cases follows with
          | char =>
            rw [Gap.addBreak_blanks, readSingleQuoted_indented, ih (.turned single)]
            rfl
          | spaces => exact absurd rfl alone
          | turned => exact absurd rfl alone
          | broken => exact absurd ⟨rfl, rfl⟩ (spaceTouchesBreak_cons.1 apart).2.1
      · rw [writeSingleQuoted_char _ _ _ _ quote newline space, List.cons_append,
          readSingleQuoted_char _ _ shown quote space,
          ih (.char (by simpa using space) (by simpa using newline)), before_ok]
        simp [Gap.text]

end Custody.Yaml
