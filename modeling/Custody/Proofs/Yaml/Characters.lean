import Custody.Proofs.Outcome
import Custody.Yaml.Scalar
import Custody.Yaml.Written

/-!
# The characters of written texts

Documents are written in printable ASCII and line feeds, whatever their texts: other characters are
escaped. Of these characters the line feed alone ends a line, and the space alone is a blank. Here
are the facts about them, and about the gaps that they make within a scalar, on which reading what
was written rests.
-/

namespace Custody.Yaml

/-- A character of printable ASCII. -/
def IsShown (c : Char) : Prop :=
  ' ' ≤ c ∧ c ≤ '~'

instance (c : Char) : Decidable (IsShown c) :=
  inferInstanceAs (Decidable (_ ∧ _))

namespace IsShown

variable {c : Char}

/-- A printable character is none that is not printable. -/
theorem ne (shown : IsShown c) {d : Char} (hidden : ¬IsShown d) : c ≠ d := by
  rintro rfl
  exact hidden shown

/-- A printable character ends no line. -/
@[simp] theorem isBreak_eq (shown : IsShown c) : isBreak c = false := by
  simp [isBreak, shown.ne (by decide : ¬IsShown '\n'), shown.ne (by decide : ¬IsShown '\x85'),
    shown.ne (by decide : ¬IsShown '\u2028'), shown.ne (by decide : ¬IsShown '\u2029')]

/-- The one blank that is printable is the space. -/
@[simp] theorem isBlank_eq (shown : IsShown c) : isBlank c = (c == ' ') := by
  simp [isBlank, shown.ne (by decide : ¬IsShown '\t')]

end IsShown

/-- Spaces are printable. -/
theorem isShown_spaces (n : Nat) : ∀ d ∈ List.replicate n ' ', IsShown d := by
  intro d mem
  rw [List.eq_of_mem_replicate mem]
  decide

/-- The characters of a simple text are line feeds and printable ones. -/
theorem isSimple_cons {c : Char} {text : List Char} :
    isSimple (c :: text) = true ↔ (c = '\n' ∨ IsShown c) ∧ isSimple text = true := by
  simp [isSimple, IsShown]

/-- A text whose first character is another does not start with a mark. -/
theorem startsWithMarker_of_ne {mark c : Char} (ne : c ≠ mark) (text : List Char) :
    startsWithMarker mark (c :: text) = false := by
  unfold startsWithMarker
  split
  · next eq =>
    obtain ⟨rfl, rfl⟩ := List.cons.inj eq
    simp [ne]
  · rfl

/-- A dash before a space is no mark. -/
theorem startsWithMarker_dash {text : List Char} (space : atSpace text = true) :
    startsWithMarker '-' ('-' :: text) = false := by
  unfold startsWithMarker
  split
  · next b _ _ eq =>
    obtain ⟨rfl, rfl⟩ := List.cons.inj eq
    have : b ≠ '-' := by
      rintro rfl
      exact Bool.noConfusion space
    simp [this]
  · rfl

/-- No mark of a document starts with a line feed. -/
@[simp] theorem atSeparator_newline (text : List Char) : atSeparator ('\n' :: text) = false := by
  simp [atSeparator, startsWithMarker_of_ne]

/-- No mark of a document starts with a space. -/
@[simp] theorem atSeparator_space (text : List Char) : atSeparator (' ' :: text) = false := by
  simp [atSeparator, startsWithMarker_of_ne]

/-- No mark of a document stands at the start of an indented line. -/
theorem atSeparator_indented {indent : Nat} (positive : 0 < indent) (text : List Char) :
    atSeparator (List.replicate indent ' ' ++ text) = false := by
  obtain ⟨n, rfl⟩ := Nat.exists_eq_succ_of_ne_zero (Nat.ne_of_gt positive)
  exact atSeparator_space _

/-- What is checked of each character of a text holds of all of them. -/
theorem forall_of_all {p : Char → Prop} [DecidablePred p] {text : List Char}
    (all : text.all (fun c => decide (p c)) = true) : ∀ c ∈ text, p c :=
  fun c mem => of_decide_eq_true (List.all_eq_true.1 all c mem)

/-- A text that is empty or starts with a character that can be the first of a token. -/
def StartsToken (text : List Char) : Prop :=
  ∀ c ∈ text.head?, IsShown c ∧ c ≠ ' ' ∧ c ≠ '#'

/-- What starts a line that is indented by a column: nothing, or a character that can be the first
of a token, and no mark of a document. -/
structure StartsLine (column : Nat) (text : List Char) : Prop where
  /-- A token starts. -/
  token : StartsToken text
  /-- No mark of a document stands there. -/
  inside : atSeparator (List.replicate column ' ' ++ text) = false

/-! ## Gaps -/

/-- What was read, with nothing more before it. -/
theorem before_ok {α : Type} (start more : List α) (rest : List Char) :
    before start (.ok (more, rest)) = .ok (start ++ more, rest) := rfl

/-- A blank more on a line. -/
@[simp] theorem Gap.addBlank_blanks (text : List Char) (c : Char) :
    (Gap.blanks text).addBlank c = .blanks (text ++ [c]) := rfl

/-- A blank after a line end does not count. -/
@[simp] theorem Gap.addBlank_folded (first : Char) (further : List Char) (c : Char) :
    (Gap.folded first further).addBlank c = .folded first further := rfl

/-- A first line end. -/
@[simp] theorem Gap.addBreak_blanks (text : List Char) :
    (Gap.blanks text).addBreak '\n' = .folded '\n' [] := rfl

/-- A further line end. -/
@[simp] theorem Gap.addBreak_folded (first : Char) (further : List Char) :
    (Gap.folded first further).addBreak '\n' = .folded first (further ++ ['\n']) := rfl

/-- Line feeds after the first one count as themselves. -/
theorem Gap.text_folded {further : List Char} (ne : further ≠ []) :
    (Gap.folded '\n' further).text = further := by
  simp [Gap.text, foldBreaks, ne]

end Custody.Yaml
