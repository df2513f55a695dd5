import Custody.Proofs.Yaml.Characters
import Mathlib.Algebra.Group.Nat.Defs

/-!
# Texts in double quotes

What is written in double quotes is read as itself (`readDoubleQuoted_writeDoubleQuoted`): every
escape stands for its code point (`Spells.escape`), and a line that was broken after a backslash is
joined to the next, whose spaces count only after a backslash of their own.
-/

namespace Custody

/-- The number of a code point gives the code point. -/
theorem CodePoint.ofNat?_toNat (p : CodePoint) : CodePoint.ofNat? p.toNat = some p := by
  cases p with
  | char c =>
    have valid : c.toNat.isValidChar := c.valid
    rw [toNat, ofNat?, dif_pos valid]
    rfl
  | surrogate offset =>
    have invalid : ¬(0xd800 + offset.val).isValidChar := by
      have := offset.isLt
      simp only [Nat.isValidChar]
      omega
    have small : 0xd800 + offset.val - 0xd800 < 0x800 := by
      have := offset.isLt
      omega
    rw [toNat, ofNat?, dif_neg invalid, dif_pos small]
    simp only [Nat.add_sub_cancel_left]

/-- A code point has at most 32 bits. -/
theorem CodePoint.toNat_lt (p : CodePoint) : p.toNat < 2 ^ 32 := by
  cases p with
  | char c => exact c.val.toNat_lt
  | surrogate offset =>
    have := offset.isLt
    simp only [CodePoint.toNat]
    omega

namespace Yaml

/-! ## Escapes -/

/-- The digit written for a value below 16 has that value. -/
theorem digit?_hexDigit {d : Nat} (small : d < 16) :
    Hex.digit? (if d < 10 then Char.ofNat ('0'.toNat + d) else Char.ofNat ('A'.toNat + (d - 10))) =
      some d := by
  have all : ∀ d < 16, Hex.digit? (if d < 10 then Char.ofNat ('0'.toNat + d)
      else Char.ofNat ('A'.toNat + (d - 10))) = some d := by decide
  exact all d small

/-- The digits of a number have its value. -/
theorem mapM_hexDigits {width n : Nat} (fits : n < 16 ^ width) :
    ∃ values, (hexDigits width n).mapM Hex.digit? = some values ∧
      values.foldl (fun n d => 16 * n + d) 0 = n := by
  induction width generalizing n with
  | zero => exact ⟨[], rfl, by simp at fits; simp [fits]⟩
  | succ width ih =>
    obtain ⟨values, read, value⟩ := ih (n := n / 16) (by rw [Nat.pow_succ] at fits; omega)
    refine ⟨values ++ [n % 16], ?_, ?_⟩
    · simp only [hexDigits, List.mapM_append, read, List.mapM_cons, List.mapM_nil,
        digit?_hexDigit (Nat.mod_lt n (by decide : 0 < 16))]
      rfl
    · rw [List.foldl_append, value]
      simp only [List.foldl_cons, List.foldl_nil]
      omega

/-- The digits of a code point's number give the code point. -/
theorem pointOfHex_hexDigits (width : Nat) {p : CodePoint} (fits : p.toNat < 16 ^ width) :
    pointOfHex (hexDigits width p.toNat) = .ok p := by
  obtain ⟨values, read, value⟩ := mapM_hexDigits fits
  simp only [pointOfHex, read, value, CodePoint.ofNat?_toNat]

/-- A short escape stands for its character, and is neither a longer escape nor a line end. -/
theorem shortEscapes_sound {c e : Char} (short : shortEscapes.lookup c = some e) :
    escapes.lookup e = some c ∧ isBreak e = false ∧ (e ≠ 'x' ∧ e ≠ 'u' ∧ e ≠ 'U') := by
  have all : ∀ entry ∈ shortEscapes, escapes.lookup entry.2 = some entry.1 ∧
      isBreak entry.2 = false ∧ (entry.2 ≠ 'x' ∧ entry.2 ≠ 'u' ∧ entry.2 ≠ 'U') := by decide
  obtain ⟨before, after, eq, -⟩ := List.lookup_eq_some_iff.1 short
  exact all (c, e) (by rw [eq]; simp)

/-! ## Reading, piece by piece -/

/-- A text spells code points if it is read as them, up to the quote after which the given rest
stands, after every gap to which its own spaces may be added. -/
def Spells (text : List Char) (points : List CodePoint) (rest : List Char) : Prop :=
  ∀ gap : Gap, (text.head? = some ' ' → ∃ blanks, gap = .blanks blanks) →
    readDoubleQuoted gap text = .ok (gap.points ++ points, rest)

/-- A space is a blank more. -/
theorem readDoubleQuoted_space (gap : Gap) (text : List Char) :
    readDoubleQuoted gap (' ' :: text) = readDoubleQuoted (gap.addBlank ' ') text := by
  rw [readDoubleQuoted]
  · rfl
  all_goals simp

/-- Every other printable character stands for itself, after the gap before it, unless it is a
mark. -/
theorem readDoubleQuoted_char {c : Char} (gap : Gap) (text : List Char) (shown : IsShown c)
    (quote : c ≠ '"') (backslash : c ≠ '\\') (space : c ≠ ' ') :
    readDoubleQuoted gap (c :: text) =
      before (gap.points ++ [.char c]) (readDoubleQuoted (.blanks []) text) := by
  rw [readDoubleQuoted]
  · simp [shown, space, backslash]
  all_goals simp [quote, backslash]

/-- A character after a backslash stands for another, unless a longer escape or a line end starts
with it. -/
theorem readDoubleQuoted_short {c e : Char} (gap : Gap) (text : List Char)
    (stands : escapes.lookup e = some c) (same : isBreak e = false)
    (short : e ≠ 'x' ∧ e ≠ 'u' ∧ e ≠ 'U') :
    readDoubleQuoted gap ('\\' :: e :: text) =
      before (gap.points ++ [.char c]) (readDoubleQuoted (.blanks []) text) := by
  rw [readDoubleQuoted]
  · simp [same, stands]
  all_goals simp [short]

/-- A line end after a backslash and the spaces after it count as nothing but the gap before. -/
theorem readDoubleQuoted_join (gap : Gap) (indent : Nat) {text : List Char}
    (inside : atSeparator (List.replicate indent ' ' ++ text) = false) :
    readDoubleQuoted gap ('\\' :: newLine indent ++ text) =
      before gap.points (readDoubleQuoted (.joined []) text) := by
  have skip (n : Nat) : readDoubleQuoted (.joined []) (List.replicate n ' ' ++ text) =
      readDoubleQuoted (.joined []) text := by
    induction n with
    | zero => rfl
    | succ n ih =>
      rw [List.replicate_succ, List.cons_append, readDoubleQuoted_space]
      exact ih
  rw [newLine, List.cons_append, List.cons_append, readDoubleQuoted]
  · simp [isBreak, inside, skip]
  all_goals simp

namespace Spells

variable {text rest : List Char} {points : List CodePoint}

/-- A text that is spelled is read as it is from its first quote on. -/
theorem read (spells : Spells text points rest) :
    readDoubleQuoted (.blanks []) text = .ok (points, rest) := by
  rw [spells _ fun _ => ⟨[], rfl⟩]
  rfl

/-- A quote ends a text. -/
theorem close (rest : List Char) : Spells ('"' :: rest) [] rest := by
  intro gap _
  rw [readDoubleQuoted, List.append_nil]

/-- What is read of a piece that stands for a code point. -/
theorem of_read (piece : List Char) {p : CodePoint} (spells : Spells text points rest)
    (reads : ∀ gap : Gap, readDoubleQuoted gap (piece ++ text) =
      before (gap.points ++ [p]) (readDoubleQuoted (.blanks []) text)) :
    Spells (piece ++ text) (p :: points) rest := by
  intro gap _
  rw [reads, spells.read, before_ok, List.append_assoc]
  rfl

/-- A printable character stands for itself, unless it is a mark. -/
theorem char {c : Char} (spells : Spells text points rest) (shown : IsShown c)
    (quote : c ≠ '"') (backslash : c ≠ '\\') : Spells (c :: text) (.char c :: points) rest := by
  by_cases space : c = ' '
  · subst space
    intro gap blanks
    obtain ⟨blanks, rfl⟩ := blanks rfl
    rw [readDoubleQuoted_space, Gap.addBlank_blanks, spells _ fun _ => ⟨_, rfl⟩]
    simp [Gap.points, Gap.text]
  · exact spells.of_read [c] fun gap =>
      readDoubleQuoted_char gap text shown quote backslash space

/-- An escape stands for its code point. -/
theorem escape (spells : Spells text points rest) (p : CodePoint) :
    Spells (escape p ++ text) (p :: points) rest := by
  refine spells.of_read _ fun gap => ?_
  rw [Yaml.escape]
  split
  · next e short =>
    obtain ⟨c, char, short⟩ := Option.bind_eq_some_iff.1 short
    obtain rfl : p = .char c := by
      cases p with
      | char d => rw [Option.some.inj char]
      | surrogate => simp [CodePoint.char?] at char
    obtain ⟨stands, same, short⟩ := shortEscapes_sound short
    exact readDoubleQuoted_short gap text stands same short
  · have bounded := p.toNat_lt
    split
    · next small =>
      have read := pointOfHex_hexDigits 2 (p := p) (by omega)
      simp only [hexDigits, List.nil_append, List.cons_append] at read ⊢
      rw [readDoubleQuoted, read, Outcome.ok_bind]
    split
    · next small =>
      have read := pointOfHex_hexDigits 4 (p := p) (by omega)
      simp only [hexDigits, List.nil_append, List.cons_append] at read ⊢
      rw [readDoubleQuoted, read, Outcome.ok_bind]
    · have read := pointOfHex_hexDigits 8 (p := p) (by omega)
      simp only [hexDigits, List.nil_append, List.cons_append] at read ⊢
      rw [readDoubleQuoted, read, Outcome.ok_bind]

/-- A space may be escaped. -/
theorem space (spells : Spells text points rest) :
    Spells ('\\' :: ' ' :: text) (.char ' ' :: points) rest :=
  spells.of_read ['\\', ' '] fun gap =>
    readDoubleQuoted_short gap text (by decide) (by decide) (by decide)

/-- A line end after a backslash counts as nothing, and so do the spaces after it. -/
theorem join {indent : Nat} (spells : Spells text points rest) (positive : 0 < indent)
    (start : text.head? ≠ some ' ') : Spells ('\\' :: newLine indent ++ text) points rest := by
  intro gap _
  rw [readDoubleQuoted_join gap indent (atSeparator_indented positive text),
    spells _ fun blank => absurd blank start, before_ok]
  rfl

end Spells

/-! ## Reading what was written -/

/-- A code point that is not escaped is a printable character and no mark. -/
theorem eq_char_of_not_needsEscape {p : CodePoint} (bare : needsEscape p = false) :
    ∃ c, p = .char c ∧ IsShown c ∧ c ≠ '"' ∧ c ≠ '\\' := by
  simp only [needsEscape, Bool.or_eq_false_iff, beq_eq_false_iff_ne, Bool.not_eq_false',
    Bool.and_eq_true, decide_eq_true_eq] at bare
  obtain ⟨⟨quote, backslash⟩, low, high⟩ := bare
  cases p with
  | char c => exact ⟨c, rfl, ⟨low, high⟩, by simpa using quote, by simpa using backslash⟩
  | surrogate offset =>
    have : '~'.toNat = 126 := rfl
    simp only [CodePoint.toNat] at high
    omega

/-- Where a line has room, a first character that is not escaped is held back. -/
theorem writeDoubleQuoted_bare {indent column : Nat} {p : CodePoint} (bare : needsEscape p = false)
    (room : column ≤ lineWidth) (first : Bool) (points : List CodePoint) :
    writeDoubleQuoted indent column [] first (p :: points) =
      writeDoubleQuoted indent column [p.shown] false points := by
  rw [writeDoubleQuoted, bare, if_neg (by simp), if_neg]
  · rfl
  · simp only [List.length_nil, Nat.add_zero, Bool.and_eq_true, decide_eq_true_eq, not_and]
    intros
    omega

/-- What is written of a text starts with a backslash where nothing is held back and its first code
point is escaped. -/
theorem head?_writeDoubleQuoted {indent column : Nat} {p : CodePoint}
    (escaped : needsEscape p = true) (first : Bool) (points : List CodePoint) (rest : List Char) :
    (writeDoubleQuoted indent column [] first (p :: points) ++ rest).head? = some '\\' := by
  have mark : ∃ more, escape p = '\\' :: more := by
    rw [escape]
    split
    · exact ⟨_, rfl⟩
    · split_ifs <;> exact ⟨_, rfl⟩
  obtain ⟨more, eq⟩ := mark
  rw [writeDoubleQuoted, if_pos escaped]
  dsimp only
  split <;> simp [eq]

/-- The backslash that a space needs at the start of a line. -/
def spaceMark (points : List CodePoint) : List Char :=
  if points.head? == some (.char ' ') then ['\\'] else []

/-- That what is written of a text spells the text, whatever was held back before. -/
def IsSpelled (indent : Nat) (rest : List Char) (points : List CodePoint) : Prop :=
  ∀ (column : Nat) (held : List Char) (first : Bool), ∃ text,
    writeDoubleQuoted indent column held first points ++ rest = held ++ text ∧
      Spells text points rest

namespace IsSpelled

variable {indent : Nat} {rest : List Char} {p : CodePoint} {points : List CodePoint}

/-- A line may be broken before a character that is not escaped. -/
theorem turn_bare (spelled : IsSpelled indent rest points) (positive : 0 < indent)
    (bare : needsEscape p = false) (column : Nat) :
    Spells ('\\' :: newLine indent ++ (spaceMark (p :: points) ++
      (writeDoubleQuoted indent column [p.shown] false points ++ rest))) (p :: points) rest := by
  obtain ⟨text, eq, spells⟩ := spelled column [p.shown] false
  obtain ⟨c, rfl, shown, quote, backslash⟩ := eq_char_of_not_needsEscape bare
  rw [eq]
  by_cases space : c = ' '
  · subst space
    exact spells.space.join positive (by simp)
  · have mark : spaceMark (.char c :: points) = [] := by simp [spaceMark, space]
    rw [mark]
    exact (spells.char shown quote backslash).join positive (by simpa using space)

/-- A line may be broken before every part of a text. -/
theorem turn (spelled : IsSpelled indent rest points) (later : IsSpelled indent rest points.tail)
    (positive : 0 < indent) (room : indent + 1 ≤ lineWidth) :
    Spells ('\\' :: newLine indent ++ (spaceMark points ++
      (writeDoubleQuoted indent (indent + (spaceMark points).length) [] false points ++ rest)))
      points rest := by
  obtain ⟨text, eq, spells⟩ := spelled (indent + (spaceMark points).length) [] false
  rw [List.nil_append] at eq
  cases points with
  | nil =>
    rw [eq]
    refine spells.join positive ?_
    rw [← eq]
    simp [writeDoubleQuoted]
  | cons p points =>
    cases bare : needsEscape p with
    | false =>
      have fits : indent + (spaceMark (p :: points)).length ≤ lineWidth := by
        rw [spaceMark]
        split
        · exact room
        · exact Nat.le_of_succ_le room
      rw [writeDoubleQuoted_bare bare fits]
      exact later.turn_bare positive bare _
    | true =>
      have mark : spaceMark (p :: points) = [] := by
        have : p ≠ .char ' ' := by
          rintro rfl
          exact absurd bare (by decide)
        simp [spaceMark, this]
      rw [eq, mark]
      refine spells.join positive ?_
      rw [← eq, head?_writeDoubleQuoted bare]
      simp

/-- A text with one more code point before it is spelled if it is, and so is what follows its
own first one. -/
theorem cons (spelled : IsSpelled indent rest points) (later : IsSpelled indent rest points.tail)
    (positive : 0 < indent) (room : indent + 1 ≤ lineWidth) (p : CodePoint) :
    IsSpelled indent rest (p :: points) := by
  intro column held first
  cases bare : needsEscape p with
  | true =>
    rw [writeDoubleQuoted, if_pos bare]
    dsimp only
    split
    · refine ⟨escape p ++ _, ?_, (spelled.turn later positive room).escape p⟩
      simp [spaceMark]
    · obtain ⟨text, eq, spells⟩ := spelled (column + (held ++ escape p).length) [] false
      refine ⟨escape p ++ text, ?_, spells.escape p⟩
      rw [List.append_assoc, eq]
      simp
  | false =>
    rw [writeDoubleQuoted, bare, if_neg (by simp)]
    dsimp only
    split
    · refine ⟨_, ?_, spelled.turn_bare positive bare (indent + (spaceMark (p :: points)).length)⟩
      simp [spaceMark]
    · obtain ⟨c, rfl, shown, quote, backslash⟩ := eq_char_of_not_needsEscape bare
      obtain ⟨text, eq, spells⟩ := spelled column (held ++ [c]) false
      refine ⟨c :: text, ?_, spells.char shown quote backslash⟩
      rw [CodePoint.shown, eq]
      simp

end IsSpelled

/-- What is written of a text from some place on: what was held back, and what spells the text. -/
theorem writeDoubleQuoted_spells {indent : Nat} (positive : 0 < indent)
    (room : indent + 1 ≤ lineWidth) (rest : List Char) (points : List CodePoint) :
    IsSpelled indent rest points ∧ IsSpelled indent rest points.tail := by
  -- A line is broken before what follows a code point, so that the tail is carried along.
  induction points with
  | nil =>
    have nothing : IsSpelled indent rest [] := by
      intro column held first
      exact ⟨'"' :: rest, by simp [writeDoubleQuoted], Spells.close rest⟩
    exact ⟨nothing, nothing⟩
  | cons p points ih => exact ⟨ih.1.cons ih.2 positive room p, ih.1⟩

/-- A text is read as it was written. -/
theorem readDoubleQuoted_writeDoubleQuoted {indent : Nat} (positive : 0 < indent)
    (room : indent + 1 ≤ lineWidth) (column : Nat) (points : List CodePoint) (rest : List Char) :
    readDoubleQuoted (.blanks []) (writeDoubleQuoted indent column [] true points ++ rest) =
      .ok (points, rest) := by
  obtain ⟨text, eq, spells⟩ := (writeDoubleQuoted_spells positive room rest points).1 column [] true
  rw [eq]
  exact spells.read

end Yaml

end Custody
