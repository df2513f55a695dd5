import Custody.Proofs.Yaml.Integers
import Custody.Proofs.Yaml.Steps

/-!
# Scanning scalars

What is written of a text, an integer or an empty collection is scanned as its tokens, wherever it
stands in a document (`scans_text`, `scans_int`, `scans_brackets`).
-/

namespace Custody.Yaml

open Scanner

/-- Whether a text is written plainly. -/
def isPlainText (t : Text) : Bool :=
  (t.chars?.filter fitsSingleQuotes).any writesPlain

/-- The token of a text. -/
def textToken (t : Text) : Token :=
  .scalar t (isPlainText t)

/-- That a form at the end of a line is scanned as some tokens, within a block collection at column
`i`: a key may start there only if that is not the column, and the next line starts no further
right. -/
structure Scans (i : Nat) (form : List Char) (tokens : List Token) : Prop where
  /-- A token starts. -/
  starts : ∀ more, StartsToken (form ++ more)
  /-- The tokens are told. -/
  leads : ∀ {s : Scanner} {column next : Nat} {outer : List Nat} {allowKey : Bool}
    {told : List Token} {rest : List Char},
    s.Comes (form ++ (newLine next ++ rest)) column (i :: outer) allowKey told →
    column ≠ 0 → (allowKey = true → i ≠ column) → next ≤ i → StartsLine next rest →
    ∃ s', s.Leads s' ∧ s'.Comes rest next ((i :: outer).dropWhile (next < ·)) true
      (told ++ tokens ++ ends next (i :: outer))

/-- No plain text is longer than what is written of it. -/
theorem length_writePlain (indent column : Nat) (previous : Char) (text : List Char) :
    text.length ≤ (writePlain indent column previous text).length := by
  induction text generalizing column previous with
  | nil => exact Nat.zero_le _
  | cons c rest ih =>
    rw [writePlain]
    split
    · have := ih indent '\n'
      simp only [newLine, List.length_append, List.length_cons, List.length_replicate]
      omega
    · have := ih (column + 1) c
      simp only [List.length_cons]
      omega

/-- The first character of a text that is written plainly can be that of a plain scalar. -/
theorem start_of_writesPlain {c : Char} {text : List Char}
    (plain : writesPlain (c :: text) = true) :
    "#,[]\x7b\x7d&*!|>'\"%@\x60".toList.contains c = false ∧
      ("?:-".toList.contains c = true → atSpace text = false) := by
  simp only [writesPlain, Bool.and_eq_true, Bool.not_eq_true', hasMarks, Bool.or_eq_false_iff]
    at plain
  obtain ⟨⟨⟨-, ⟨⟨-, indicator⟩, spaced⟩, -⟩, -⟩, -⟩ := plain
  refine ⟨indicator, fun inner => ?_⟩
  rw [Bool.and_eq_false_iff] at spaced
  exact spaced.resolve_left (by rw [inner]; decide)

/-- A text made of words is scanned as itself, if it starts as a plain scalar can. -/
theorem scans_words {i indent : Nat} (right : i + 1 ≤ indent) {c : Char} {text : List Char}
    (plain : IsPlain (c :: text))
    (indicator : "#,[]\x7b\x7d&*!|>'\"%@\x60".toList.contains c = false)
    (inner : "?:-".toList.contains c = true → atSpace text = false) (place : Nat) :
    Scans i (writePlain indent place ' ' (c :: text)) [.scalar (.ofChars (c :: text)) true] := by
  obtain ⟨_, _, eq, shown, space⟩ := plain.head
  obtain ⟨rfl, rfl⟩ := List.cons.inj eq
  have written : writePlain indent place ' ' (c :: text) =
      c :: writePlain indent (place + 1) c text := by
    simp [writePlain]
  have comment : c ≠ '#' := by
    rintro rfl
    exact absurd indicator (by decide)
  have spaced (more : List Char) : "?:-".toList.contains c = true →
      atSpace (writePlain indent (place + 1) c text ++ more) = false := by
    intro mark
    have unspaced := inner mark
    cases text with
    | nil => exact absurd unspaced (by decide)
    | cons d text =>
      have : d ≠ ' ' := by
        rintro rfl
        exact absurd unspaced (by simp [atSpace, isBlank])
      simpa [writePlain, this, atSpace] using unspaced
  rw [written]
  refine ⟨fun more d mem => ?_, ?_⟩
  · obtain rfl := Option.some.inj mem
    exact ⟨shown, space, comment⟩
  · intro s column next outer allowKey told rest comes inside optional left line
    have fits : (c :: text).length ≤
        (writePlain indent place ' ' (c :: text) ++ (newLine next ++ rest)).length + 1 := by
      have := length_writePlain indent place ' ' (c :: text)
      rw [List.length_append]
      omega
    have read := readPlain_writePlain plain right (Nat.lt_succ_of_le left) line place ' ' [] false
      fits
    rw [written] at read
    obtain ⟨s', step, comes⟩ := Comes.plain (c :: writePlain indent (place + 1) c text) comes rfl
      optional line.token
      (fun s flow reached => scanToken_plain shown space indicator (spaced _) flow
        fun zero => absurd (reached.symm.trans zero) inside) read
    exact ⟨s', .single step, comes⟩

/-- A plain text is scanned as itself. -/
theorem scans_plain {i indent : Nat} (right : i + 1 ≤ indent) {text : List Char}
    (plain : writesPlain text = true) (place : Nat) :
    Scans i (writePlain indent place ' ' text) [.scalar (.ofChars text) true] := by
  cases text with
  | nil => exact absurd plain (by decide)
  | cons c text =>
    obtain ⟨indicator, inner⟩ := start_of_writesPlain plain
    exact scans_words right (isPlain_of_writesPlain plain) indicator inner place

/-- An integer is scanned as the scalar of its digits. -/
theorem scans_int (i : Nat) (n : Int) :
    Scans i (toString n).toList [.scalar (.ofString (toString n)) true] := by
  obtain ⟨digits, numeral, written⟩ := toString_cases n
  have eq : (toString n).toList = digits ∨ (toString n).toList = '-' :: digits :=
    written.imp And.left And.left
  rw [Text.ofString]
  generalize (toString n).toList = text at eq ⊢
  have all : ∀ c ∈ '-' :: asciiDigits, (IsShown c ∧ c ≠ ' ' ∧ c ≠ ':') ∧
      "#,[]\x7b\x7d&*!|>'\"%@\x60".toList.contains c = false := forall_of_all (by decide)
  have chars : ∀ c ∈ text, c ∈ '-' :: asciiDigits := chars_of_isNumeral numeral eq
  obtain ⟨c, rest, rfl⟩ : ∃ c rest, text = c :: rest := by
    obtain rfl | rfl := eq
    · exact List.exists_cons_of_ne_nil numeral.ne_nil
    · exact ⟨_, _, rfl⟩
  have isWord : IsWord (c :: rest) := .of_chars (by simp) fun d mem => (all d (chars d mem)).1
  have inner : "?:-".toList.contains c = true → atSpace rest = false := by
    intro mark
    obtain rfl | eq := eq
    · have none : ∀ c ∈ asciiDigits, "?:-".toList.contains c = false :=
        forall_of_all (by decide)
      rw [none c (numeral.digits c (List.mem_cons_self ..))] at mark
      exact Bool.noConfusion mark
    · obtain ⟨-, rfl⟩ := List.cons.inj eq
      have digits : IsWord rest := .of_chars numeral.ne_nil fun d mem =>
        (all d (chars d (List.mem_cons_of_mem _ mem))).1
      simpa using digits.atSpace_append []
  obtain ⟨_, _, same⟩ := writePlain_word isWord.unspaced (i + 1) 0 ' ' []
  rw [List.append_nil, writePlain, List.append_nil] at same
  have scans := scans_words (Nat.le_refl (i + 1)) (.word isWord)
    (all c (chars c (List.mem_cons_self ..))).2 inner 0
  rwa [same] at scans

/-- An empty collection is scanned as its brackets. -/
theorem scans_brackets {i : Nat} {a b : Char} {start stop : Token} (shown : IsShown a)
    (unspaced : a ≠ ' ' ∧ a ≠ '#') (bracket : IsShown b ∧ b ≠ ' ' ∧ b ≠ '#')
    (opens : ∀ (s : Scanner) rest, s.scanToken a rest = s.openFlow start)
    (closes : ∀ (s : Scanner) rest, s.scanToken b rest = s.closeFlow stop) :
    Scans i [a, b] [start, stop] where
  starts more d mem := by
    obtain rfl := Option.some.inj mem
    exact ⟨shown, unspaced⟩
  leads {s column next outer allowKey told rest} comes _ optional _ line := by
    have closing : StartsToken (b :: (newLine next ++ rest)) := by
      intro d mem
      obtain rfl := Option.some.inj mem
      exact bracket
    obtain ⟨s', leads, comes⟩ := Comes.brackets comes
      (fun allowed same => optional allowed (Option.some.inj same)) line.token shown closing
      (fun s => opens s _) (fun s => closes s _)
    refine ⟨s', leads, ?_⟩
    rwa [List.append_assoc told] at comes

/-- An empty list is scanned as its brackets. -/
theorem scans_emptyList (i : Nat) :
    Scans i ['[', ']'] [.flowSequenceStart, .flowSequenceEnd] :=
  scans_brackets (by decide) (by decide) (by decide)
    (fun s rest => by simp [scanToken, startsWithMarker_of_ne])
    (fun s rest => by simp [scanToken, startsWithMarker_of_ne])

/-- An empty record is scanned as its brackets. -/
theorem scans_emptyRecord (i : Nat) :
    Scans i ['\x7b', '\x7d'] [.flowMappingStart, .flowMappingEnd] :=
  scans_brackets (by decide) (by decide) (by decide) (fun _ _ => scanToken_openBrace)
    fun _ _ => scanToken_closeBrace

/-- A scalar in quotes is scanned as it is read. -/
theorem scans_quoted {i : Nat} {c : Char} {quoted : List Char} {t : Token} (quote : IsShown c)
    (space : c ≠ ' ') (comment : c ≠ '#')
    (scan : ∀ (s : Scanner) (next : Nat) (rest : List Char),
      s.scanToken c (quoted ++ (newLine next ++ rest)) = s.node (some (t, newLine next ++ rest))) :
    Scans i (c :: quoted) [t] where
  starts more d mem := by
    obtain rfl := Option.some.inj mem
    exact ⟨quote, space, comment⟩
  leads comes _ optional _ line := by
    obtain ⟨s', step, comes⟩ := Comes.quoted comes
      (fun allowed same => optional allowed (Option.some.inj same)) line.token
      fun s => scan s _ _
    exact ⟨s', .single step, comes⟩

/-- A text in single quotes is scanned as itself. -/
theorem scans_singleQuoted {i indent : Nat} (positive : 0 < indent) {text : List Char}
    (fits : fitsSingleQuotes text = true) (place : Nat) :
    Scans i ('\'' :: writeSingleQuoted indent place none text)
      [.scalar (.ofChars text) false] := by
  simp only [fitsSingleQuotes, Bool.and_eq_true, Bool.not_eq_true'] at fits
  refine scans_quoted (by decide) (by decide) (by decide) fun s next rest => ?_
  have start : Follows none text (.blanks []) := .char (by simp) (by simp)
  have read : readSingleQuoted (.blanks [])
      (writeSingleQuoted indent place none text ++ (newLine next ++ rest)) =
        .ok (text, newLine next ++ rest) :=
    readSingleQuoted_writeSingleQuoted positive (by simp [newLine]) fits.1 start fits.2
  rw [scanToken_single, singleQuoted, read]
  rfl

/-- A text in double quotes is scanned as itself. -/
theorem scans_doubleQuoted {i indent : Nat} (positive : 0 < indent) (room : indent + 1 ≤ lineWidth)
    (t : Text) (place : Nat) :
    Scans i ('"' :: writeDoubleQuoted indent place [] true t.points) [.scalar t false] := by
  refine scans_quoted (by decide) (by decide) (by decide) fun s next rest => ?_
  rw [scanToken_double, doubleQuoted, readDoubleQuoted_writeDoubleQuoted positive room]
  rfl

/-- A text is written after a space, and scanned as itself. -/
theorem scans_text {i indent : Nat} (right : i + 1 ≤ indent) (room : indent + 1 ≤ lineWidth)
    (place : Nat) (t : Text) :
    ∃ form, writeText indent place t = ' ' :: form ∧ Scans i form [textToken t] := by
  have positive : 0 < indent := Nat.lt_of_lt_of_le (Nat.succ_pos i) right
  rw [writeText, textToken, isPlainText]
  cases quoted : t.chars?.filter fitsSingleQuotes with
  | none => exact ⟨_, rfl, scans_doubleQuoted positive room t _⟩
  | some text =>
    obtain ⟨chars, fits⟩ := Option.filter_eq_some_iff.1 quoted
    obtain rfl := Text.eq_ofChars_of_chars? chars
    rw [Option.any_some]
    cases plain : writesPlain text with
    | true => exact ⟨_, if_pos plain, scans_plain right plain (place + 1)⟩
    | false =>
      exact ⟨_, if_neg (Bool.not_eq_true _ ▸ plain), scans_singleQuoted positive fits (place + 2)⟩

end Custody.Yaml
