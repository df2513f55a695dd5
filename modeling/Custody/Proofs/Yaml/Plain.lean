import Custody.Proofs.Yaml.Characters

/-!
# Plain texts

A text that is written plainly is made of words with spaces between them (`IsPlain`), and none of
the words has a mark in it at which the reading of a plain scalar would stop. It is read as it was
written, up to the next line, which starts further left (`readPlain_writePlain`). A word before a
colon is read up to the colon (`readPlain_name`).
-/

namespace Custody.Yaml

/-! ## Words -/

/-- A word of a plain scalar: printable characters without a space, which are read as they are
before a space or a line end. -/
structure IsWord (word : List Char) : Prop where
  /-- There is a character. -/
  ne_nil : word ≠ []
  /-- All are printable. -/
  shown : ∀ c ∈ word, IsShown c
  /-- None is a space. -/
  unspaced : ∀ c ∈ word, c ≠ ' '
  /-- The word is read to its end. -/
  stretch : ∀ rest, atSpace rest = true → plainStretch false (word ++ rest) = word

/-- A text made of words, with spaces between them, none of which starts a comment. -/
inductive IsPlain : List Char → Prop
  | word {word : List Char} : IsWord word → IsPlain word
  | more {word text : List Char} (n : Nat) : IsWord word → IsPlain text →
      text.head? ≠ some '#' → IsPlain (word ++ (List.replicate (n + 1) ' ' ++ text))

namespace IsWord

variable {c : Char} {word : List Char}

/-- No space and no line end stands before the rest of a word. -/
theorem atSpace_append (isWord : IsWord word) (rest : List Char) :
    atSpace (word ++ rest) = false := by
  cases word with
  | nil => exact absurd rfl isWord.ne_nil
  | cons c word =>
    have shown := isWord.shown c (by simp)
    simpa [atSpace, shown] using isWord.unspaced c (by simp)

/-- A character alone is a word, if it is no colon. -/
theorem single (shown : IsShown c) (space : c ≠ ' ') (colon : c ≠ ':') : IsWord [c] where
  ne_nil := by simp
  shown := by simpa using shown
  unspaced := by simpa using space
  stretch rest atSpace := by
    have ended : plainStretch false rest = [] := by
      cases rest with
      | nil => rfl
      | cons d rest =>
        have : isBlank d = true ∨ isBreak d = true := by simpa [Yaml.atSpace] using atSpace
        simp [plainStretch, this]
    simp [plainStretch, shown, space, colon, ended]

/-- A word with a character before it is a word, also if that is a colon. -/
theorem cons (isWord : IsWord word) (shown : IsShown c) (space : c ≠ ' ') : IsWord (c :: word) where
  ne_nil := by simp
  shown := by simpa using ⟨shown, isWord.shown⟩
  unspaced := by simpa using ⟨space, isWord.unspaced⟩
  stretch rest atSpace := by
    rw [List.cons_append, plainStretch]
    simp [shown, space, isWord.atSpace_append rest, isWord.stretch rest atSpace]

/-- Printable characters without a space or a colon are a word. -/
theorem of_chars (ne : word ≠ []) (chars : ∀ c ∈ word, IsShown c ∧ c ≠ ' ' ∧ c ≠ ':') :
    IsWord word := by
  induction word with
  | nil => exact absurd rfl ne
  | cons c word ih =>
    rw [List.forall_mem_cons] at chars
    obtain ⟨⟨shown, space, colon⟩, chars⟩ := chars
    by_cases nothing : word = []
    · subst nothing
      exact single shown space colon
    · exact (ih nothing chars).cons shown space

end IsWord

/-- What a text with no marks in it is made of: spaces, maybe, and words with spaces between
them. -/
theorem isPlain_or_spaced {previous : Char} {text : List Char} (some_text : text ≠ [])
    (shown : ∀ c ∈ text, IsShown c) (unmarked : hasInnerMark previous text = false)
    (last : text.getLast? ≠ some ' ') :
    IsPlain text ∨ ∃ n words, text = List.replicate (n + 1) ' ' ++ words ∧ IsPlain words ∧
      words.head? ≠ some '#' := by
  induction text generalizing previous with
  | nil => exact absurd rfl some_text
  | cons c rest ih =>
    rw [List.forall_mem_cons] at shown
    simp only [hasInnerMark, Bool.or_eq_false_iff] at unmarked
    obtain ⟨here, later⟩ := unmarked
    have colon (space : atSpace rest = true) : c ≠ ':' := by
      rintro rfl
      simp [isInnerMark, space] at here
    by_cases nothing : rest = []
    · subst nothing
      exact .inl (.word (.single shown.1 (by simpa using last) (colon rfl)))
    have ih := ih nothing shown.2 later (by rwa [List.getLast?_cons_of_ne_nil nothing] at last)
    by_cases space : c = ' '
    · subst space
      right
      obtain plain | ⟨n, words, rfl, plain, comment⟩ := ih
      · refine ⟨0, rest, rfl, plain, fun comment => ?_⟩
        obtain ⟨more, rfl⟩ := List.head?_eq_some_iff.1 comment
        simp [hasInnerMark, isInnerMark, isBlank] at later
      · exact ⟨n + 1, words, rfl, plain, comment⟩
    · -- The character starts the first word of the rest, or is a word of its own before spaces.
      left
      obtain plain | ⟨n, words, rfl, plain, comment⟩ := ih
      · cases plain with
        | word isWord => exact .word (isWord.cons shown.1 space)
        | more n isWord plain comment =>
          exact .more n (isWord.cons shown.1 space) plain comment
      · exact (.more n (.single shown.1 space (colon rfl)) plain comment : IsPlain ([c] ++ _))

/-- A text that is written plainly is made of words. -/
theorem isPlain_of_writesPlain {text : List Char} (plain : writesPlain text = true) :
    IsPlain text := by
  simp only [writesPlain, Bool.and_eq_true, bne_iff_ne, beq_iff_eq, Bool.not_eq_true'] at plain
  obtain ⟨⟨⟨⟨⟨type, simple⟩, newline⟩, unmarked⟩, first⟩, last⟩ := plain
  cases text with
  | nil => exact absurd type (by decide)
  | cons c rest =>
    have shown : ∀ d ∈ c :: rest, IsShown d := by
      intro d mem
      have kind := List.all_eq_true.1 simple d mem
      have : d ≠ '\n' := by
        rintro rfl
        simp [mem] at newline
      simpa [this, IsShown] using kind
    have start : hasInnerMark ' ' (c :: rest) = false := by
      simp only [hasMarks, Bool.or_eq_false_iff] at unmarked
      obtain ⟨⟨⟨-, indicator⟩, spaced⟩, unmarked⟩ := unmarked
      have comment : c ≠ '#' := by
        rintro rfl
        exact absurd indicator (by decide)
      have colon : c = ':' → atSpace rest = false := by
        rintro rfl
        simpa using spaced
      simpa [hasInnerMark, isInnerMark, comment, unmarked] using colon
    obtain plain | ⟨n, words, eq, -⟩ := isPlain_or_spaced (by simp) shown start last
    · exact plain
    · rw [List.replicate_succ, List.cons_append] at eq
      exact absurd (congrArg List.head? eq) first

/-- The first character of a text made of words is none of a gap. -/
theorem IsPlain.head {text : List Char} (plain : IsPlain text) :
    ∃ c rest, text = c :: rest ∧ IsShown c ∧ c ≠ ' ' := by
  have first {word : List Char} (isWord : IsWord word) (rest : List Char) :
      ∃ c more, word ++ rest = c :: more ∧ IsShown c ∧ c ≠ ' ' := by
    obtain ⟨c, word, rfl⟩ := List.exists_cons_of_ne_nil isWord.ne_nil
    exact ⟨c, word ++ rest, rfl, isWord.shown c (by simp), isWord.unspaced c (by simp)⟩
  cases plain with
  | word isWord => simpa using first isWord []
  | more n isWord => exact first isWord _

/-! ## Writing -/

/-- A word is written as it is. -/
theorem writePlain_word {word : List Char} (unspaced : ∀ c ∈ word, c ≠ ' ') (indent column : Nat)
    (previous : Char) (rest : List Char) :
    ∃ reached last, writePlain indent column previous (word ++ rest) =
      word ++ writePlain indent reached last rest := by
  induction word generalizing column previous with
  | nil => exact ⟨column, previous, rfl⟩
  | cons c word ih =>
    rw [List.forall_mem_cons] at unspaced
    obtain ⟨reached, last, eq⟩ := ih unspaced.2 (column + 1) c
    exact ⟨reached, last, by simp [writePlain, unspaced.1, eq]⟩

/-- Spaces between words are written as they are, or, where one stands alone, as a line end. -/
theorem writePlain_spaces (indent column : Nat) (previous : Char) (n : Nat) (text : List Char) :
    (∃ reached, writePlain indent column previous (List.replicate (n + 1) ' ' ++ text) =
        List.replicate (n + 1) ' ' ++ writePlain indent reached ' ' text) ∨
      n = 0 ∧ writePlain indent column previous (List.replicate (n + 1) ' ' ++ text) =
        newLine indent ++ writePlain indent indent '\n' text := by
  have further (m column : Nat) : ∃ reached,
      writePlain indent column ' ' (List.replicate m ' ' ++ text) =
        List.replicate m ' ' ++ writePlain indent reached ' ' text := by
    induction m generalizing column with
    | zero => exact ⟨column, rfl⟩
    | succ m ih =>
      obtain ⟨reached, eq⟩ := ih (column + 1)
      exact ⟨reached, by simp [List.replicate_succ, writePlain, eq]⟩
  rw [List.replicate_succ, List.cons_append, writePlain]
  split
  · next turns =>
    right
    cases n with
    | zero => exact ⟨rfl, rfl⟩
    | succ n => simp [List.replicate_succ] at turns
  · left
    obtain ⟨reached, eq⟩ := further n (column + 1)
    exact ⟨reached, by rw [eq]; rfl⟩

/-- The first character of a text made of words is written first. -/
theorem IsPlain.head_written {text : List Char} (plain : IsPlain text) (indent column : Nat)
    (previous : Char) (rest : List Char) :
    (writePlain indent column previous text ++ rest).head? = text.head? := by
  obtain ⟨c, text, rfl, -, space⟩ := plain.head
  simp [writePlain, space]

/-! ## Reading -/

/-- What follows a word before spaces. -/
theorem plainGap_spaces (n : Nat) {rest : List Char} (starts : StartsToken rest)
    (ne : rest ≠ []) :
    plainGap (List.replicate (n + 1) ' ' ++ rest) = ⟨List.replicate (n + 1) ' ', rest, none⟩ := by
  obtain ⟨c, more, rfl⟩ := List.exists_cons_of_ne_nil ne
  obtain ⟨shown, space, -⟩ := starts c rfl
  have skipped : (List.replicate (n + 1) ' ' ++ c :: more).dropWhile (· == ' ') = c :: more := by
    simp [space]
  have taken : (List.replicate (n + 1) ' ' ++ c :: more).takeWhile (· == ' ') =
      List.replicate (n + 1) ' ' := by
    simp [space]
  simp [plainGap, skipped, taken, shown]

/-- The spaces before a line are those before its column. -/
theorem plainBreaks_indented {rest : List Char} (starts : StartsToken rest) (column n : Nat) :
    plainBreaks column (List.replicate n ' ' ++ rest) = ([], rest, column + n, false) := by
  induction n generalizing column with
  | zero =>
    cases rest with
    | nil => rfl
    | cons c rest =>
      obtain ⟨shown, space, -⟩ := starts c rfl
      simp [plainBreaks, space, shown]
  | succ n ih =>
    rw [List.replicate_succ, List.cons_append, plainBreaks, if_pos (by rfl), ih]
    congr 3
    omega

/-- What follows a word before the end of its line, if the next one is neither empty nor the mark of
a document. -/
theorem plainGap_newLine {column : Nat} {rest : List Char} (starts : StartsLine column rest) :
    plainGap (newLine column ++ rest) = ⟨[' '], rest, some column⟩ := by
  simp [plainGap, newLine, isBreak, starts.inside, plainBreaks_indented starts.token, foldBreaks,
    lineEnd]

section

variable {least fuel : Nat} {gap word rest : List Char} {turned : Bool}

/-- A plain scalar that ends after a word. -/
theorem readPlain_last {next : PlainGap} (isWord : IsWord word) (space : atSpace rest = true)
    (follows : plainGap rest = next) (ends : next.column.any (· < least) = true) :
    readPlain false least (fuel + 1) gap turned (word ++ rest) =
      (gap ++ word, next.rest, next.column.isSome) := by
  simp only [readPlain, isWord.stretch rest space, List.drop_left, follows, List.isEmpty_iff,
    isWord.ne_nil, if_false, ends, Bool.not_false, Bool.true_and, Bool.or_true, if_true]

/-- A plain scalar that goes on after a word. -/
theorem readPlain_goes {next : PlainGap} {more left : List Char} {turned' : Bool}
    (isWord : IsWord word) (space : atSpace rest = true) (follows : plainGap rest = next)
    (some_gap : next.text ≠ []) (comment : next.rest.head? ≠ some '#')
    (inside : next.column.any (· < least) = false)
    (read : readPlain false least fuel next.text next.column.isSome next.rest =
      (next.text ++ more, left, turned')) :
    readPlain false least (fuel + 1) gap turned (word ++ rest) =
      (gap ++ (word ++ (next.text ++ more)), left, turned') := by
  simp [readPlain, isWord.stretch rest space, follows, isWord.ne_nil, some_gap, comment, inside,
    read]

end

/-- A text made of words is read as it was written, up to a line that starts further left. -/
theorem readPlain_writePlain {text : List Char} (plain : IsPlain text) {indent least column : Nat}
    (right : least ≤ indent) (left : column < least) {rest : List Char}
    (starts : StartsLine column rest) (place : Nat) (previous : Char) {fuel : Nat}
    (gap : List Char) (turned : Bool) (fits : text.length ≤ fuel) :
    readPlain false least fuel gap turned
        (writePlain indent place previous text ++ (newLine column ++ rest)) =
      (gap ++ text, rest, true) := by
  induction plain generalizing place previous fuel gap turned with
  | @word word isWord =>
    obtain ⟨reached, last, written⟩ := writePlain_word isWord.unspaced indent place previous []
    obtain ⟨fuel, rfl⟩ : ∃ n, fuel = n + 1 := by
      have := List.length_pos_iff.2 isWord.ne_nil
      exact ⟨fuel - 1, by omega⟩
    rw [List.append_nil] at written
    rw [written, writePlain, List.append_nil]
    exact readPlain_last isWord rfl (plainGap_newLine starts) (by simpa using left)
  | @more word text n isWord plain comment ih =>
    obtain ⟨reached, last, written⟩ := writePlain_word isWord.unspaced indent place previous
      (List.replicate (n + 1) ' ' ++ text)
    have some_word := List.length_pos_iff.2 isWord.ne_nil
    simp only [List.length_append, List.length_replicate] at fits
    obtain ⟨fuel, rfl⟩ : ∃ n, fuel = n + 1 := ⟨fuel - 1, by omega⟩
    have short : text.length ≤ fuel := by omega
    have head (place : Nat) (previous : Char) :=
      plain.head_written indent place previous (newLine column ++ rest)
    have startsText (place : Nat) (previous : Char) :
        StartsToken (writePlain indent place previous text ++ (newLine column ++ rest)) := by
      intro d mem
      rw [head] at mem
      obtain ⟨c, more, rfl, shown, space⟩ := plain.head
      obtain rfl := Option.some.inj mem
      exact ⟨shown, space, fun mark => comment (by rw [mark]; rfl)⟩
    rw [written, List.append_assoc]
    -- The spaces after the word stay, or one that stands alone becomes the end of a line.
    obtain ⟨reached', stays⟩ | ⟨rfl, turns⟩ := writePlain_spaces indent reached last n text
    · have ne : writePlain indent reached' ' ' text ++ (newLine column ++ rest) ≠ [] := by
        simp [newLine]
      rw [stays, List.append_assoc]
      exact readPlain_goes isWord rfl (plainGap_spaces n (startsText _ _) ne) (by simp)
        (by rwa [head]) rfl (ih _ _ _ _ short)
    · rw [turns, List.append_assoc]
      exact readPlain_goes isWord rfl
        (plainGap_newLine ⟨startsText _ _, atSeparator_indented (by omega) _⟩) (by simp)
        (by rwa [head]) (by simpa using right) (ih _ _ _ _ short)

/-- A word is read up to the colon after it. -/
theorem readPlain_name {name rest : List Char} (ne : name ≠ [])
    (shown : ∀ c ∈ name, IsShown c ∧ c ≠ ' ' ∧ c ≠ ':') (space : atSpace rest = true)
    (least fuel : Nat) (gap : List Char) (turned : Bool) :
    readPlain false least (fuel + 1) gap turned (name ++ ':' :: rest) =
      (gap ++ name, ':' :: rest, false) := by
  have stretch : plainStretch false (name ++ ':' :: rest) = name := by
    clear ne
    induction name with
    | nil => simp [plainStretch, space]
    | cons c name ih =>
      rw [List.forall_mem_cons] at shown
      obtain ⟨⟨shown, notSpace, colon⟩, later⟩ := shown
      simp [plainStretch, shown, notSpace, colon, ih later]
  simp [readPlain, stretch, ne, plainGap, isBreak]

end Custody.Yaml
