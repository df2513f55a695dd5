import Custody.Proofs.Yaml.Printing
import Custody.Proofs.Yaml.Settling
import Custody.Proofs.Yaml.SingleQuoted

/-!
# Steps of the scanner

One lemma for each kind of token that is written: where the scanner comes to its first character, it
tells the token and goes on. A dash opens a block sequence or goes on with it (`Comes.dash`); a name
and its colon are the key of a block mapping (`Comes.key`), and only at the colon are the tokens
told that belong before the name. Quoted and plain scalars (`Comes.quoted`, `Comes.plain`) and empty
flow collections (`Comes.brackets`) end their lines: each leaves a key pending, which the next line
gives up.
-/

namespace Custody.Yaml.Scanner

variable {s s' : Scanner} {c : Char} {rest : List Char}

/-! ## Which token comes next -/

/-- The dash of a block sequence. -/
theorem scanToken_dash (space : atSpace rest = true) : s.scanToken '-' rest = s.blockEntry := by
  simp [scanToken, startsWithMarker_dash space, startsWithMarker_of_ne, space]

/-- The colon of a mapping. -/
theorem scanToken_colon (space : atSpace rest = true) : s.scanToken ':' rest = s.value := by
  simp [scanToken, startsWithMarker_of_ne, space]

/-- An opening brace starts a flow mapping. -/
theorem scanToken_openBrace :
    s.scanToken '\x7b' rest = s.openFlow .flowMappingStart := by
  simp [scanToken, startsWithMarker_of_ne]

/-- A closing brace ends a flow mapping. -/
theorem scanToken_closeBrace :
    s.scanToken '\x7d' rest = s.closeFlow .flowMappingEnd := by
  simp [scanToken, startsWithMarker_of_ne]

/-- A quote. -/
theorem scanToken_single : s.scanToken '\'' rest = s.singleQuoted rest := by
  simp [scanToken, startsWithMarker_of_ne]

/-- A double quote. -/
theorem scanToken_double : s.scanToken '"' rest = s.doubleQuoted rest := by
  simp [scanToken, startsWithMarker_of_ne]

/-- A plain scalar, unless its first characters are a mark of a document. -/
theorem scanToken_plain (shown : IsShown c) (space : c ≠ ' ')
    (indicator : "#,[]\x7b\x7d&*!|>'\"%@\x60".toList.contains c = false)
    (inner : "?:-".toList.contains c = true → atSpace rest = false) (flow : s.inner = [])
    (marker : s.cursor.column = 0 → c ≠ '-' ∧ c ≠ '.') : s.scanToken c rest = s.plain := by
  have unmarked {mark : Char} (is_mark : mark = '-' ∨ mark = '.') :
      ¬(s.cursor.column = 0 ∧ startsWithMarker mark (c :: rest) = true) := by
    rintro ⟨start, marks⟩
    have ne : c ≠ mark := by
      obtain rfl | rfl := is_mark
      · exact (marker start).1
      · exact (marker start).2
    simp [startsWithMarker_of_ne ne] at marks
  have apart (mark : Char) (is_mark : "?:-".toList.contains mark = true) :
      ¬(c = mark ∧ atSpace rest = true) := by
    rintro ⟨rfl, space⟩
    simp [inner is_mark] at space
  have begins : startsPlain s.inFlow c rest = true := by
    rw [startsPlain]
    by_cases inside : "?:-".toList.contains c = true
    · have one : c = '-' ∨ c = '?' ∨ c = ':' := by
        have : c = '?' ∨ c = ':' ∨ c = '-' := by simpa using inside
        tauto
      simp [inner inside, one, inFlow, flow]
    · simp at indicator inside
      simp [shown, space, indicator, inside]
  simp at indicator
  have inFlow : s.inFlow = false := by simp [Scanner.inFlow, flow]
  rw [inFlow] at begins
  simp [scanToken, inFlow, indicator, begins, unmarked (.inl rfl), unmarked (.inr rfl),
    apart '-' (by decide), apart '?' (by decide), apart ':' (by decide)]

/-! ## Pending keys -/

/-- The key that may start at the scanner's place. -/
def keyHere (s : Scanner) : PendingKey where
  slot := s.slots
  required := s.indents.head? == some s.cursor.column
  index := s.cursor.index
  line := s.cursor.line
  column := s.cursor.column

/-- The scanner with the key that may start at its place pending. -/
def withKey (s : Scanner) : Scanner :=
  { s with
    outermost := some s.keyHere
    output := .slot s.slots :: s.output
    slots := s.slots + 1 }

section

variable {text : List Char} {column : Nat} {indents : List Nat} {allowKey : Bool}
  {told : List Token}

/-- Where a key may start, a place is left for it. -/
theorem At.savePending_eq (h : At s text column indents allowKey told) :
    s.savePending = .ok (if allowKey then s.withKey else s) := by
  obtain rfl := h.allowKey_eq
  cases allowed : s.allowKey with
  | false => simp [savePending, allowed]
  | true =>
    simp [savePending, allowed, dropPending, pending, h.inner_eq, h.outermost_eq, setPending,
      withKey, keyHere, inFlow, bind, Except.bind]

/-- A pending key that may start at a place which does not ask for one. -/
structure MayStart (c : Cursor) (key : PendingKey) : Prop where
  /-- The place does not ask for it. -/
  optional : key.required = false
  /-- It is on the line of the place. -/
  line_eq : key.line = c.line
  /-- It is at the place. -/
  index_eq : key.index = c.index

/-- A place that is left for a key tells nothing. A key that is pending then starts there, and is
asked for only in the column of the innermost block collection. -/
theorem At.save (h : At s text column indents allowKey told)
    (optional : allowKey = true → indents.head? ≠ some column) :
    ∃ s', s.savePending = .ok s' ∧ Told s' indents told ∧ s'.cursor = s.cursor ∧
      ∀ key ∈ s'.outermost, MayStart s.cursor key := by
  refine ⟨_, h.savePending_eq, ?_⟩
  split
  · next allowed =>
    refine ⟨h.toTold.slot.move s.cursor s.allowKey _, rfl, fun key mem => ?_⟩
    obtain rfl := Option.some.inj mem
    have unasked := optional allowed
    exact ⟨by simp [keyHere, h.indents_eq, h.column_eq, unasked], rfl, rfl⟩
  · exact ⟨h.toTold, rfl, fun key mem => by simp [h.outermost_eq] at mem⟩

/-- A scanner that tells a token of its place makes a step. -/
theorem Comes.step (comes : s.Comes (c :: rest) column indents allowKey told)
    {P : Scanner → Prop}
    (tells : ∀ s', At s' (c :: rest) column indents allowKey told →
      ∃ s'', s'.scanToken c rest = .ok s'' ∧ s''.cursor.rest.length ≤ rest.length ∧ P s'') :
    ∃ s'', s.Step s'' ∧ P s'' := by
  obtain ⟨s', settled, here, le⟩ := comes
  obtain ⟨s'', scan, shorter, holds⟩ := tells s' here
  refine ⟨s'', ⟨?_, ?_⟩, holds⟩
  · rw [next_eq settled here.rest_eq, scan]
    rfl
  · rw [List.length_cons] at le
    omega

/-! ## Block collections -/

/-- Whether a block collection that starts at a column lies within those that start at the given
ones. -/
def opensWithin (column : Nat) (indents : List Nat) : Bool :=
  indents.head?.all (· < column)

/-- Whether a block collection lies within the open ones. -/
theorem opens_eq (column : Nat) (s : Scanner) : s.opens column = opensWithin column s.indents := by
  unfold opens opensWithin
  split <;> simp_all

/-- The columns of the open block collections, with one that starts at a column. -/
def indentsWith (column : Nat) (indents : List Nat) : List Nat :=
  if opensWithin column indents then column :: indents else indents

/-- A block collection that is opened, if it lies within the open ones. -/
theorem At.openBlock (h : At s text column indents allowKey told) (t : Token) :
    At (s.openBlock t column) text column (indentsWith column indents) allowKey
      (told ++ if opensWithin column indents then [t] else []) := by
  rw [Scanner.openBlock, opens_eq, h.indents_eq, indentsWith]
  split
  · have emitted := h.toTold.emit t
    exact ⟨⟨rfl, emitted.tokens_eq, emitted.inner_eq, emitted.fresh.left,
      emitted.fresh.filled⟩, h.rest_eq, h.column_eq, h.allowKey_eq, h.outermost_eq⟩
  · rwa [List.append_nil]

/-- A token of one character. -/
theorem At.single (h : At s (c :: rest) column indents allowKey told) (shown : IsShown c)
    (t : Token) : At (s.single t) rest (column + 1) indents allowKey (told ++ [t]) := by
  have reached := Cursor.atRest_shown [c] h.rest_eq (by simpa using shown)
  have emitted := (h.toTold.emit t).move (s.cursor.atRest rest) s.allowKey s.outermost
  have moved : s.single t = { s.emit t with cursor := s.cursor.atRest rest } := by
    simp [Scanner.single, goto, h.rest_eq, Scanner.emit]
  rw [moved]
  exact ⟨emitted, by simp [reached], by simp [reached, h.column_eq], h.allowKey_eq,
    h.outermost_eq⟩

/-- A scanner that allows a key, or no longer does. -/
theorem At.allow (h : At s text column indents allowKey told) (allowKey' : Bool) :
    At { s with allowKey := allowKey' } text column indents allowKey' told :=
  ⟨h.toTold.move s.cursor allowKey' s.outermost, h.rest_eq, h.column_eq, rfl, h.outermost_eq⟩

/-- No key is given up where none is pending. -/
theorem At.dropPending_eq (h : At s text column indents allowKey told) :
    s.dropPending = .ok s := by
  obtain ⟨cursor, indents, inner, outermost, allowKey, output, slots, filled⟩ := s
  obtain rfl : inner = [] := h.inner_eq
  obtain rfl : outermost = none := h.outermost_eq
  rfl

/-- A dash that starts an item of a block sequence, and the sequence if it lies within the open
collections. -/
theorem Comes.dash (comes : s.Comes ('-' :: rest) column indents true told)
    (space : atSpace rest = true) :
    ∃ s', s.Step s' ∧ At s' rest (column + 1) (indentsWith column indents) true
      (told ++ (if opensWithin column indents then [.blockSequenceStart] else []) ++
        [.blockEntry]) := by
  refine comes.step fun s h => ?_
  have opened := h.openBlock .blockSequenceStart
  have inFlow : s.inFlow = false := by simp [Scanner.inFlow, h.inner_eq]
  have after := (opened.single (by decide) .blockEntry).allow true
  refine ⟨_, ?_, ?_, after⟩
  · rw [scanToken_dash space, blockEntry]
    simp [inFlow, h.allowKey_eq, h.column_eq, opened.dropPending_eq, bind, Except.bind]
  · exact Nat.le_of_eq (by rw [after.rest_eq])

/-- The scanner after a name that may be a key. -/
def named (name : List Char) (rest : List Char) (s : Scanner) : Scanner :=
  { s.withKey with allowKey := false }.emit (.scalar (.ofChars name) true) |>.goto (':' :: rest)

/-- A name before a colon is a plain scalar. -/
theorem At.plain_eq {name : List Char} (isName : IsFieldName name) (space : atSpace rest = true)
    (h : At s (name ++ ':' :: rest) column indents true told) :
    s.plain = .ok (s.named name rest) := by
  have read (least : Nat) := readPlain_name isName.ne_nil
    (fun c mem => ⟨(isName.char mem).1, (isName.char mem).2.1, (isName.char mem).2.2.1⟩) space
    least (name ++ ':' :: rest).length [] false
  have saved : s.savePending = .ok s.withKey := h.savePending_eq
  have inFlow : s.withKey.inFlow = false := by simp [Scanner.inFlow, withKey, h.inner_eq]
  rw [plain, saved, Outcome.ok_bind]
  have text : s.withKey.cursor.rest = name ++ ':' :: rest := h.rest_eq
  simp only [inFlow, text, read]
  rfl

/-- The place after a name. -/
theorem At.cursor_named {name : List Char} (isName : IsFieldName name)
    (h : At s (name ++ ':' :: rest) column indents true told) :
    (s.named name rest).cursor =
      ⟨':' :: rest, s.cursor.index + name.length, s.cursor.line, column + name.length⟩ := by
  rw [← h.column_eq]
  exact Cursor.atRest_shown name h.rest_eq fun c mem => (isName.char mem).1

/-- The scanner is at the colon once it has told a name before it. -/
theorem At.settle_named {name : List Char} (isName : IsFieldName name)
    (right : ∀ i ∈ indents.head?, i ≤ column)
    (h : At s (name ++ ':' :: rest) column indents true told) :
    (s.named name rest).settle = .ok (s.named name rest) := by
  have cursor := h.cursor_named isName
  have same : (s.named name rest).cursor.atRest (':' :: rest) = (s.named name rest).cursor := by
    rw [cursor]
    simp [Cursor.atRest, Cursor.advance]
  have told : Told (s.named name rest) indents (told ++ [.scalar (.ofChars name) true]) :=
    (h.toTold.slot.emit _).move _ _ _
  have skips : skipFiller false (s.named name rest).cursor.rest = (false, ':' :: rest) := by
    rw [cursor]
    rfl
  -- A name is on one line and short, so that it may still be a key.
  have stillOpen : isOpen (s.named name rest).cursor s.keyHere = true := by
    have := isName.short
    simp only [isOpen, cursor, keyHere, decide_eq_true_eq, true_and, Nat.add_sub_cancel_left]
    exact this
  have refreshed : refresh ((s.named name rest).cursor.atRest (':' :: rest))
      (s.named name rest).outermost = .ok (some s.keyHere) := by
    rw [same]
    exact if_pos stillOpen
  have settled := told.settle_eq (by rw [cursor]; simp [byteOrderMark]) skips refreshed
  rw [settled, same, unwind_eq_self]
  · rfl
  · intro i mem
    have : i ≤ column := right i (by rw [← h.indents_eq]; exact mem)
    rw [cursor]
    exact Nat.le_trans this (Nat.le_add_right _ _)

/-- The tokens of a slot that a colon has filled. -/
def keyTokens (opening : Bool) : List Token :=
  if opening then [.blockMappingStart, .key] else [.key]

/-- A colon fills the slot that was left last, and changes nothing before it. -/
theorem Told.filled (h : Told s indents told) (t : Token) (opening : Bool) (indents' : List Nat)
    (cursor : Cursor) (allowKey' : Bool) :
    Told { s with
      cursor
      indents := indents'
      outermost := none
      allowKey := allowKey'
      output := .token t :: .slot s.slots :: s.output
      slots := s.slots + 1
      filled := (s.slots, opening) :: s.filled } indents' (told ++ keyTokens opening ++ [t]) where
  indents_eq := rfl
  tokens_eq := by
    -- The slots that were left before have other numbers, so that they are filled as they were.
    have same : s.output.reverse.flatMap (fill ((s.slots, opening) :: s.filled)) = told := by
      rw [← h.tokens_eq, Scanner.tokens]
      refine List.flatMap_congr fun lexeme mem => ?_
      cases lexeme with
      | token => rfl
      | slot n =>
        have : n < s.slots := h.fresh.left n (by simpa using mem)
        have ne : (n == s.slots) = false := by simpa using Nat.ne_of_lt this
        simp only [fill, List.lookup_cons, ne]
    simp only [Scanner.tokens, List.reverse_cons, List.flatMap_append, same, List.append_assoc]
    cases opening <;> simp [fill, keyTokens]
  inner_eq := h.inner_eq
  fresh := by
    refine ⟨fun n mem => ?_, fun n filled => ?_⟩
    · simp only [List.mem_cons, Lexeme.slot.injEq, reduceCtorEq, false_or] at mem
      obtain rfl | mem := mem
      · exact Nat.lt_succ_self _
      · exact Nat.lt_succ_of_lt (h.fresh.left n mem)
    · by_cases here : n = s.slots
      · rw [here]
        exact Nat.lt_succ_self _
      · have ne : (n == s.slots) = false := by simpa using here
        simp only [List.lookup_cons, ne] at filled
        exact Nat.lt_succ_of_lt (h.fresh.filled n filled)

/-- A colon after a name. -/
theorem At.value_named {name : List Char} (isName : IsFieldName name)
    (h : At s (name ++ ':' :: rest) column indents true told) :
    ∃ s', (s.named name rest).value = .ok s' ∧
      At s' rest (column + name.length + 1) (indentsWith column indents) false
        (told ++ keyTokens (opensWithin column indents) ++ [.scalar (.ofChars name) true] ++
          [.value]) := by
  have cursor := h.cursor_named isName
  have filled := h.toTold.filled (.scalar (.ofChars name) true) (opensWithin column indents)
    (indentsWith column indents) (s.named name rest).cursor false
  have colon : At _ (':' :: rest) (column + name.length) (indentsWith column indents) false
      (told ++ keyTokens (opensWithin column indents) ++ [.scalar (.ofChars name) true]) :=
    ⟨filled, by rw [cursor], by rw [cursor], rfl, rfl⟩
  refine ⟨_, ?_, colon.single (by decide) .value⟩
  have pending : (s.named name rest).pending = some s.keyHere := by
    simp [Scanner.pending, named, goto, emit, withKey, h.inner_eq]
  have opening : (!(s.named name rest).inFlow &&
      (s.named name rest).opens s.keyHere.column) = opensWithin column indents := by
    have inner : (s.named name rest).inner = [] := h.inner_eq
    have same : (s.named name rest).indents = s.indents := rfl
    simp [opens_eq, inFlow, inner, same, h.indents_eq, keyHere, h.column_eq]
  have unset : (s.named name rest).setPending none =
      { s.named name rest with outermost := none } := by
    simp [setPending, named, goto, emit, withKey, h.inner_eq]
  obtain rfl := h.indents_eq
  obtain rfl := h.column_eq
  rw [value, pending]
  simp only [opening, unset]
  rfl

/-- A name and a colon that start an entry of a block mapping, and the mapping if it lies within the
open collections. -/
theorem Comes.key {name : List Char} (isName : IsFieldName name)
    (comes : s.Comes (name ++ ':' :: rest) column indents true told) (space : atSpace rest = true)
    (right : ∀ i ∈ indents.head?, i ≤ column) :
    ∃ s', s.Leads s' ∧ At s' rest (column + name.length + 1) (indentsWith column indents) false
      (told ++ keyTokens (opensWithin column indents) ++ [.scalar (.ofChars name) true] ++
        [.value]) := by
  -- Two steps: the name is told as a scalar that may be a key, and the colon makes it one.
  obtain ⟨c, more, rfl⟩ := List.exists_cons_of_ne_nil isName.ne_nil
  obtain ⟨shown, notSpace, -, indicator, inner, dash, dot⟩ := isName.char (List.mem_cons_self ..)
  obtain ⟨s', step, s, rfl, h⟩ := comes.step (P := fun s' => ∃ s, s' = s.named (c :: more) rest ∧
      At s (c :: more ++ ':' :: rest) column indents true told) fun s h => by
    refine ⟨s.named (c :: more) rest, ?_, ?_, s, rfl, h⟩
    · rw [scanToken_plain shown notSpace indicator
        (fun marked => Bool.noConfusion (inner.symm.trans marked)) h.inner_eq
        fun _ => ⟨dash, dot⟩, h.plain_eq isName space]
    · rw [h.cursor_named isName]
      simp
  obtain ⟨s', value, after⟩ := h.value_named isName
  refine ⟨s', .tail (.single step) ⟨?_, ?_⟩, after⟩
  · rw [next_eq (h.settle_named isName right) (by rw [h.cursor_named isName]),
      scanToken_colon space, value]
    rfl
  · rw [after.rest_eq, h.cursor_named isName]
    simp

/-- A scalar in quotes at the end of a line. -/
theorem Comes.quoted {quoted : List Char} {next : Nat} {t : Token}
    (comes : s.Comes (c :: (quoted ++ (newLine next ++ rest))) column indents allowKey told)
    (optional : allowKey = true → indents.head? ≠ some column) (starts : StartsToken rest)
    (scan : ∀ s : Scanner, s.scanToken c (quoted ++ (newLine next ++ rest)) =
      s.node (some (t, newLine next ++ rest))) :
    ∃ s', s.Step s' ∧ s'.Comes rest next (indents.dropWhile (next < ·)) true
      (told ++ [t] ++ ends next indents) := by
  refine comes.step fun s h => ?_
  obtain ⟨s', save, saved, cursor, old⟩ := h.save optional
  have eq : s.cursor.rest = (c :: quoted) ++ (newLine next ++ rest) := h.rest_eq
  have left := Cursor.rest_atRest eq
  have later : s.cursor.line ≤ (s.cursor.atRest (newLine next ++ rest)).line :=
    Cursor.line_le_advance _ _
  have emitted := (saved.move (s.cursor.atRest (newLine next ++ rest)) false s'.outermost).emit t
  rw [scan, node]
  simp only [save, Outcome.ok_bind, goto, Scanner.emit, cursor]
  refine ⟨_, rfl, ?_, emitted.comes_line left starts fun key mem => ?_⟩
  · simp [left]
  · exact ⟨(old key mem).optional, (old key mem).line_eq ▸ later⟩

/-- A plain scalar at the end of a line. -/
theorem Comes.plain {more content : List Char} {next i : Nat} {outer : List Nat}
    (start : List Char) (comes : s.Comes (c :: more) column (i :: outer) allowKey told)
    (eq : c :: more = start ++ (newLine next ++ rest)) (optional : allowKey = true → i ≠ column)
    (starts : StartsToken rest)
    (scan : ∀ s : Scanner, s.inner = [] → s.cursor.column = column →
      s.scanToken c more = s.plain)
    (read : readPlain false (i + 1) ((c :: more).length + 1) [] false (c :: more) =
      (content, rest, true)) :
    ∃ s', s.Step s' ∧ s'.Comes rest next ((i :: outer).dropWhile (next < ·)) true
      (told ++ [.scalar (.ofChars content) true] ++ ends next (i :: outer)) := by
  refine comes.step fun s h => ?_
  obtain ⟨s', save, saved, cursor, old⟩ := h.save fun allowed same =>
    optional allowed (Option.some.inj same)
  obtain ⟨left, reached, later⟩ := Cursor.atRest_newLine start (h.rest_eq.trans eq)
  have emitted := (saved.move (s.cursor.atRest rest) true s'.outermost).emit
    (.scalar (.ofChars content) true)
  -- The scalar was read up to the next token, over the line end.
  have comes := emitted.comes_reached left reached starts fun key mem =>
    ⟨(old key mem).optional, (old key mem).line_eq ▸ later⟩
  have inFlow : s'.inFlow = false := by simp [Scanner.inFlow, saved.inner_eq]
  refine ⟨_, ?_, ?_, comes⟩
  · rw [scan s h.inner_eq h.column_eq, Scanner.plain, save, Outcome.ok_bind]
    simp only [inFlow, saved.indents_eq, cursor, h.rest_eq, read, goto, Scanner.emit]
  · have := congrArg List.length eq
    simp only [Scanner.emit, left, newLine, List.length_cons, List.length_append] at this ⊢
    omega

/-! ## Empty collections -/

/-- The scanner after the opening bracket of a flow collection. -/
def bracketed (t : Token) (s : Scanner) : Scanner :=
  { s.single t with inner := none :: s.inner, allowKey := true }

/-- The place after an opening bracket. -/
theorem cursor_bracketed (text_eq : s.cursor.rest = c :: rest) (shown : IsShown c) (t : Token) :
    (s.bracketed t).cursor = ⟨rest, s.cursor.index + 1, s.cursor.line, s.cursor.column + 1⟩ := by
  have reached := Cursor.atRest_shown [c] text_eq (by simpa using shown)
  simpa [bracketed, single, goto, emit, text_eq] using reached

/-- The scanner is at the closing bracket that comes right after the opening one. -/
theorem settle_bracketed (text_eq : s.cursor.rest = c :: rest) (inner : s.inner = [])
    (shown : IsShown c) (starts : StartsToken rest)
    (here : ∀ key ∈ s.outermost, MayStart s.cursor key) (t : Token) :
    (s.bracketed t).settle = .ok (s.bracketed t) := by
  have cursor := cursor_bracketed text_eq shown t
  have same : (s.bracketed t).cursor.atRest rest = (s.bracketed t).cursor := by
    rw [cursor]
    simp [Cursor.atRest, Cursor.advance]
  have mark : (rest.head? == some byteOrderMark) = false := by
    rw [beq_eq_false_iff_ne]
    exact fun eq => (starts _ eq).1.ne (by decide) rfl
  have inFlow : (s.bracketed t).inFlow = true := rfl
  have skips : skipFiller false (s.bracketed t).cursor.rest = (false, rest) := by
    rw [cursor, skipFiller_start starts]
  have skipped : (s.bracketed t).toNextToken = s.bracketed t := by
    have mark' : ((s.bracketed t).cursor.rest.head? == some byteOrderMark) = false := by
      rwa [cursor]
    simp only [toNextToken, mark', Bool.and_false, Bool.false_eq_true, if_false, skips, goto, same,
      Bool.false_and]
  have refreshed : refresh (s.bracketed t).cursor s.outermost = .ok s.outermost := by
    cases pending : s.outermost with
    | none => rfl
    | some key =>
      have key_here := here key pending
      have stillOpen : isOpen (s.bracketed t).cursor key = true := by
        simp [isOpen, cursor, key_here.line_eq, key_here.index_eq, longestKey]
      exact if_pos stillOpen
  have inner : (s.bracketed t).inner = [none] := by rw [bracketed, inner]
  have outermost : (s.bracketed t).outermost = s.outermost := rfl
  have refreshedAll : (s.bracketed t).refreshPending = .ok (s.bracketed t) := by
    have none_open : [none].mapM (refresh (s.bracketed t).cursor) = .ok [none] := rfl
    rw [refreshPending, inner, none_open, Outcome.ok_bind, outermost, refreshed, Outcome.ok_bind,
      ← inner, ← outermost]
  rw [settle, skipped, refreshedAll, Outcome.map_ok, unwind, if_pos inFlow]

/-- The closing bracket of a flow collection that is not within another. -/
theorem Told.closeFlow_bracketed (h : Told s indents told) (start stop : Token) :
    (s.bracketed start).closeFlow stop = .ok
      { (s.emit start).emit stop with
        cursor := (s.bracketed start).cursor.atRest ((s.bracketed start).cursor.rest.drop 1)
        allowKey := false } := by
  have dropped : (s.bracketed start).dropPending = .ok (s.bracketed start) := by
    simp [dropPending, pending, setPending, bracketed]
  rw [closeFlow, dropped, Outcome.ok_bind]
  simp [bracketed, single, goto, Scanner.emit, h.inner_eq]

/-- An empty flow collection at the end of a line. -/
theorem Comes.brackets {a b : Char} {next : Nat} {start stop : Token}
    (comes : s.Comes (a :: b :: (newLine next ++ rest)) column indents allowKey told)
    (optional : allowKey = true → indents.head? ≠ some column) (starts : StartsToken rest)
    (shown : IsShown a) (bracket : StartsToken (b :: (newLine next ++ rest)))
    (opens : ∀ s : Scanner, s.scanToken a (b :: (newLine next ++ rest)) = s.openFlow start)
    (closes : ∀ s : Scanner, s.scanToken b (newLine next ++ rest) = s.closeFlow stop) :
    ∃ s', s.Leads s' ∧ s'.Comes rest next (indents.dropWhile (next < ·)) true
      (told ++ [start] ++ [stop] ++ ends next indents) := by
  obtain ⟨s₁, opening, s, saved, text_eq, old, rfl⟩ := comes.step (P := fun s' => ∃ s : Scanner,
      Told s indents told ∧ s.cursor.rest = a :: b :: (newLine next ++ rest) ∧
      (∀ key ∈ s.outermost, MayStart s.cursor key) ∧ s' = s.bracketed start) fun s h => by
    obtain ⟨s', save, saved, cursor, old⟩ := h.save optional
    have text_eq : s'.cursor.rest = a :: b :: (newLine next ++ rest) := by rw [cursor, h.rest_eq]
    refine ⟨s'.bracketed start, ?_, ?_, s', saved, text_eq, by rwa [cursor], rfl⟩
    · rw [opens, openFlow, save]
      rfl
    · exact Nat.le_of_eq (by rw [cursor_bracketed text_eq shown])
  have cursor := cursor_bracketed text_eq shown start
  have text_eq' : (s.bracketed start).cursor.rest = b :: (newLine next ++ rest) := by rw [cursor]
  have left : (s.bracketed start).cursor.atRest (newLine next ++ rest) =
      ⟨newLine next ++ rest, (s.bracketed start).cursor.index + 1, (s.bracketed start).cursor.line,
        (s.bracketed start).cursor.column + 1⟩ :=
    Cursor.atRest_shown [b] text_eq' (by simpa using (bracket b rfl).1)
  have closed := saved.closeFlow_bracketed start stop
  rw [text_eq', List.drop_one, List.tail_cons] at closed
  have told := ((saved.emit start).emit stop).move
    ((s.bracketed start).cursor.atRest (newLine next ++ rest)) false s.outermost
  refine ⟨_, .tail (.single opening) ⟨?_, ?_⟩, told.comes_line (by rw [left]) starts ?_⟩
  · rw [next_eq (settle_bracketed text_eq saved.inner_eq shown bracket old start) text_eq', closes,
      closed]
    rfl
  · rw [text_eq', left]
    simp
  · intro key mem
    exact ⟨(old key mem).optional, Nat.le_of_eq (by rw [left, cursor, (old key mem).line_eq])⟩

end

end Custody.Yaml.Scanner
