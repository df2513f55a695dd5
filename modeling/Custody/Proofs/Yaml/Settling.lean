import Mathlib.Logic.Relation
import Custody.Proofs.Yaml.Plain
import Custody.Yaml.Token

/-!
# From one token to the next

A scanner that has just told a token goes on to the next one: over spaces and line ends, giving up
a key that did not come about, and closing the block collections that the next token stands to the
left of. `Scanner.At` is what is known of a scanner between tokens, and `Scanner.Comes` that it goes
on to a place of which the same is known. There are two ways that matter for what is written: over
spaces (`At.comes`), and to the next line (`Told.comes_line`, or `Told.comes_reached` where the
token before has taken the line end already).

`Scanner.Leads` is a run of the scanner over some tokens, and `Scanner.run_of_leads` that the tokens
of a text are those of a run to its end.
-/

namespace Custody.Yaml

namespace Cursor

/-- Going on is going on twice. -/
theorem advance_add (m n : Nat) (c : Cursor) : c.advance (m + n) = (c.advance m).advance n := by
  induction m generalizing c with
  | zero => rw [Nat.zero_add, advance]
  | succ m ih => rw [Nat.succ_add, advance, advance, ih]

/-- What is left after the first characters. -/
@[simp] theorem rest_advance (n : Nat) (c : Cursor) : (c.advance n).rest = c.rest.drop n := by
  induction n generalizing c with
  | zero => rfl
  | succ n ih =>
    rw [advance, ih]
    obtain ⟨rest, index, line, column⟩ := c
    cases rest with
    | nil => simp [next]
    | cons a rest => simp only [next]; split <;> rfl

/-- No line comes before. -/
theorem line_le_advance (n : Nat) (c : Cursor) : c.line ≤ (c.advance n).line := by
  induction n generalizing c with
  | zero => exact Nat.le_refl _
  | succ n ih =>
    refine Nat.le_trans ?_ (ih c.next)
    obtain ⟨rest, index, line, column⟩ := c
    cases rest with
    | nil => exact Nat.le_refl _
    | cons a rest => simp only [next]; split <;> simp

/-- The place after some printable characters. -/
theorem advance_shown {shown rest : List Char} (all : ∀ c ∈ shown, IsShown c)
    (index line column : Nat) :
    (Cursor.mk (shown ++ rest) index line column).advance shown.length =
      ⟨rest, index + shown.length, line, column + shown.length⟩ := by
  induction shown generalizing index column with
  | nil => rfl
  | cons c shown ih =>
    rw [List.forall_mem_cons] at all
    have mark : c ≠ byteOrderMark := all.1.ne (by decide)
    have := ih all.2 (index + 1) (column + 1)
    simp only [List.length_cons, advance, next, List.cons_append, all.1.isBreak_eq, beq_iff_eq,
      mark, if_false, this, Bool.false_eq_true]
    congr 1 <;> omega

/-- The place where a rest of the text starts is that after what is before it. -/
theorem atRest_eq_advance {c : Cursor} {start rest : List Char} (eq : c.rest = start ++ rest) :
    c.atRest rest = c.advance start.length := by
  rw [atRest, eq, List.length_append, Nat.add_sub_cancel]

/-- What is left from the place on where a rest of the text starts. -/
theorem rest_atRest {c : Cursor} {start rest : List Char} (eq : c.rest = start ++ rest) :
    (c.atRest rest).rest = rest := by
  rw [atRest_eq_advance eq, rest_advance, eq, List.drop_left]

/-- The place after some printable characters. -/
theorem atRest_shown {c : Cursor} (shown : List Char) {rest : List Char}
    (eq : c.rest = shown ++ rest) (all : ∀ c ∈ shown, IsShown c) :
    c.atRest rest = ⟨rest, c.index + shown.length, c.line, c.column + shown.length⟩ := by
  rw [atRest_eq_advance eq]
  obtain ⟨_, index, line, column⟩ := c
  subst eq
  exact advance_shown all index line column

/-- The place after a line end and some spaces. -/
theorem atRest_newLine {c : Cursor} (start : List Char) {rest : List Char} {column : Nat}
    (eq : c.rest = start ++ (newLine column ++ rest)) :
    (c.atRest rest).rest = rest ∧ (c.atRest rest).column = column ∧
      c.line < (c.atRest rest).line := by
  have spaces := isShown_spaces column
  have split : c.atRest rest =
      ((c.advance start.length).next).advance (List.replicate column ' ').length := by
    have whole : c.rest = (start ++ newLine column) ++ rest := by rw [eq, List.append_assoc]
    rw [atRest_eq_advance whole, List.length_append, advance_add, newLine, List.length_cons,
      advance]
  have reached := rest_advance start.length c
  rw [eq, List.drop_left] at reached
  have later := line_le_advance start.length c
  generalize c.advance start.length = d at split reached later
  obtain ⟨_, index, line, place⟩ := d
  subst reached
  simp only [newLine, List.cons_append, next, isBreak, beq_self_eq_true, Bool.true_or,
    if_true, advance_shown spaces] at split
  rw [split]
  exact ⟨rfl, by simp, Nat.lt_succ_of_le later⟩

end Cursor

/-! ## Tokens told -/

namespace Scanner

variable {s s' : Scanner}

/-- The slots left so far have lower numbers than all later ones. -/
structure Fresh (s : Scanner) : Prop where
  /-- Those that were left. -/
  left : ∀ n, Lexeme.slot n ∈ s.output → n < s.slots
  /-- Those that were filled. -/
  filled : ∀ n, (s.filled.lookup n).isSome → n < s.slots

/-- What is known of a scanner outside of flow collections that has told some tokens, wherever it
is. -/
structure Told (s : Scanner) (indents : List Nat) (told : List Token) : Prop where
  /-- The columns of the open block collections. -/
  indents_eq : s.indents = indents
  /-- The tokens told. -/
  tokens_eq : s.tokens = told
  /-- No flow collection is open. -/
  inner_eq : s.inner = []
  /-- New slots have numbers of their own. -/
  fresh : s.Fresh

/-- What is known of a scanner at a place where no key is pending. -/
structure At (s : Scanner) (rest : List Char) (column : Nat) (indents : List Nat)
    (allowKey : Bool) (told : List Token) : Prop extends Told s indents told where
  /-- What is left of the text. -/
  rest_eq : s.cursor.rest = rest
  /-- The column. -/
  column_eq : s.cursor.column = column
  /-- Whether a key may start. -/
  allowKey_eq : s.allowKey = allowKey
  /-- No key is pending. -/
  outermost_eq : s.outermost = none

/-- Closing block collections changes nothing else. -/
theorem closeBlocks_eq (n : Nat) (s : Scanner) :
    s.closeBlocks n = { s with
      output := List.replicate n (.token .blockEnd) ++ s.output
      indents := s.indents.drop n } := by
  induction n generalizing s with
  | zero => rfl
  | succ n ih =>
    rw [closeBlocks, ih]
    simp [emit, List.replicate_succ']

namespace Told

variable {indents : List Nat} {told : List Token}

/-- What was told does not depend on the place. -/
theorem move (h : Told s indents told) (cursor : Cursor) (allowKey : Bool)
    (outermost : Option PendingKey) :
    Told { s with cursor, allowKey, outermost } indents told :=
  ⟨h.indents_eq, h.tokens_eq, h.inner_eq, h.fresh.left, h.fresh.filled⟩

/-- Some tokens more. -/
theorem emits (h : Told s indents told) (tokens : List Token) :
    Told { s with output := (tokens.map .token).reverse ++ s.output } indents (told ++ tokens) where
  indents_eq := h.indents_eq
  tokens_eq := by
    have same : (tokens.map Lexeme.token).flatMap (fill s.filled) = tokens := by
      simp [List.flatMap_map, fill]
    simp only [Scanner.tokens, List.reverse_append, List.reverse_reverse, List.flatMap_append,
      same, ← h.tokens_eq]
  inner_eq := h.inner_eq
  fresh := ⟨fun n mem => h.fresh.left n (by simpa using mem), h.fresh.filled⟩

/-- One token more. -/
theorem emit (h : Told s indents told) (t : Token) : Told (s.emit t) indents (told ++ [t]) :=
  h.emits [t]

/-- A slot that nothing has filled stands for no token. -/
theorem slot (h : Told s indents told) :
    Told { s with output := .slot s.slots :: s.output, slots := s.slots + 1 } indents told where
  indents_eq := h.indents_eq
  tokens_eq := by
    have unfilled : s.filled.lookup s.slots = none := by
      by_contra filled
      have := h.fresh.filled s.slots (Option.isSome_iff_ne_none.2 filled)
      omega
    simp [Scanner.tokens, fill, unfilled, ← h.tokens_eq]
  inner_eq := h.inner_eq
  fresh := by
    refine ⟨fun n mem => ?_, fun n filled => ?_⟩
    · obtain eq | mem := List.mem_cons.1 mem
      · obtain rfl := Lexeme.slot.inj eq
        exact Nat.lt_succ_self _
      · exact Nat.lt_succ_of_lt (h.fresh.left n mem)
    · exact Nat.lt_succ_of_lt (h.fresh.filled n filled)

/-- Closing block collections tells so many ends. -/
theorem closeBlocks (h : Told s indents told) (n : Nat) :
    Told (s.closeBlocks n) (indents.drop n) (told ++ List.replicate n .blockEnd) := by
  have emitted := h.emits (List.replicate n .blockEnd)
  rw [List.map_replicate, List.reverse_replicate] at emitted
  rw [closeBlocks_eq]
  exact ⟨by rw [h.indents_eq], emitted.tokens_eq, emitted.inner_eq, emitted.fresh.left,
    emitted.fresh.filled⟩

end Told

/-- The scanner at the next token. -/
def settle (s : Scanner) : Except Fault Scanner :=
  s.toNextToken.refreshPending.map fun s => s.unwind s.cursor.column

/-- The scanner goes on to a place. -/
def Comes (s : Scanner) (rest : List Char) (column : Nat) (indents : List Nat) (allowKey : Bool)
    (told : List Token) : Prop :=
  ∃ s', s.settle = .ok s' ∧ At s' rest column indents allowKey told ∧
    rest.length ≤ s.cursor.rest.length

/-- What is left of a list after its first elements of a kind. -/
theorem drop_takeWhile {α : Type} (p : α → Bool) (as : List α) :
    as.drop (as.takeWhile p).length = as.dropWhile p := by
  calc as.drop (as.takeWhile p).length
      = (as.takeWhile p ++ as.dropWhile p).drop (as.takeWhile p).length := by
        rw [List.takeWhile_append_dropWhile]
    _ = as.dropWhile p := List.drop_left

/-- The ends of the block collections that start after a column. -/
def ends (column : Nat) (indents : List Nat) : List Token :=
  List.replicate (indents.takeWhile (column < ·)).length .blockEnd

/-- The scanner at the next token, given what is skipped before it and what becomes of the pending
key there. -/
theorem Told.settle_eq {indents : List Nat} {told : List Token} {turned : Bool} {rest : List Char}
    {key : Option PendingKey} (h : Told s indents told)
    (mark : s.cursor.rest.head? ≠ some byteOrderMark)
    (skips : skipFiller false s.cursor.rest = (turned, rest))
    (refreshed : refresh (s.cursor.atRest rest) s.outermost = .ok key) :
    s.settle = .ok
      ({ s with
        cursor := s.cursor.atRest rest
        allowKey := turned || s.allowKey
        outermost := key }.unwind (s.cursor.atRest rest).column) := by
  have skipped : s.toNextToken =
      { s with cursor := s.cursor.atRest rest, allowKey := turned || s.allowKey } := by
    have mark : (s.cursor.rest.head? == some byteOrderMark) = false := by simpa using mark
    cases turned <;> simp [toNextToken, mark, skips, goto, inFlow, h.inner_eq]
  simp only [settle, skipped, refreshPending, h.inner_eq, refreshed]
  rfl

/-- The scanner goes on to what follows spaces and line ends. -/
theorem Told.comes {indents : List Nat} {told : List Token} {turned : Bool} {rest : List Char}
    (h : Told s indents told) (mark : s.cursor.rest.head? ≠ some byteOrderMark)
    (skips : skipFiller false s.cursor.rest = (turned, rest))
    (left : (s.cursor.atRest rest).rest = rest)
    (given_up : refresh (s.cursor.atRest rest) s.outermost = .ok none) :
    s.Comes rest (s.cursor.atRest rest).column
      (indents.dropWhile ((s.cursor.atRest rest).column < ·)) (turned || s.allowKey)
      (told ++ ends (s.cursor.atRest rest).column indents) := by
  have settled := h.settle_eq mark skips given_up
  obtain rfl := h.indents_eq
  have shorter : rest.length ≤ s.cursor.rest.length := by
    rw [← left, Cursor.atRest, Cursor.rest_advance, List.length_drop]
    exact Nat.sub_le _ _
  generalize s.cursor.atRest rest = cursor at left settled ⊢
  have moved := h.move cursor (turned || s.allowKey) none
  have closed := moved.closeBlocks (s.indents.takeWhile (cursor.column < ·)).length
  refine ⟨_, settled, ?_, shorter⟩
  rw [unwind, if_neg (by simp [inFlow, h.inner_eq])]
  rw [drop_takeWhile] at closed
  rw [closeBlocks_eq] at closed ⊢
  exact ⟨closed, left, rfl, rfl, rfl⟩

/-- A pending key is given up on a later line, if its place does not ask for one. -/
theorem refresh_eq_none {c : Cursor} {pending : Option PendingKey}
    (later : ∀ key ∈ pending, key.required = false ∧ key.line < c.line) :
    refresh c pending = .ok none := by
  cases pending with
  | none => rfl
  | some key =>
    obtain ⟨optional, line⟩ := later key rfl
    have closed : isOpen c key = false := by
      simp only [isOpen, decide_eq_false_iff_not, not_and]
      omega
    simp [refresh, closed, optional]

/-- No block collection starts after a column that is not left of the innermost. -/
theorem later_eq_nil {column : Nat} {indents : List Nat} (right : ∀ i ∈ indents.head?, i ≤ column) :
    indents.takeWhile (column < ·) = [] ∧ indents.dropWhile (column < ·) = indents := by
  cases indents with
  | nil => exact ⟨rfl, rfl⟩
  | cons i outer =>
    have := right i rfl
    simp [Nat.not_lt.2 this]

/-- No block collection ends at a token that is to the right of the innermost. -/
theorem ends_eq_nil {column : Nat} {indents : List Nat} (right : ∀ i ∈ indents.head?, i ≤ column) :
    ends column indents = [] := by
  rw [ends, (later_eq_nil right).1]
  rfl

/-- No block collection is closed at a token that is to the right of the innermost. -/
theorem unwind_eq_self {column : Nat} (right : ∀ i ∈ s.indents.head?, i ≤ column) :
    s.unwind column = s := by
  rw [unwind, (later_eq_nil right).1]
  split <;> rfl

/-- Nothing is skipped before a token. -/
theorem skipFiller_start {rest : List Char} (starts : StartsToken rest) :
    skipFiller false rest = (false, rest) := by
  cases rest with
  | nil => rfl
  | cons c rest =>
    obtain ⟨shown, space, comment⟩ := starts c rfl
    simp [skipFiller, shown, space, comment]

/-- Spaces before a token are skipped. -/
theorem skipFiller_spaces (n : Nat) {rest : List Char} (starts : StartsToken rest) :
    skipFiller false (List.replicate n ' ' ++ rest) = (false, rest) := by
  induction n with
  | zero => exact skipFiller_start starts
  | succ n ih => simpa [List.replicate_succ, skipFiller, isBreak] using ih

section

variable {rest : List Char} {column : Nat} {indents : List Nat} {allowKey : Bool}
  {told : List Token}

/-- The scanner goes on to a token after some spaces. -/
theorem At.comes (n : Nat) (h : At s (List.replicate n ' ' ++ rest) column indents allowKey told)
    (starts : StartsToken rest) (right : ∀ i ∈ indents.head?, i ≤ column + n) :
    s.Comes rest (column + n) indents allowKey told := by
  have mark : s.cursor.rest.head? ≠ some byteOrderMark := by
    rw [h.rest_eq]
    cases n with
    | zero => exact fun eq => (starts _ eq).1.ne (by decide) rfl
    | succ n => simp [List.replicate_succ, byteOrderMark]
  have skips : skipFiller false s.cursor.rest = (false, rest) := by
    rw [h.rest_eq, skipFiller_spaces n starts]
  have reached := Cursor.atRest_shown _ h.rest_eq (isShown_spaces n)
  have comes := h.toTold.comes mark skips (by rw [reached]) (by rw [h.outermost_eq]; rfl)
  simp only [reached, List.length_replicate, h.column_eq, ends_eq_nil right,
    (later_eq_nil right).2, List.append_nil, Bool.false_or, h.allowKey_eq] at comes
  exact comes

/-- The scanner goes on to a token that is there already, on a later line than a key that did not
come about. -/
theorem Told.comes_reached (h : Told s indents told) (rest_eq : s.cursor.rest = rest)
    (column_eq : s.cursor.column = column) (starts : StartsToken rest)
    (old : ∀ key ∈ s.outermost, key.required = false ∧ key.line < s.cursor.line) :
    s.Comes rest column (indents.dropWhile (column < ·)) s.allowKey
      (told ++ ends column indents) := by
  subst rest_eq column_eq
  have same : s.cursor.atRest s.cursor.rest = s.cursor := by
    simp [Cursor.atRest, Cursor.advance]
  have mark : s.cursor.rest.head? ≠ some byteOrderMark :=
    fun eq => (starts _ eq).1.ne (by decide) rfl
  have comes := h.comes mark (skipFiller_start starts) (by rw [same])
    (by rw [same]; exact refresh_eq_none old)
  rw [same] at comes
  exact comes

/-- The scanner goes on to the next line, and gives up a key that did not come about. -/
theorem Told.comes_line {next : Nat} (h : Told s indents told)
    (eq : s.cursor.rest = newLine next ++ rest) (starts : StartsToken rest)
    (old : ∀ key ∈ s.outermost, key.required = false ∧ key.line ≤ s.cursor.line) :
    s.Comes rest next (indents.dropWhile (next < ·)) true (told ++ ends next indents) := by
  obtain ⟨left, column, line⟩ := Cursor.atRest_newLine [] eq
  have mark : s.cursor.rest.head? ≠ some byteOrderMark := by simp [eq, newLine, byteOrderMark]
  have skips : skipFiller false s.cursor.rest = (true, rest) := by
    rw [eq, newLine, List.cons_append, skipFiller, if_pos (by rfl), skipFiller_spaces _ starts]
  have given_up : refresh (s.cursor.atRest rest) s.outermost = .ok none :=
    refresh_eq_none fun key mem => ⟨(old key mem).1, Nat.lt_of_le_of_lt (old key mem).2 line⟩
  have comes := h.comes mark skips left given_up
  rw [column] at comes
  exact comes

end

/-- A token that can be told at the next place is the next token. -/
theorem next_eq {c : Char} {rest : List Char} (settled : s.settle = .ok s')
    (starts : s'.cursor.rest = c :: rest) :
    s.next = (s'.scanToken c rest).map fun s => (s, false) := by
  rw [settle, Outcome.map_eq_ok] at settled
  obtain ⟨refreshed, refresh, rfl⟩ := settled
  rw [next, refresh, Outcome.ok_bind]
  simp only [starts]
  rfl

/-! ## Runs -/

/-- A step of the scanner over a token. -/
def Step (s s' : Scanner) : Prop :=
  s.next = .ok (s', false) ∧ s'.cursor.rest.length < s.cursor.rest.length

/-- A run of the scanner over some tokens. -/
def Leads : Scanner → Scanner → Prop :=
  Relation.ReflTransGen Step

/-- The tokens of a text are those of a run to its end. -/
theorem run_of_leads {last : Scanner} (leads : Leads s s') (ends : s'.next = .ok (last, true))
    {fuel : Nat} (enough : s.cursor.rest.length < fuel) : run fuel s = last.tokens := by
  -- Each step takes a character at least, so that there is fuel for it.
  induction leads using Relation.ReflTransGen.head_induction_on generalizing fuel with
  | refl =>
    obtain ⟨fuel, rfl⟩ : ∃ n, fuel = n + 1 := ⟨fuel - 1, by omega⟩
    rw [run, ends]
  | head step _ ih =>
    obtain ⟨fuel, rfl⟩ : ∃ n, fuel = n + 1 := ⟨fuel - 1, by omega⟩
    rw [run, step.1]
    exact ih (by have := step.2; omega)

/-- At the end of the text, the open block collections end. -/
theorem Comes.finish {column : Nat} {indents : List Nat} {allowKey : Bool} {told : List Token}
    (comes : s.Comes [] column indents allowKey told) :
    ∃ last, s.next = .ok (last, true) ∧
      last.tokens = told ++ List.replicate indents.length .blockEnd := by
  obtain ⟨s', settled, h, -⟩ := comes
  rw [settle, Outcome.map_eq_ok] at settled
  obtain ⟨refreshed, refresh, rfl⟩ := settled
  have closed := h.toTold.closeBlocks indents.length
  refine ⟨_, ?_, closed.tokens_eq⟩
  rw [next, refresh, Outcome.ok_bind]
  simp only [h.rest_eq]
  generalize refreshed.unwind refreshed.cursor.column = s' at h closed
  have dropped : (s'.closeBlocks indents.length).dropPending =
      .ok (s'.closeBlocks indents.length) := by
    simp [dropPending, pending, setPending, closeBlocks_eq, h.outermost_eq, h.inner_eq]
  rw [unwindAll, if_neg (by simp [inFlow, h.inner_eq]), h.indents_eq, dropped]
  rfl

end Scanner

end Custody.Yaml
