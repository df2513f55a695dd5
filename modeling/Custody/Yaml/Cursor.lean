/-!
# Places in a YAML text

A cursor is what is left of a text and where it starts: its line, its column, and the number of
characters before it. The text's lines end in a line feed, a next-line character, a line separator
or a paragraph separator; `unifyLineEnds` makes carriage returns, with or without a line feed, line
feeds before anything else is read. Where a scalar runs over lines, the first two kinds of line end
count as a line feed (`lineEnd`).
-/

namespace Custody.Yaml

/-- The text with each carriage return, and the line feed after it, made one line feed. -/
def unifyLineEnds : List Char → List Char
  | [] => []
  | '\r' :: '\n' :: rest => '\n' :: unifyLineEnds rest
  | '\r' :: rest => '\n' :: unifyLineEnds rest
  | c :: rest => c :: unifyLineEnds rest

/-- Whether a character ends a line. -/
def isBreak (c : Char) : Bool :=
  c == '\n' || c == '\x85' || c == '\u2028' || c == '\u2029'

/-- What a line end counts as within a scalar. -/
def lineEnd (c : Char) : Char :=
  if c == '\x85' then '\n' else c

/-- Whether a character is a space or a tab. -/
def isBlank (c : Char) : Bool :=
  c == ' ' || c == '\t'

/-- Whether a text is at its end, at the end of a line, or at a space or tab. -/
def atSpace (text : List Char) : Bool :=
  match text with
  | [] => true
  | c :: _ => isBlank c || isBreak c

/-- Whether a text is at its end, at the end of a line, or at a space. -/
def atSpaceNoTab (text : List Char) : Bool :=
  match text with
  | [] => true
  | c :: _ => c == ' ' || isBreak c

/-- Whether a text is at its end or at the end of a line. -/
def atLineEnd (text : List Char) : Bool :=
  match text with
  | [] => true
  | c :: _ => isBreak c

/-- Whether a text starts with three of the given mark that stand alone. -/
def startsWithMarker (mark : Char) (text : List Char) : Bool :=
  match text with
  | a :: b :: c :: rest => a == mark && b == mark && c == mark && atSpace rest
  | _ => false

/-- Whether a text starts with the mark that starts or ends a document. -/
def atSeparator (text : List Char) : Bool :=
  startsWithMarker '-' text || startsWithMarker '.' text

/-- Whether a character may stand in a YAML text. -/
def isPrintable (c : Char) : Bool :=
  c == '\t' || c == '\n' || c == '\r' || (' ' ≤ c && c ≤ '~') || c == '\x85' ||
    ('\u00a0' ≤ c && c ≤ '\ud7ff') || ('\ue000' ≤ c && c ≤ '\ufffd') || 0x10000 ≤ c.toNat

/-- The mark that may stand before a text to tell its encoding; it takes no column. -/
def byteOrderMark : Char := '\ufeff'

/-- A place in a text. -/
structure Cursor where
  /-- What is left of the text. -/
  rest : List Char
  /-- The number of characters before. -/
  index : Nat := 0
  /-- The number of line ends before. -/
  line : Nat := 0
  /-- The number of columns since the last line end. -/
  column : Nat := 0

namespace Cursor

/-- The place after the first character. -/
def next (c : Cursor) : Cursor :=
  match c.rest with
  | [] => c
  | a :: rest =>
    if isBreak a then ⟨rest, c.index + 1, c.line + 1, 0⟩
    else ⟨rest, c.index + 1, c.line, if a == byteOrderMark then c.column else c.column + 1⟩

/-- The place after as many characters as `n` says. -/
def advance : (n : Nat) → Cursor → Cursor
  | 0, c => c
  | n + 1, c => advance n c.next

/-- The place where the given rest of the text starts. -/
def atRest (rest : List Char) (c : Cursor) : Cursor :=
  c.advance (c.rest.length - rest.length)

end Cursor

end Custody.Yaml
