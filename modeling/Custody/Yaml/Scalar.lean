import Custody.Yaml.Cursor
import Custody.Yaml.Fault

/-!
# The written forms of scalars

A scalar is written plainly, in single or double quotes, or as a block of lines. The functions here
read one from the front of a text and return what is left.

Within quotes, and in plain scalars, a line end and the blanks around it count as one space, and
each further line end as itself. In double quotes a backslash starts an escape; one at the end of a
line joins the next line on. A block keeps its line ends, or folds those between lines that start
with no blank; an indicator after its mark says what becomes of the line ends at its end.
-/

namespace Custody.Yaml

/-- What stands between two stretches of a scalar in quotes. -/
inductive Gap where
  /-- Blanks on one line. -/
  | blanks (text : List Char)
  /-- A line end, what it counts as, and what the further ones count as. -/
  | folded (first : Char) (further : List Char)
  /-- An escaped line end, and what the further ones count as. -/
  | joined (further : List Char)

/-- What a line end and the further ones count as together. -/
def foldBreaks (first : Char) (further : List Char) : List Char :=
  if first != '\n' then first :: further
  else if further.isEmpty then [' '] else further

/-- What a gap counts as. -/
def Gap.text : Gap → List Char
  | .blanks text => text
  | .folded first further => foldBreaks first further
  | .joined further => further

/-- The gap with a blank more. -/
def Gap.addBlank (c : Char) : Gap → Gap
  | .blanks text => .blanks (text ++ [c])
  | gap => gap

/-- The gap with a line end more. -/
def Gap.addBreak (c : Char) : Gap → Gap
  | .blanks _ => .folded (lineEnd c) []
  | .folded first further => .folded first (further ++ [lineEnd c])
  | .joined further => .joined (further ++ [lineEnd c])

/-- What was read with more before it. -/
def before {α : Type} (start : List α) (read : Except Fault (List α × List Char)) :
    Except Fault (List α × List Char) :=
  read.map fun (more, rest) => (start ++ more, rest)

/-- A scalar in single quotes, read from after its first quote; a quote is written twice. -/
def readSingleQuoted (gap : Gap) : List Char → Except Fault (List Char × List Char)
  | [] => .error .malformed
  | '\'' :: '\'' :: rest => before (gap.text ++ ['\'']) (readSingleQuoted (.blanks []) rest)
  | '\'' :: rest => .ok (gap.text, rest)
  | c :: rest =>
    if isBreak c then
      if atSeparator rest then .error .malformed else readSingleQuoted (gap.addBreak c) rest
    else if isBlank c then readSingleQuoted (gap.addBlank c) rest
    else before (gap.text ++ [c]) (readSingleQuoted (.blanks []) rest)

/-- The characters that one character after a backslash stands for. -/
def escapes : List (Char × Char) :=
  [('0', '\x00'), ('a', '\x07'), ('b', '\x08'), ('t', '\t'), ('\t', '\t'), ('n', '\n'),
   ('v', '\x0b'), ('f', '\x0c'), ('r', '\r'), ('e', '\x1b'), (' ', ' '), ('"', '"'), ('\\', '\\'),
   ('/', '/'), ('N', '\x85'), ('_', '\u00a0'), ('L', '\u2028'), ('P', '\u2029')]

/-- The code point whose number hex digits spell. -/
def pointOfHex (digits : List Char) : Except Fault CodePoint :=
  match digits.mapM Hex.digit? with
  | none => .error .malformed
  | some values =>
    let n := values.foldl (fun n d => 16 * n + d) 0
    match CodePoint.ofNat? n with
    | some p => .ok p
    | none => .error (if n < 0x80000000 then .notACodePoint else .hugeEscape)

/-- The code points that a gap counts as. -/
def Gap.points (gap : Gap) : List CodePoint :=
  gap.text.map .char

/-- A scalar in double quotes, read from after its first quote. -/
def readDoubleQuoted (gap : Gap) : List Char → Except Fault (List CodePoint × List Char)
  | [] => .error .malformed
  | '"' :: rest => .ok (gap.points, rest)
  | '\\' :: 'x' :: a :: b :: rest => do
    let p ← pointOfHex [a, b]
    before (gap.points ++ [p]) (readDoubleQuoted (.blanks []) rest)
  | '\\' :: 'u' :: a :: b :: c :: d :: rest => do
    let p ← pointOfHex [a, b, c, d]
    before (gap.points ++ [p]) (readDoubleQuoted (.blanks []) rest)
  | '\\' :: 'U' :: a :: b :: c :: d :: e :: f :: g :: h :: rest => do
    let p ← pointOfHex [a, b, c, d, e, f, g, h]
    before (gap.points ++ [p]) (readDoubleQuoted (.blanks []) rest)
  | '\\' :: e :: rest =>
    if isBreak e then
      if atSeparator rest then .error .malformed
      else before gap.points (readDoubleQuoted (.joined []) rest)
    else
      match escapes.lookup e with
      | some c => before (gap.points ++ [.char c]) (readDoubleQuoted (.blanks []) rest)
      | none => .error .malformed
  | c :: rest =>
    if isBreak c then
      if atSeparator rest then .error .malformed else readDoubleQuoted (gap.addBreak c) rest
    else if isBlank c then readDoubleQuoted (gap.addBlank c) rest
    else if c == '\\' then .error .malformed
    else before (gap.points ++ [.char c]) (readDoubleQuoted (.blanks []) rest)

/-- The stretch of a plain scalar at the front of a text: up to a blank, a line end, a colon before
a space, or, within brackets, a mark of the collection. -/
def plainStretch (inFlow : Bool) : List Char → List Char
  | [] => []
  | c :: rest =>
    if isBlank c || isBreak c then []
    else if c == ':' &&
        (atSpace rest || (inFlow && rest.head?.any (",[]\x7b\x7d".toList.contains ·)))
    then []
    else if inFlow && ",?[]\x7b\x7d".toList.contains c then []
    else c :: plainStretch inFlow rest

/-- What follows a stretch of a plain scalar. -/
structure PlainGap where
  /-- What the gap counts as; nothing if the scalar ends here. -/
  text : List Char
  /-- What is left of the text. -/
  rest : List Char
  /-- The column reached, if a line has ended. -/
  column : Option Nat

/-- The spaces and line ends after the first line end in a plain scalar: what the line ends count
as, what is left, the column reached, and whether a document's mark was met. -/
def plainBreaks (column : Nat) : List Char → List Char × List Char × Nat × Bool
  | [] => ([], [], column, false)
  | c :: rest =>
    if c == ' ' then plainBreaks (column + 1) rest
    else if isBreak c then
      if atSeparator rest then ([lineEnd c], rest, 0, true)
      else
        let (breaks, left, column, separator) := plainBreaks 0 rest
        (lineEnd c :: breaks, left, column, separator)
    else ([], c :: rest, column, false)

/-- What follows a stretch of a plain scalar at the front of a text. -/
def plainGap (text : List Char) : PlainGap :=
  let rest := text.dropWhile (· == ' ')
  match rest with
  | [] => ⟨text, [], none⟩
  | c :: after =>
    if isBreak c then
      if atSeparator after then ⟨[], after, some 0⟩
      else
        let (breaks, left, column, separator) := plainBreaks 0 after
        ⟨if separator then [] else foldBreaks (lineEnd c) breaks, left, some column⟩
    else ⟨text.takeWhile (· == ' '), rest, none⟩

/-- A plain scalar at the front of a text, whose lines start at column `indent` or later: its
text, what is left, and whether that is on a later line than the scalar's last stretch. -/
def readPlain (inFlow : Bool) (indent : Nat) :
    (fuel : Nat) → (gap : List Char) → (newLine : Bool) → List Char → List Char × List Char × Bool
  | 0, _, newLine, text => ([], text, newLine)
  | fuel + 1, gap, newLine, text =>
    let stretch := plainStretch inFlow text
    if stretch.isEmpty then ([], text, newLine)
    else
      -- The scalar ends at a comment, and at a line that starts before its column.
      let next := plainGap (text.drop stretch.length)
      let ended := next.text.isEmpty || next.rest.head? == some '#' ||
        (!inFlow && next.column.any (· < indent))
      if ended then (gap ++ stretch, next.rest, next.column.isSome)
      else
        let (more, rest, newLine) :=
          readPlain inFlow indent fuel next.text next.column.isSome next.rest
        (gap ++ stretch ++ more, rest, newLine)

/-- What becomes of the line ends at the end of a block. -/
inductive Chomp where
  | strip | clip | keep
deriving DecidableEq, Repr

/-- The indicators after a block's mark: what becomes of its last line ends, and how far it is
indented, if that is said. -/
def readBlockHeader (text : List Char) : Option (Chomp × Option Nat × List Char) :=
  let chomp? (c : Char) : Option Chomp :=
    if c == '+' then some .keep else if c == '-' then some .strip else none
  let digit? (c : Char) : Option Nat :=
    if '1' ≤ c ∧ c ≤ '9' then some (c.toNat - '0'.toNat) else none
  let (chomp, indent, rest) :=
    match text with
    | [] => (Chomp.clip, none, [])
    | a :: rest =>
      match chomp? a, digit? a with
      | some chomp, _ =>
        match rest with
        | [] => (chomp, none, [])
        | b :: after =>
          match digit? b with
          | some n => (chomp, some n, after)
          | none => (chomp, none, rest)
      | none, some n =>
        match rest with
        | [] => (Chomp.clip, some n, [])
        | b :: after =>
          match chomp? b with
          | some chomp => (chomp, some n, after)
          | none => (Chomp.clip, some n, rest)
      | none, none => (Chomp.clip, none, text)
  if atSpaceNoTab rest then some (chomp, indent, rest) else none

/-- What is left after the rest of a line that holds nothing but spaces and a comment. -/
def skipIgnoredLine (text : List Char) : Option (List Char) :=
  let rest := text.dropWhile (· == ' ')
  let rest := if rest.head? == some '#' then rest.dropWhile (!isBreak ·) else rest
  if atLineEnd rest then some (rest.drop 1) else none

/-- The empty lines at the start of a block whose indentation is not said: what their line ends
count as, the column reached, the furthest column, and what is left. -/
def readLeadingLines (column furthest : Nat) : List Char → List Char × Nat × Nat × List Char
  | [] => ([], column, furthest, [])
  | c :: rest =>
    if c == ' ' then readLeadingLines (column + 1) (max furthest (column + 1)) rest
    else if isBreak c then
      let (breaks, column, furthest, left) := readLeadingLines 0 furthest rest
      (lineEnd c :: breaks, column, furthest, left)
    else ([], column, furthest, c :: rest)

/-- The empty lines before a line of a block that is indented by `indent`: what their line ends
count as, the column reached, and what is left. -/
def readEmptyLines (indent column : Nat) : List Char → List Char × Nat × List Char
  | [] => ([], column, [])
  | c :: rest =>
    if c == ' ' && column < indent then readEmptyLines indent (column + 1) rest
    else if isBreak c then
      let (breaks, column, left) := readEmptyLines indent 0 rest
      (lineEnd c :: breaks, column, left)
    else ([], column, c :: rest)

/-- The lines of a block: their text, the last line end, the empty lines after it, and what is
left. -/
def readBlockLines (folded : Bool) (indent : Nat) :
    (fuel : Nat) → (breaks : List Char) → (column : Nat) → List Char →
      List Char × List Char × List Char × List Char
  | 0, breaks, _, text => ([], [], breaks, text)
  | fuel + 1, breaks, column, text =>
    if column != indent || text.isEmpty then ([], [], breaks, text)
    else
      -- Lines that start with a blank are never folded into their neighbours.
      let startsBlank := text.head?.any isBlank
      let line := text.takeWhile (!isBreak ·)
      let rest := text.drop line.length
      let lineBreak := (rest.take 1).map lineEnd
      let (further, column, left) := readEmptyLines indent 0 (rest.drop 1)
      if column != indent || left.isEmpty then (breaks ++ line, lineBreak, further, left)
      else
        let between :=
          if folded && lineBreak == ['\n'] && !startsBlank && !left.head?.any isBlank then
            if further.isEmpty then [' '] else []
          else lineBreak
        let (more, last, trailing, left) := readBlockLines folded indent fuel further column left
        (breaks ++ line ++ between ++ more, last, trailing, left)

/-- A block scalar, read from after its mark, in a collection indented by `outer`, if any. -/
def readBlock (folded : Bool) (outer : Option Nat) (text : List Char) :
    Except Fault (List Char × List Char) :=
  match readBlockHeader text with
  | none => .error .malformed
  | some (chomp, increment, rest) =>
    match skipIgnoredLine rest with
    | none => .error .malformed
    | some rest =>
      let least := match outer with
        | some column => column + 1
        | none => 1
      let (indent, breaks, column, rest) :=
        match increment with
        | none =>
          let (breaks, column, furthest, rest) := readLeadingLines 0 0 rest
          (max least furthest, breaks, column, rest)
        | some n =>
          let indent := least + n - 1
          let (breaks, column, rest) := readEmptyLines indent 0 rest
          (indent, breaks, column, rest)
      let (lines, last, trailing, rest) :=
        readBlockLines folded indent (rest.length + 1) breaks column rest
      let tail := match chomp with
        | .strip => []
        | .clip => last
        | .keep => last ++ trailing
      .ok (lines ++ tail, rest)

end Custody.Yaml
