import Custody.Yaml.Property

/-!
# Tokens of YAML texts

`Token.scan` splits a text into tokens. Block collections have no marks of their own: they start
and end with the indentation, and a mapping's first key is known to be one only when its colon is
met. Where a key may start, the scanner therefore leaves a slot, remembers it as pending, and fills
it when the colon comes; slots that no colon fills are dropped at the end, so that what was scanned
is never changed. A pending key is given up when its line ends or when it grows too long, and that
is a fault if the place asks for a key.

A text is only read as far as is needed to tell its next token, so that a fault in it does not
hide what is wrong with the tokens before: the tokens end in one that stands for the fault. A token
that may start a key is told only once it is known whether it does.
-/

namespace Custody.Yaml

/-- A token. -/
inductive Token where
  | directive (d : Directive)
  | documentStart
  | documentEnd
  | blockSequenceStart
  | blockMappingStart
  | blockEnd
  | flowSequenceStart
  | flowSequenceEnd
  | flowMappingStart
  | flowMappingEnd
  | blockEntry
  | flowEntry
  | key
  | value
  | anchor (name : List Char)
  | alias (name : List Char)
  /-- A tag: its handle, if it has one, and what follows. -/
  | tag (handle : Option (List Char)) (suffix : List Char)
  /-- A scalar, and whether it was written plainly. -/
  | scalar (text : Text) (plain : Bool)
  /-- The place from which on no more tokens can be told. -/
  | broken (fault : Fault)
deriving DecidableEq, Repr

/-- A token, or the place of a key that may turn out to start there. -/
inductive Lexeme where
  | token (t : Token)
  | slot (number : Nat)
deriving DecidableEq, Repr

/-- A key that may have started. -/
structure PendingKey where
  /-- Its slot. -/
  slot : Nat
  /-- Whether the place asks for a key. -/
  required : Bool
  /-- The number of characters before it. -/
  index : Nat
  /-- Its line. -/
  line : Nat
  /-- Its column. -/
  column : Nat

/-- How far a text has been scanned. -/
structure Scanner where
  /-- What is left. -/
  cursor : Cursor
  /-- The columns of the open block collections, the innermost first. -/
  indents : List Nat := []
  /-- The pending key of each open flow collection, the innermost first. -/
  inner : List (Option PendingKey) := []
  /-- The pending key outside of all flow collections. -/
  outermost : Option PendingKey := none
  /-- Whether a key may start here. -/
  allowKey : Bool := true
  /-- What was scanned, the last first. -/
  output : List Lexeme := []
  /-- The number of slots left so far. -/
  slots : Nat := 0
  /-- The slots that a colon has filled, and whether a block mapping starts there. -/
  filled : List (Nat × Bool) := []

namespace Scanner

/-- How many characters a key may have before its colon. -/
def longestKey : Nat := 1024

/-- Whether a flow collection is open. -/
def inFlow (s : Scanner) : Bool :=
  !s.inner.isEmpty

/-- The scanner with a token more. -/
def emit (t : Token) (s : Scanner) : Scanner :=
  { s with output := .token t :: s.output }

/-- The scanner at the place where the given rest of the text starts. -/
def goto (rest : List Char) (s : Scanner) : Scanner :=
  { s with cursor := s.cursor.atRest rest }

/-- The pending key of the innermost flow collection, or outside of all. -/
def pending (s : Scanner) : Option PendingKey :=
  match s.inner with
  | [] => s.outermost
  | key :: _ => key

/-- The scanner with another pending key. -/
def setPending (key : Option PendingKey) (s : Scanner) : Scanner :=
  match s.inner with
  | [] => { s with outermost := key }
  | _ :: rest => { s with inner := key :: rest }

/-- The pending key given up, if its place does not ask for a key. -/
def dropPending (s : Scanner) : Except Fault Scanner :=
  if s.pending.any (·.required) then .error .malformed else .ok (s.setPending none)

/-- Whether a pending key can still be one at the given place: a key and its colon stand on one
line. -/
def isOpen (c : Cursor) (key : PendingKey) : Bool :=
  key.line = c.line ∧ c.index - key.index ≤ longestKey

/-- A pending key that can still be one at the given place; one that cannot is given up, if its
place does not ask for a key. -/
def refresh (c : Cursor) : Option PendingKey → Except Fault (Option PendingKey)
  | none => .ok none
  | some key =>
    if isOpen c key then .ok (some key)
    else if key.required then .error .malformed
    else .ok none

/-- All pending keys that can still be one. -/
def refreshPending (s : Scanner) : Except Fault Scanner := do
  let inner ← s.inner.mapM (refresh s.cursor)
  let outermost ← refresh s.cursor s.outermost
  .ok { s with inner, outermost }

/-- A slot for a key that may start here. -/
def savePending (s : Scanner) : Except Fault Scanner :=
  if s.allowKey then do
    let s ← s.dropPending
    let key : PendingKey :=
      { slot := s.slots
        required := !s.inFlow && s.indents.head? == some s.cursor.column
        index := s.cursor.index
        line := s.cursor.line
        column := s.cursor.column }
    .ok { s.setPending (some key) with output := .slot s.slots :: s.output, slots := s.slots + 1 }
  else .ok s

/-- Whether a block collection that starts at a column lies within the open ones. -/
def opens (column : Nat) (s : Scanner) : Bool :=
  match s.indents with
  | [] => true
  | innermost :: _ => innermost < column

/-- The scanner with a block collection opened at a column, if it lies within the open ones. -/
def openBlock (t : Token) (column : Nat) (s : Scanner) : Scanner :=
  if s.opens column then { s.emit t with indents := column :: s.indents } else s

/-- The scanner with as many block collections closed as `n` says. -/
def closeBlocks : (n : Nat) → Scanner → Scanner
  | 0, s => s
  | n + 1, s => closeBlocks n { s.emit .blockEnd with indents := s.indents.drop 1 }

/-- The block collections that start after a column closed, outside of flow collections. -/
def unwind (column : Nat) (s : Scanner) : Scanner :=
  if s.inFlow then s else s.closeBlocks (s.indents.takeWhile (column < ·)).length

/-- All block collections closed, outside of flow collections. -/
def unwindAll (s : Scanner) : Scanner :=
  if s.inFlow then s else s.closeBlocks s.indents.length

/-- What is left after spaces, comments and line ends, and whether a line has ended. -/
def skipFiller (inComment : Bool) : List Char → Bool × List Char
  | [] => (false, [])
  | c :: rest =>
    if isBreak c then (true, (skipFiller false rest).2)
    else if inComment then skipFiller true rest
    else if c == ' ' then skipFiller false rest
    else if c == '#' then skipFiller true rest
    else (false, c :: rest)

/-- The scanner at the next token; on a new line, a key may start. -/
def toNextToken (s : Scanner) : Scanner :=
  let text := s.cursor.rest
  -- A byte order mark before everything else is skipped.
  let text := if s.cursor.index == 0 && text.head? == some byteOrderMark then text.drop 1 else text
  let (newLine, rest) := skipFiller false text
  let s := s.goto rest
  if newLine && !s.inFlow then { s with allowKey := true } else s

/-- A token of one character. -/
def single (t : Token) (s : Scanner) : Scanner :=
  s.emit t |>.goto (s.cursor.rest.drop 1)

/-- A mark that starts or ends a document. -/
def documentMark (t : Token) (s : Scanner) : Except Fault Scanner := do
  let s ← s.unwindAll.dropPending
  .ok ({ s with allowKey := false }.emit t |>.goto (s.cursor.rest.drop 3))

/-- A directive. -/
def directive (s : Scanner) : Except Fault Scanner := do
  let s ← s.unwindAll.dropPending
  match readDirective (s.cursor.rest.drop 1) with
  | none => .error .malformed
  | some (d, rest) => .ok ({ s with allowKey := false }.emit (.directive d) |>.goto rest)

/-- The opening bracket of a flow collection. -/
def openFlow (t : Token) (s : Scanner) : Except Fault Scanner := do
  let s ← s.savePending
  .ok { s.single t with inner := none :: s.inner, allowKey := true }

/-- The closing bracket of a flow collection. -/
def closeFlow (t : Token) (s : Scanner) : Except Fault Scanner := do
  let s ← s.dropPending
  match s.inner with
  | [] => .error .malformed
  | _ :: inner => .ok { s.single t with inner, allowKey := false }

/-- The comma of a flow collection. -/
def flowEntry (s : Scanner) : Except Fault Scanner := do
  let s ← s.dropPending
  .ok { s.single .flowEntry with allowKey := true }

/-- The dash of a block sequence. -/
def blockEntry (s : Scanner) : Except Fault Scanner := do
  if !s.inFlow && !s.allowKey then .error .malformed
  else
    let s := if s.inFlow then s else s.openBlock .blockSequenceStart s.cursor.column
    let s ← s.dropPending
    .ok { s.single .blockEntry with allowKey := true }

/-- The question mark before a key. -/
def explicitKey (s : Scanner) : Except Fault Scanner := do
  if !s.inFlow && !s.allowKey then .error .malformed
  else
    let s := if s.inFlow then s else s.openBlock .blockMappingStart s.cursor.column
    let s ← s.dropPending
    .ok { s.single .key with allowKey := !s.inFlow }

/-- The colon before a value. It fills the slot of the pending key, if there is one. -/
def value (s : Scanner) : Except Fault Scanner :=
  match s.pending with
  | some key =>
    -- The first key of a block mapping starts the mapping as well.
    let opening := !s.inFlow && s.opens key.column
    let s := { s.setPending none with
      filled := (key.slot, opening) :: s.filled
      indents := if opening then key.column :: s.indents else s.indents
      allowKey := false }
    .ok (s.single .value)
  | none =>
    if s.inFlow then .ok { s.single .value with allowKey := false }
    else if !s.allowKey then .error .malformed
    else
      let s := s.openBlock .blockMappingStart s.cursor.column
      .ok { s.single .value with allowKey := true }

/-- A token that may start a key, given what was read of it. -/
def node (read : Option (Token × List Char)) (s : Scanner) : Except Fault Scanner :=
  match read with
  | none => .error .malformed
  | some (t, rest) => do
    let s ← s.savePending
    .ok ({ s with allowKey := false }.emit t |>.goto rest)

/-- A scalar in single quotes, read from after its first quote. -/
def singleQuoted (text : List Char) (s : Scanner) : Except Fault Scanner := do
  let (content, rest) ← readSingleQuoted (.blanks []) text
  s.node (some (.scalar (.ofChars content) false, rest))

/-- A scalar in double quotes, read from after its first quote. -/
def doubleQuoted (text : List Char) (s : Scanner) : Except Fault Scanner := do
  let (content, rest) ← readDoubleQuoted (.blanks []) text
  s.node (some (.scalar ⟨content⟩ false, rest))

/-- A block scalar. -/
def block (folded : Bool) (s : Scanner) : Except Fault Scanner := do
  let s ← s.dropPending
  let (content, rest) ← readBlock folded s.indents.head? (s.cursor.rest.drop 1)
  .ok ({ s with allowKey := true }.emit (.scalar (.ofChars content) false) |>.goto rest)

/-- A plain scalar. After it a key may start if it has reached a new line. -/
def plain (s : Scanner) : Except Fault Scanner := do
  let s ← s.savePending
  let text := s.cursor.rest
  let indent := match s.indents with
    | [] => 0
    | innermost :: _ => innermost + 1
  let (content, rest, newLine) := readPlain s.inFlow indent (text.length + 1) [] false text
  .ok ({ s with allowKey := newLine }.emit (.scalar (.ofChars content) true) |>.goto rest)

/-- Whether a plain scalar may start with a character, before the given rest. -/
def startsPlain (inFlow : Bool) (c : Char) (rest : List Char) : Bool :=
  if "-?:,[]\x7b\x7d#&*!|>'\"%@\x60".toList.contains c || isBlank c || isBreak c then
    !atSpace rest && (c == '-' || (!inFlow && (c == '?' || c == ':')))
  else true

/-- The token at the scanner's place, whose first character and what follows it are given. -/
def scanToken (c : Char) (rest : List Char) (s : Scanner) : Except Fault Scanner :=
  let text := c :: rest
  -- Directives and the marks of documents count only at the start of a line.
  let lineStart := s.cursor.column == 0
  if c == '%' && lineStart then s.directive
  else if lineStart && startsWithMarker '-' text then s.documentMark .documentStart
  else if lineStart && startsWithMarker '.' text then s.documentMark .documentEnd
  else if c == '[' then s.openFlow .flowSequenceStart
  else if c == '\x7b' then s.openFlow .flowMappingStart
  else if c == ']' then s.closeFlow .flowSequenceEnd
  else if c == '\x7d' then s.closeFlow .flowMappingEnd
  else if c == ',' then s.flowEntry
  else if c == '-' && atSpace rest then s.blockEntry
  else if c == '?' && (s.inFlow || atSpace rest) then s.explicitKey
  else if c == ':' && (s.inFlow || atSpace rest) then s.value
  else if c == '*' then s.node ((readAnchor rest).map fun (name, left) => (.alias name, left))
  else if c == '&' then s.node ((readAnchor rest).map fun (name, left) => (.anchor name, left))
  else if c == '!' then
    s.node ((readTag text).map fun (handle, suffix, left) => (.tag handle suffix, left))
  else if c == '|' && !s.inFlow then s.block false
  else if c == '>' && !s.inFlow then s.block true
  else if c == '\'' then s.singleQuoted rest
  else if c == '"' then s.doubleQuoted rest
  else if startsPlain s.inFlow c rest then s.plain
  else .error .malformed

/-- The scanner after the next token, and whether the text was at its end. -/
def next (s : Scanner) : Except Fault (Scanner × Bool) := do
  let s ← s.toNextToken.refreshPending
  -- A token to the left of open block collections ends them.
  let s := s.unwind s.cursor.column
  match s.cursor.rest with
  | [] =>
    let s ← s.unwindAll.dropPending
    .ok (s, true)
  | c :: rest =>
    let s ← s.scanToken c rest
    .ok (s, false)

/-- The tokens that a slot stands for. -/
def fill (filled : List (Nat × Bool)) : Lexeme → List Token
  | .token t => [t]
  | .slot number =>
    match filled.lookup number with
    | none => []
    | some true => [.blockMappingStart, .key]
    | some false => [.key]

/-- All tokens that were scanned. -/
def tokens (s : Scanner) : List Token :=
  s.output.reverse.flatMap (fill s.filled)

/-- The slots that a colon may still fill. -/
def openSlots (s : Scanner) : List Nat :=
  ((s.outermost :: s.inner).filterMap id).filter (isOpen s.cursor) |>.map (·.slot)

/-- The tokens that can be told: those before the first slot that a colon may still fill. -/
def toldTokens (s : Scanner) : List Token :=
  let isTold : Lexeme → Bool
    | .token _ => true
    | .slot number => !s.openSlots.contains number
  (s.output.reverse.takeWhile isTold).flatMap (fill s.filled)

/-- The tokens from the given scanner on. -/
def run : (fuel : Nat) → Scanner → List Token
  | 0, s => s.toldTokens ++ [.broken .malformed]
  | fuel + 1, s =>
    match s.next with
    | .error fault => s.toldTokens ++ [.broken fault]
    | .ok (s, true) => s.tokens
    | .ok (s, false) => run fuel s

end Scanner

/-- The tokens of a text. -/
def Token.scan (text : List Char) : List Token :=
  if text.all isPrintable then Scanner.run (text.length + 1) { cursor := { rest := text } }
  else [.broken .malformed]

end Custody.Yaml
