import Custody.Value
import Custody.Yaml.PlainType

/-!
# Writing YAML documents

Texts, integers, lists and records are written in block style, a field or an item on each line. A
text is written plainly if it would be read as itself, in single quotes if its characters are
printable ASCII and line ends that no space touches, and in double quotes with escapes otherwise.
Lines are broken at spaces once they have passed `lineWidth` columns; in double quotes a backslash
marks such a break.

Nothing is written if an integer has more digits than are allowed (`Written.dump`).
-/

namespace Custody.Yaml

/-- What can be written. -/
inductive Written where
  | text (s : Text)
  | int (n : Int)
  | list (items : List Written)
  | record (fields : List (String × Written))

/-- That an integer has too many digits to be written. -/
structure LongNumeral where
  /-- The most digits. -/
  most : Nat
deriving DecidableEq, Repr

/-- The wording of the fault. -/
def LongNumeral.message (fault : LongNumeral) : String :=
  "Exceeds the limit (" ++ toString fault.most ++
    " digits) for integer string conversion; use sys.set_int_max_str_digits() to increase the limit"

namespace Written

mutual

/-- The value that is written. -/
def toValue : Written → Value
  | .text s => .text s
  | .int n => .int n
  | .list items => .list (valuesOf items)
  | .record fields => .map (entriesOf fields)

/-- The values of the items of a list. -/
def valuesOf : List Written → List Value
  | [] => []
  | item :: rest => item.toValue :: valuesOf rest

/-- The entries of the fields of a record. -/
def entriesOf : List (String × Written) → List (Value × Value)
  | [] => []
  | (name, value) :: rest => (.text name, value.toValue) :: entriesOf rest

end

end Written

/-- After how many columns lines are broken at the next space. -/
def lineWidth : Nat := 80

/-- A line end and the spaces before the given column. -/
def newLine (column : Nat) : List Char :=
  '\n' :: List.replicate column ' '

/-- Whether a character that is not the first makes a text unfit to be written plainly: a colon
before a space, or a number sign after one. -/
def isInnerMark (previous c : Char) (rest : List Char) : Bool :=
  (c == ':' && atSpace rest) || (c == '#' && (isBlank previous || isBreak previous))

/-- Whether a text has such a mark after the given character. -/
def hasInnerMark (previous : Char) : List Char → Bool
  | [] => false
  | c :: rest => isInnerMark previous c rest || hasInnerMark c rest

/-- Whether the characters of a text, taken as those of a plain scalar, would not be read as
it. -/
def hasMarks (text : List Char) : Bool :=
  match text with
  | [] => false
  | c :: rest =>
    (text.take 3 == "---".toList) || (text.take 3 == "...".toList) ||
      "#,[]\x7b\x7d&*!|>'\"%@\x60".toList.contains c ||
      ("?:-".toList.contains c && atSpace rest) || hasInnerMark c rest

/-- Whether all characters are printable ASCII or line feeds. -/
def isSimple (text : List Char) : Bool :=
  text.all fun c => c == '\n' || (' ' ≤ c && c ≤ '~')

/-- Whether a space and a line feed stand side by side. -/
def spaceTouchesBreak : List Char → Bool
  | a :: b :: rest =>
    (a == ' ' && b == '\n') || (a == '\n' && b == ' ') || spaceTouchesBreak (b :: rest)
  | _ => false

/-- Whether a text is written plainly. -/
def writesPlain (text : List Char) : Bool :=
  PlainType.of text == .text && isSimple text && !text.contains '\n' && !hasMarks text &&
    text.head? != some ' ' && text.getLast? != some ' '

/-- Whether a text can be written in single quotes. -/
def fitsSingleQuotes (text : List Char) : Bool :=
  isSimple text && !spaceTouchesBreak text

/-- A plain text from the given column on, with later lines at column `indent`; `previous` is the
character before. -/
def writePlain (indent column : Nat) (previous : Char) : List Char → List Char
  | [] => []
  | c :: rest =>
    if c == ' ' && previous != ' ' && rest.head? != some ' ' && lineWidth < column then
      newLine indent ++ writePlain indent indent '\n' rest
    else c :: writePlain indent (column + 1) c rest

/-- A text in single quotes without the first one, from the given column on; `previous` is the
character before. -/
def writeSingleQuoted (indent column : Nat) (previous : Option Char) : List Char → List Char
  | [] => ['\'']
  | c :: rest =>
    if c == '\'' then
      '\'' :: '\'' :: writeSingleQuoted indent (column + 2) (some c) rest
    else if c == '\n' then
      -- One line end alone would be read as a space, so that the first of several is doubled.
      (if previous == some '\n' then ['\n'] else ['\n', '\n']) ++
        if rest.head? == some '\n' then writeSingleQuoted indent 0 (some c) rest
        else List.replicate indent ' ' ++ writeSingleQuoted indent indent (some c) rest
    else if c == ' ' && previous.isSome && previous != some ' ' && !rest.isEmpty &&
        rest.head? != some ' ' && lineWidth < column then
      newLine indent ++ writeSingleQuoted indent indent (some c) rest
    else c :: writeSingleQuoted indent (column + 1) (some c) rest

/-- Characters that are written as a backslash and one character. -/
def shortEscapes : List (Char × Char) :=
  [('\x00', '0'), ('\x07', 'a'), ('\x08', 'b'), ('\t', 't'), ('\n', 'n'), ('\x0b', 'v'),
   ('\x0c', 'f'), ('\r', 'r'), ('\x1b', 'e'), ('"', '"'), ('\\', '\\'), ('\x85', 'N'),
   ('\u00a0', '_'), ('\u2028', 'L'), ('\u2029', 'P')]

/-- The upper-case hex digits of a number, as many as `width` says. -/
def hexDigits : (width : Nat) → Nat → List Char
  | 0, _ => []
  | width + 1, n =>
    let d := n % 16
    hexDigits width (n / 16) ++
      [if d < 10 then Char.ofNat ('0'.toNat + d) else Char.ofNat ('A'.toNat + (d - 10))]

/-- A code point as an escape. -/
def escape (p : CodePoint) : List Char :=
  match p.char?.bind fun c => shortEscapes.lookup c with
  | some e => ['\\', e]
  | none =>
    if p.toNat ≤ 0xff then '\\' :: 'x' :: hexDigits 2 p.toNat
    else if p.toNat ≤ 0xffff then '\\' :: 'u' :: hexDigits 4 p.toNat
    else '\\' :: 'U' :: hexDigits 8 p.toNat

/-- Whether a code point is escaped in double quotes. -/
def needsEscape (p : CodePoint) : Bool :=
  p == .char '"' || p == .char '\\' || !(' '.toNat ≤ p.toNat && p.toNat ≤ '~'.toNat)

/-- A text in double quotes without the first one; `held` is what stands from the given column on
but may still go to a new line, and `first` says that nothing of the text has been written. -/
def writeDoubleQuoted (indent column : Nat) (held : List Char) (first : Bool) :
    List CodePoint → List Char
  | [] => held ++ ['"']
  | p :: rest =>
    if needsEscape p then
      -- An escape stays in one piece; the line may end after it.
      let written := held ++ escape p
      let column := column + written.length
      if !first && !rest.isEmpty && lineWidth + 1 < column then
        let before := if rest.head? == some (.char ' ') then ['\\'] else []
        written ++ '\\' :: newLine indent ++ before ++
          writeDoubleQuoted indent (indent + before.length) [] false rest
      else written ++ writeDoubleQuoted indent column [] false rest
    else if !first && !rest.isEmpty && (p == .char ' ' || held.isEmpty) &&
        lineWidth < column + held.length then
      -- A space at the start of a line would be skipped without a backslash before it.
      let before := if p == .char ' ' then ['\\'] else []
      held ++ '\\' :: newLine indent ++ before ++
        writeDoubleQuoted indent (indent + before.length) [p.shown] false rest
    else writeDoubleQuoted indent column (held ++ [p.shown]) false rest

/-- A text and the space before it, from the given column on, with later lines at column
`indent`. -/
def writeText (indent column : Nat) (t : Text) : List Char :=
  match t.chars?.filter fitsSingleQuotes with
  | some text =>
    if writesPlain text then ' ' :: writePlain indent (column + 1) ' ' text
    else ' ' :: '\'' :: writeSingleQuoted indent (column + 2) none text
  | none => ' ' :: '"' :: writeDoubleQuoted indent (column + 2) [] true t.points

namespace Written

mutual

/-- What follows the colon of a record's field at column `indent`; the colon ends at `column`. -/
def writeField (indent column : Nat) : Written → List Char
  | .text s => writeText (indent + 2) column s ++ ['\n']
  | .int n => ' ' :: (toString n).toList ++ ['\n']
  | .list [] => " []\n".toList
  | .list (item :: rest) => '\n' :: writeItems indent false (item :: rest)
  | .record [] => " \x7b\x7d\n".toList
  | .record (field :: rest) => '\n' :: writeFields (indent + 2) false (field :: rest)

/-- What follows the dash of a list's item at column `indent`. -/
def writeItem (indent : Nat) : Written → List Char
  | .text s => writeText (indent + 2) (indent + 1) s ++ ['\n']
  | .int n => ' ' :: (toString n).toList ++ ['\n']
  | .list [] => " []\n".toList
  | .list (item :: rest) => ' ' :: writeItems (indent + 2) true (item :: rest)
  | .record [] => " \x7b\x7d\n".toList
  | .record (field :: rest) => ' ' :: writeFields (indent + 2) true (field :: rest)

/-- Items of a list at column `indent`; `placed` says that the first is there already. -/
def writeItems (indent : Nat) (placed : Bool) : List Written → List Char
  | [] => []
  | item :: rest =>
    (if placed then [] else List.replicate indent ' ') ++ '-' :: writeItem indent item ++
      writeItems indent false rest

/-- Fields of a record at column `indent`; `placed` says that the first is there already. -/
def writeFields (indent : Nat) (placed : Bool) : List (String × Written) → List Char
  | [] => []
  | (name, value) :: rest =>
    (if placed then [] else List.replicate indent ' ') ++ name.toList ++ ':' ::
      writeField indent (indent + name.toList.length + 1) value ++ writeFields indent false rest

end

/-- A document of a record's fields. -/
def document (fields : List (String × Written)) : List Char :=
  match fields with
  | [] => "\x7b\x7d\n".toList
  | _ => writeFields 0 false fields

mutual

/-- The limit on numerals, if an integer is to be written that is beyond it. -/
def exceeded? [NumeralLimit] : Written → Option Nat
  | .text _ => none
  | .int n => NumeralLimit.exceeded? (Nat.toDigits 10 n.natAbs).length
  | .list items => exceededByItems? items
  | .record fields => exceededByFields? fields

/-- The limit, if an integer in one of the items is beyond it. -/
def exceededByItems? [NumeralLimit] : List Written → Option Nat
  | [] => none
  | item :: rest => item.exceeded?.or (exceededByItems? rest)

/-- The limit, if an integer in one of the fields is beyond it. -/
def exceededByFields? [NumeralLimit] : List (String × Written) → Option Nat
  | [] => none
  | (_, value) :: rest => value.exceeded?.or (exceededByFields? rest)

end

/-- The document of a record's fields, if no integer in them has too many digits. All integers are
looked at before anything is written. -/
def dump [NumeralLimit] (fields : List (String × Written)) : Except LongNumeral (List Char) :=
  match exceededByFields? fields with
  | some most => .error ⟨most⟩
  | none => .ok (document fields)

end Written

end Custody.Yaml
