import Custody.Text.Numeral
import Custody.Yaml.Timestamp

/-!
# What plain scalars count as

A plain scalar counts as nothing, a boolean, an integer, a number with a point, a date, one of two
marks, or something reserved, if it has the spelling of one; all others are texts. `PlainType.of`
tells which. The spellings are those of version 1.1 of the language: integers may be octal with a
leading zero, binary, hexadecimal or sexagesimal, and have underscores; a number with a point needs
that point, and its exponent needs a sign.

A text that is written plainly must count as a text when it is read, so the same classification
decides how texts are written.
-/

namespace Custody.Yaml

/-- What a plain scalar counts as. -/
inductive PlainType where
  | null | bool | int | decimal | timestamp | merge | default | reserved | text
deriving DecidableEq, Repr

/-- Whether all characters, of which there must be one, are digits or underscores of the given
kind. -/
def isRun (isDigit : Char → Bool) (text : List Char) : Bool :=
  !text.isEmpty && text.all fun c => isDigit c || c == '_'

/-- A text split at each of the given marks. -/
def splitAt {α : Type} [BEq α] (mark : α) : List α → List (List α)
  | [] => [[]]
  | c :: rest =>
    if c == mark then [] :: splitAt mark rest
    else
      match splitAt mark rest with
      | [] => [[c]]
      | part :: parts => (c :: part) :: parts

/-- Whether a text is a number below sixty of one or two digits. -/
def isSexagesimalDigit : List Char → Bool
  | [a] => a.isDigit
  | [a, b] => '0' ≤ a && a ≤ '5' && b.isDigit
  | _ => false

/-- Whether a text starts with a digit and holds only digits and underscores. -/
def isDigitRun (text : List Char) : Bool :=
  text.head?.any Char.isDigit && isRun Char.isDigit text

/-- Whether a text has the spelling of an integer. -/
def isInt (text : List Char) : Bool :=
  match Numeral.dropSign text with
  | '0' :: 'b' :: digits => isRun (fun c => c == '0' || c == '1') digits
  | '0' :: 'x' :: digits => isRun (fun c => (Hex.digit? c).isSome) digits
  | ['0'] => true
  | '0' :: digits => isRun (fun c => '0' ≤ c && c ≤ '7') digits
  | unsigned =>
    match splitAt ':' unsigned with
    | [] => false
    | first :: others =>
      isDigitRun first && first.head? != some '0' && others.all isSexagesimalDigit

/-- Whether a text is nothing or an exponent: the letter, a sign and digits. -/
def isExponent : List Char → Bool
  | [] => true
  | e :: sign :: digits =>
    (e == 'e' || e == 'E') && (sign == '-' || sign == '+') && !digits.isEmpty &&
      digits.all Char.isDigit
  | _ => false

/-- Whether a text is a fraction's digits, maybe none, and maybe an exponent. -/
def isFraction (text : List Char) : Bool :=
  isExponent (text.dropWhile fun c => c.isDigit || c == '_')

/-- Whether the parts of a text between colons are those of a sexagesimal number with a point. -/
def isSexagesimalDecimal : List (List Char) → Bool
  | [] | [_] => false
  | first :: others =>
    isDigitRun first && others.dropLast.all isSexagesimalDigit &&
      match splitAt '.' (others.getLast?.getD []) with
      | [whole, fraction] =>
        isSexagesimalDigit whole && fraction.all fun c => c.isDigit || c == '_'
      | _ => false

/-- Whether a text has the spelling of a number with a point. -/
def isDecimal (text : List Char) : Bool :=
  let unsigned := Numeral.dropSign text
  if ["inf", "Inf", "INF"].any fun word => unsigned == '.' :: word.toList then true
  else if ["nan", "NaN", "NAN"].any fun word => text == '.' :: word.toList then true
  else
    match text with
    | '.' :: digits => digits.head?.any Char.isDigit && isFraction digits
    | _ =>
      let whole := unsigned.takeWhile fun c => c.isDigit || c == '_'
      match unsigned.drop whole.length with
      | '.' :: fraction => isDigitRun whole && isFraction fraction
      | ':' :: _ => isSexagesimalDecimal (splitAt ':' unsigned)
      | _ => false

/-- The spellings of booleans, and what they count as. -/
def boolSpellings : List (String × Bool) :=
  [("yes", true), ("Yes", true), ("YES", true), ("no", false), ("No", false), ("NO", false),
   ("true", true), ("True", true), ("TRUE", true), ("false", false), ("False", false),
   ("FALSE", false), ("on", true), ("On", true), ("ON", true), ("off", false), ("Off", false),
   ("OFF", false)]

/-- The spellings of nothing. -/
def nullSpellings : List String :=
  ["", "~", "null", "Null", "NULL"]

/-- What a text counts as that ends in no line feed. -/
def PlainType.ofLine (text : List Char) : PlainType :=
  if boolSpellings.any fun (word, _) => word.toList == text then .bool
  else if isDecimal text then .decimal
  else if isInt text then .int
  else if text == ['<', '<'] then .merge
  else if nullSpellings.any fun word => word.toList == text then .null
  else if (readTimestamp false text).isSome then .timestamp
  else if text == ['='] then .default
  else if text == ['!'] || text == ['&'] || text == ['*'] then .reserved
  else .text

/-- A text without the line feed at its end. -/
def dropFinalBreak (text : List Char) : List Char :=
  if text.getLast? == some '\n' then text.dropLast else text

/-- What a scalar of the given text counts as if its type is that of its spelling. A line feed at
the end of a spelling does not matter. -/
def PlainType.of (text : List Char) : PlainType :=
  if text == ['\n'] then .text else ofLine (dropFinalBreak text)

end Custody.Yaml
