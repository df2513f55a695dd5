import Custody.Decimal.Double
import Custody.Text.White

/-!
# Integers that are not written as such

Settings take a text or a number with a point for an integer if it is one. A text in normal form
has a sign only if it is a minus, and no zero before other digits (`readNormal`). Others are brought
into that form (`normalForm`): white space around them goes, and a point with zeros after it, a plus
sign, leading zeros, and single underscores between digits. Integers of more than `longestInteger`
digits are not read.
-/

namespace Custody.Settings

/-- Why something is no integer. -/
inductive IntegerFault where
  /-- A text that spells none. -/
  | unreadable
  /-- Too many digits, or too large. -/
  | oversized
  /-- A number with a fraction. -/
  | fractional
  /-- An infinity, or no number. -/
  | notFinite
deriving DecidableEq, Repr

/-- How many digits an integer may have. -/
def longestInteger : Nat := 4300

/-- Whether a text starts with a minus sign, and what follows it. -/
def splitMinus : List Char → Bool × List Char
  | '-' :: rest => (true, rest)
  | text => (false, text)

/-- Whether a character is a digit other than zero. -/
def isLeading (c : Char) : Bool :=
  '1' ≤ c && c ≤ '9'

/-- Whether a text starts with too many digits of an integer. -/
def isTooLong (unsigned : List Char) : Bool :=
  unsigned.head?.any isLeading && longestInteger < (unsigned.takeWhile Char.isDigit).length

/-- Whether a text is an integer in normal form but for its sign. -/
def isNormal (unsigned : List Char) : Bool :=
  unsigned == ['0'] || (unsigned.head?.any isLeading && unsigned.all Char.isDigit)

/-- The integer that a text spells in normal form. -/
def readNormal (text : List Char) : Except IntegerFault Int :=
  let (negative, unsigned) := splitMinus text
  if isTooLong unsigned then .error .oversized
  else if isNormal unsigned then
    let n := Int.ofNat (unsigned.foldl (fun n c => 10 * n + (c.toNat - '0'.toNat)) 0)
    .ok (if negative then -n else n)
  else .error .unreadable

/-- A text without a point and the zeros after it. -/
def dropZeroFraction (text : List Char) : List Char :=
  match text.dropWhile (· != '.') with
  | _ :: '0' :: zeros => if zeros.all (· == '0') then text.takeWhile (· != '.') else text
  | _ => text

/-- A text without a sign, and whether that was a minus. -/
def splitSign : List Char → Bool × List Char
  | '+' :: '-' :: rest => (false, '+' :: '-' :: rest)
  | '+' :: rest => (false, rest)
  | text => splitMinus text

/-- A text without leading zeros and the underscores between them; of zeros alone the last stays. -/
def dropZeros (text : List Char) : Option (List Char) :=
  if text.head?.any isLeading then some text
  else if text.head? != some '0' then none
  else
    match text.dropWhile fun c => c == '0' || c == '_' with
    | [] => some (text.getLast?.toList)
    | c :: rest => if isLeading c || c == '-' then some (c :: rest) else none

/-- Whether two underscores stand side by side. -/
def hasDoubleUnderscore : List Char → Bool
  | '_' :: '_' :: _ => true
  | _ :: rest => hasDoubleUnderscore rest
  | [] => false

/-- A text without its underscores, which have to stand alone between other characters. -/
def dropUnderscores (text : List Char) : Option (List Char) :=
  if text.head? == some '_' || text.getLast? == some '_' || hasDoubleUnderscore text then none
  else some (text.filter (· != '_'))

/-- The normal form of a text that spells an integer. -/
def normalForm (text : List Char) : Option (List Char) := do
  let (negative, unsigned) := splitSign (dropZeroFraction (trimBoth isWhite text))
  let digits ← dropZeros unsigned
  let digits ← dropUnderscores digits
  some (if negative then '-' :: digits else digits)

/-- The integer that a text spells. Only a text that is too long as it stands is so called. -/
def integerOfText (text : List Char) : Except IntegerFault Int :=
  match readNormal text with
  | .ok n => .ok n
  | .error .oversized => .error .oversized
  | .error _ =>
    match (normalForm text).map readNormal with
    | some (.ok n) => .ok n
    | _ => .error .unreadable

/-- Numbers with a point that are not below `2^63` are not taken for integers. -/
def doubleLimit : Nat := 0x8000000000000000

/-- The integer that a number with a point is. -/
def integerOfDouble (x : Double) : Except IntegerFault Int :=
  match x with
  | .infinite _ | .nan => .error .notFinite
  | .finite _ _ _ =>
    match x.toInt? with
    | none => .error .fractional
    | some n => if doubleLimit ≤ n.natAbs then .error .oversized else .ok n

end Custody.Settings
