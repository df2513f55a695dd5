import Custody.Decimal.Double
import Custody.Text.Basic
import Custody.Text.Digit
import Custody.Text.Hex
import Custody.Text.White

/-!
# Numerals

The numbers that texts spell, whatever the script of their digits and with white space around them:
integers in a base, with a sign and the base's marker if they like, and numbers with a point and an
exponent if they like, which may also be the words for infinity and for no number.

A process may limit how many digits the decimal numeral of an integer has, since long ones take long
to read and to write. The limit is `NumeralLimit.standard` unless another is set or it is turned
off. Integers in the bases 2, 8 and 16 are not limited.
-/

namespace Custody

/-- How many digits the decimal numeral of an integer may have. -/
class NumeralLimit where
  /-- The most digits, if there is a limit. -/
  most? : Option Nat

namespace NumeralLimit

/-- The limit that holds where no other is set. -/
@[reducible] def standard : NumeralLimit :=
  ⟨some 4300⟩

/-- No limit. -/
@[reducible] def off : NumeralLimit :=
  ⟨none⟩

/-- The limit, if a numeral of so many digits is beyond it. -/
def exceeded? [limit : NumeralLimit] (digits : Nat) : Option Nat :=
  limit.most?.filter (· < digits)

/-- An integer whose decimal numeral is within the limit. -/
def Admits [NumeralLimit] (n : Int) : Prop :=
  exceeded? (Nat.toDigits 10 n.natAbs).length = none

instance [NumeralLimit] (n : Int) : Decidable (Admits n) :=
  inferInstanceAs (Decidable (_ = _))

end NumeralLimit

namespace Numeral

/-- A text without a leading sign. -/
def dropSign (text : List Char) : List Char :=
  match text with
  | c :: rest => if c == '-' || c == '+' then rest else text
  | [] => []

/-- Whether a text starts with a minus sign. -/
def isNegative (text : List Char) : Bool :=
  text.head? == some '-'

/-- The character that a code point counts as in a numeral: a decimal digit of any script as that of
ASCII, white space as a space, and a question mark for what has no place in one. -/
def plainPoint : CodePoint → Char
  | .surrogate _ => '?'
  | .char c =>
    if c.toNat < 0x7f then c
    else if isWhite c then ' '
    else
      match decimalDigit? c with
      | some n => Char.ofNat ('0'.toNat + n)
      | none => '?'

/-- The characters that a text counts as in a numeral, without white space around them. -/
def plain (t : Text) : List Char :=
  trimBoth isAsciiWhite (t.points.map plainPoint)

/-- The value of a digit of a base. -/
def digit? (base : Nat) (c : Char) : Option Nat :=
  (Hex.digit? c).filter (· < base)

/-- The number that digits of a base spell; other characters count as zero. -/
def ofDigits (base : Nat) (digits : List Char) : Nat :=
  digits.foldl (fun n c => base * n + (digit? base c).getD 0) 0

/-- The letter that marks numerals of a base. -/
def marker? (base : Nat) : Option Char :=
  if base = 2 then some 'b' else if base = 8 then some 'o'
  else if base = 16 then some 'x' else none

/-- A numeral without the marker of its base. -/
def dropMarker (base : Nat) (unsigned : List Char) : List Char :=
  match unsigned with
  | '0' :: c :: rest => if some c.toLower = marker? base then rest else unsigned
  | _ => unsigned

/-- The integer that a text spells in a base. -/
def readInt (base : Nat) (t : Text) : Option Int :=
  let text := plain t
  let numeral := dropMarker base (dropSign text)
  if numeral.isEmpty || !numeral.all fun c => (digit? base c).isSome then none
  else
    let n := Int.ofNat (ofDigits base numeral)
    some (if isNegative text then -n else n)

/-- How many digits the decimal numeral has that a text starts with, but for a sign. -/
def digitCount (t : Text) : Nat :=
  ((dropSign (plain t)).takeWhile Char.isDigit).length

/-- An exponent: nothing, or its letter, a sign if it likes, and digits. -/
def readExponent : List Char → Option Int
  | [] => some 0
  | e :: exponent =>
    let digits := dropSign exponent
    if e.toLower != 'e' || digits.isEmpty || !digits.all Char.isDigit then none
    else
      let n := Int.ofNat (ofDigits 10 digits)
      some (if isNegative exponent then -n else n)

/-- The number that digits, maybe with a point and an exponent, spell. -/
def readDecimal (negative : Bool) (unsigned : List Char) : Option Double :=
  let whole := unsigned.takeWhile Char.isDigit
  let rest := unsigned.drop whole.length
  let fraction := match rest with
    | '.' :: digits => digits.takeWhile Char.isDigit
    | _ => []
  let rest := match rest with
    | '.' :: digits => digits.drop fraction.length
    | _ => rest
  if (whole ++ fraction).isEmpty then none
  else (readExponent rest).map fun exponent =>
    Double.ofDecimal negative (ofDigits 10 (whole ++ fraction)) (exponent - fraction.length)

/-- The number that a text spells, maybe with a point. -/
def readDouble (t : Text) : Option Double :=
  let text := plain t
  let negative := isNegative text
  let unsigned := dropSign text
  let word := String.ofList (unsigned.map Char.toLower)
  if word = "inf" ∨ word = "infinity" then some (.infinite negative)
  else if word = "nan" then some .nan
  else readDecimal negative unsigned

end Numeral

end Custody
