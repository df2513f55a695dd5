import Custody.Text.Quoted

/-!
# Faults of YAML texts

Why a text has no value. Most texts fail because they do not have the form of a document; the other
causes are those of escapes and of scalars that count as a number, a boolean or a date.
-/

namespace Custody.Yaml

/-- Why a text has no value. -/
inductive Fault where
  /-- The text does not have the form of a document of values. -/
  | malformed
  /-- An escape gives a number above the last code point. -/
  | notACodePoint
  /-- An escape gives a number of more than 31 bits. -/
  | hugeEscape
  /-- A scalar that was marked as a boolean is none. -/
  | badBool (word : Text)
  /-- A scalar that counts as an integer has no digits of the base, or others. -/
  | badInteger (base : Nat) (text : Text)
  /-- A scalar that counts as an integer has more decimal digits than are allowed. -/
  | longInteger (most digits : Nat)
  /-- A scalar that was marked as a number with a point is none. -/
  | badDecimal (text : Text)
  /-- A number with a point has so many sexagesimal places that one weighs too much. -/
  | tooManyPlaces
  /-- A scalar that was marked as a number is empty. -/
  | emptyNumber
  /-- A scalar that was marked as a date is none. -/
  | notADate
  /-- A mapping was marked as a date. -/
  | mappingAsDate
  /-- A scalar that counts as a date gives one that there is not. -/
  | badDate (reason : String)
  /-- A collection contains itself where values are listed one by one. -/
  | endless
  /-- Nodes nest too deeply. -/
  | tooDeep
deriving DecidableEq, Repr

/-- How much of a text in quotes is shown where an integer was asked for. -/
def longestShown : Nat := 200

/-- The wording of a fault, for those that have one. -/
def Fault.message? : Fault → Option Text
  | .notACodePoint => some "chr() arg not in range(0x110000)"
  | .badBool word => some word
  | .badInteger base t =>
    some (.ofString ("invalid literal for int() with base " ++ toString base ++ ": " ++
      String.ofList (t.quoted.take longestShown)))
  | .longInteger most digits =>
    some (.ofString ("Exceeds the limit (" ++ toString most ++
      " digits) for integer string conversion: value has " ++ toString digits ++
      " digits; use sys.set_int_max_str_digits() to increase the limit"))
  | .badDecimal t =>
    some (.ofString ("could not convert string to float: " ++ String.ofList t.quoted))
  | .badDate reason => some reason
  | .malformed | .hugeEscape | .tooManyPlaces | .emptyNumber | .notADate | .mappingAsDate
  | .endless | .tooDeep => none

end Custody.Yaml
