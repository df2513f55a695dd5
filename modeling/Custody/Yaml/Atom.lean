import Custody.Text.Base64
import Custody.Text.Lowercase
import Custody.Value
import Custody.Yaml.Fault
import Custody.Yaml.PlainType

/-!
# Values of scalars

An atom is the value of one scalar: `Atom.read` gives that of a text as a scalar of a type. Integers
and numbers with a point may be sexagesimal; the places of the latter are added up as doubles, the
lowest first.

Atoms serve as keys. Numbers and booleans of one value are one key (`Atom.sameKey`), and what is no
number is the same key as nothing else, except where its own spelling gives it.
-/

namespace Custody.Yaml

/-- The types of scalars that have values. -/
inductive ScalarType where
  | null | bool | int | decimal | binary | timestamp | text
deriving DecidableEq, Repr

/-- The value of a scalar. -/
inductive Atom where
  | null
  | bool (b : Bool)
  | int (n : Int)
  | decimal (x : Double)
  /-- What the spelling of no number gives. -/
  | noNumber
  | bytes (content : Bytes)
  | text (s : Text)
  /-- A date, by the number of days before it. -/
  | date (days : Nat)
  /-- A date and time of no zone, by the microseconds before it. -/
  | localTime (micros : Nat)
  /-- A date and time in universal time, by the microseconds before it. -/
  | instant (micros : Int)
deriving DecidableEq

namespace Atom

/-- The integer that a boolean or a number counts as, where a key is compared. -/
def asKey : Atom → Atom
  | .bool b => .int (if b then 1 else 0)
  | .decimal x =>
    match x.toInt? with
    | some n => .int n
    | none => .decimal x
  | a => a

/-- Whether two atoms are one key. -/
def sameKey (a b : Atom) : Bool :=
  a.asKey == b.asKey && a != .decimal .nan

/-- An atom as plain data. -/
def toValue : Atom → Value
  | .null => .null
  | .bool b => .bool b
  | .int n => .int n
  | .decimal x => .decimal x
  | .noNumber => .decimal .nan
  | .bytes content => .bytes content
  | .text s => .text s
  | .date _ | .localTime _ | .instant _ => .opaqueValue

/-! ## Numbers -/

/-- A text without underscores. -/
def withoutUnderscores (t : Text) : Text :=
  ⟨t.points.filter (· != .char '_')⟩

/-- Whether a text starts with a minus sign, and its code points after a sign. -/
def splitSign (t : Text) : Bool × List CodePoint :=
  match t.points with
  | .char '-' :: rest => (true, rest)
  | .char '+' :: rest => (false, rest)
  | points => (false, points)

/-- The integer that code points spell in a base. Digits count for the limit whatever follows them.
-/
def intOfBase [NumeralLimit] (base : Nat) (points : List CodePoint) : Except Fault Int :=
  let digits := if base = 10 then Numeral.digitCount ⟨points⟩ else 0
  match NumeralLimit.exceeded? digits with
  | some most => .error (.longInteger most digits)
  | none =>
    match Numeral.readInt base ⟨points⟩ with
    | some n => .ok n
    | none => .error (.badInteger base ⟨points⟩)

/-- The number with the given sexagesimal digits, the highest first. -/
def ofSexagesimal (digits : List Int) : Int :=
  digits.foldl (fun n d => 60 * n + d) 0

/-- The integer that a text spells. -/
def readInt [NumeralLimit] (t : Text) : Except Fault Int := do
  let (negative, unsigned) := splitSign (withoutUnderscores t)
  let magnitude ←
    match unsigned with
    | [] => .error .emptyNumber
    | [.char '0'] => .ok 0
    | .char '0' :: .char 'b' :: digits => intOfBase 2 digits
    | .char '0' :: .char 'x' :: digits => intOfBase 16 digits
    | .char '0' :: _ => intOfBase 8 unsigned
    | _ => ofSexagesimal <$> (splitAt (.char ':') unsigned).mapM (intOfBase 10)
  .ok (if negative then -magnitude else magnitude)

/-- The number with a point that code points spell. -/
def doubleOf (points : List CodePoint) : Except Fault Double :=
  match Numeral.readDouble ⟨points⟩ with
  | some x => .ok x
  | none => .error (.badDecimal ⟨points⟩)

/-- The sum of sexagesimal places, the lowest first, and what was summed so far; `weight` is that
of the first place. -/
def weigh (weight : Nat) (sum : Double) : List Double → Except Fault Double
  | [] => .ok sum
  | place :: rest =>
    match Double.ofNat weight with
    | .infinite _ => .error .tooManyPlaces
    | factor => weigh (60 * weight) (sum.add (place.mul factor)) rest

/-- The number with a point that a text spells. -/
def readDecimal (t : Text) : Except Fault Atom := do
  let spelled := (withoutUnderscores t).lowercase
  let (negative, unsigned) := splitSign spelled
  if spelled.isEmpty then .error .emptyNumber
  else if unsigned = (Text.ofString ".inf").points then .ok (.decimal (.infinite negative))
  else if unsigned = (Text.ofString ".nan").points then .ok .noNumber
  else
    let magnitude ←
      if unsigned.contains (.char ':') then do
        let places ← (splitAt (.char ':') unsigned).mapM doubleOf
        weigh 1 (.zero false) places.reverse
      else doubleOf unsigned
    .ok (.decimal (if negative then magnitude.neg else magnitude))

/-! ## Other scalars -/

/-- The boolean that a text spells, in any case. -/
def readBool (t : Text) : Except Fault Bool :=
  let word := t.lowercase
  match boolSpellings.find? fun (spelling, _) => Text.ofString spelling == word with
  | some (_, b) => .ok b
  | none => .error (.badBool word)

/-- The bytes that a text spells. -/
def readBytes (t : Text) : Except Fault Bytes :=
  match t.chars?.bind fun cs => if cs.all (·.toNat < 0x80) then Base64.decode? cs else none with
  | some content => .ok content
  | none => .error .malformed

/-- A timestamp that there is. -/
def ofTimestamp (t : Timestamp) : Atom :=
  match t.time with
  | none => .date t.dayNumber
  | some time =>
    match time.zone with
    | none => .localTime (t.microsBefore time)
    | some zone => .instant (t.instant time zone)

/-- The date or time that a text spells. -/
def readDate (t : Text) : Except Fault Atom :=
  match t.chars?.bind fun cs => readTimestamp true (dropFinalBreak cs) with
  | none => .error .notADate
  | some stamp =>
    match stamp.reason? with
    | some reason => .error (.badDate reason)
    | none => .ok (ofTimestamp stamp)

/-- The value of a text as a scalar of a type. -/
def read [NumeralLimit] (type : ScalarType) (t : Text) : Except Fault Atom :=
  match type with
  | .null => .ok .null
  | .bool => (readBool t).map .bool
  | .int => (readInt t).map .int
  | .decimal => readDecimal t
  | .binary => (readBytes t).map .bytes
  | .timestamp => readDate t
  | .text => .ok (.text t)

end Atom

end Custody.Yaml
