/-!
# Doubles

A double is a number `m · 2^q` with `m` below `2^53` and `q` at least `-1074`, with a sign, or an
infinity, or no number. `Double.ofQuotient` is the double nearest to a quotient; of two that are
equally near it takes the one with the even `m`, and what is too large becomes infinite. Decimal
numbers are read so (`ofDecimal`), and sums and products are the exact ones rounded so.
-/

namespace Custody

/-- A number of double precision. -/
inductive Double where
  /-- The number `mantissa · 2^exponent`, negative if so marked. -/
  | finite (negative : Bool) (mantissa : Nat) (exponent : Int)
  | infinite (negative : Bool)
  | nan
deriving DecidableEq, Repr

namespace Double

/-- Zero. -/
def zero (negative : Bool) : Double :=
  .finite negative 0 (-1074)

/-- The quotient rounded to the nearest natural number, ties to the even one. -/
def divideToEven (numerator denominator : Nat) : Nat :=
  let q := numerator / denominator
  let twice := 2 * (numerator % denominator)
  if twice < denominator then q
  else if denominator < twice then q + 1
  else if q % 2 = 0 then q else q + 1

/-- The quotient `numerator / denominator` in units of `2^exponent`, as two natural numbers. -/
def scale (numerator denominator : Nat) (exponent : Int) : Nat × Nat :=
  if exponent < 0 then (numerator <<< exponent.natAbs, denominator)
  else (numerator, denominator <<< exponent.natAbs)

/-- The least exponent at which the quotient has at most 53 bits before it is rounded. -/
def exponentOf (numerator denominator : Nat) : Int :=
  let guess := Int.ofNat numerator.log2 - Int.ofNat denominator.log2 - 53
  let (n, d) := scale numerator denominator guess
  let fitting := if n < d <<< 53 then guess else guess + 1
  max fitting (-1074)

/-- The double nearest to a quotient, whose denominator is not zero. -/
def ofQuotient (negative : Bool) (numerator denominator : Nat) : Double :=
  if numerator = 0 then zero negative
  else
    let e := exponentOf numerator denominator
    let (n, d) := scale numerator denominator e
    let m := divideToEven n d
    let (m, e) := if m = 1 <<< 53 then (1 <<< 52, e + 1) else (m, e)
    if 971 < e then .infinite negative else .finite negative m e

/-- The double nearest to `mantissa · 2^exponent`. -/
def ofScaled (negative : Bool) (mantissa : Nat) (exponent : Int) : Double :=
  if exponent < 0 then ofQuotient negative mantissa (1 <<< exponent.natAbs)
  else ofQuotient negative (mantissa <<< exponent.natAbs) 1

/-- The double nearest to `mantissa · 10^exponent`. A number below `10^-400` is zero, and one from
`10^401` on is infinite, whatever its digits. -/
def ofDecimal (negative : Bool) (mantissa : Nat) (exponent : Int) : Double :=
  if mantissa = 0 ∨ exponent + Int.ofNat mantissa.log2 < -400 then zero negative
  else if 400 < exponent then .infinite negative
  else if exponent < 0 then ofQuotient negative mantissa (Nat.pow 10 exponent.natAbs)
  else ofQuotient negative (mantissa * Nat.pow 10 exponent.natAbs) 1

/-- The double nearest to a natural number. -/
def ofNat (n : Nat) : Double :=
  ofQuotient false n 1

/-- The number with the other sign. -/
def neg : Double → Double
  | .finite negative m e => .finite (!negative) m e
  | .infinite negative => .infinite (!negative)
  | .nan => .nan

/-- The product. -/
def mul : Double → Double → Double
  | .nan, _ | _, .nan => .nan
  | .infinite s, .infinite t => .infinite (s != t)
  | .infinite s, .finite t m _ | .finite s m _, .infinite t =>
    if m = 0 then .nan else .infinite (s != t)
  | .finite s m e, .finite t n f => ofScaled (s != t) (m * n) (e + f)

/-- The sum. -/
def add : Double → Double → Double
  | .nan, _ | _, .nan => .nan
  | .infinite s, .infinite t => if s = t then .infinite s else .nan
  | .infinite s, _ | _, .infinite s => .infinite s
  | .finite s m e, .finite t n f =>
    let low := min e f
    let first : Int := Int.ofNat (m <<< (e - low).toNat)
    let second : Int := Int.ofNat (n <<< (f - low).toNat)
    let sum := (if s then -first else first) + (if t then -second else second)
    if sum = 0 then zero (s && t) else ofScaled (sum < 0) sum.natAbs low

/-- The integer that a double is, if it is one. -/
def toInt? : Double → Option Int
  | .finite negative m e =>
    let magnitude : Option Nat :=
      if 0 ≤ e then some (m <<< e.natAbs)
      else
        let unit := 1 <<< e.natAbs
        if m % unit = 0 then some (m / unit) else none
    magnitude.map fun n => if negative then -Int.ofNat n else Int.ofNat n
  | .infinite _ | .nan => none

/-- Whether a double is zero, of either sign. -/
def isZero : Double → Bool
  | .finite _ m _ => m == 0
  | .infinite _ | .nan => false

end Double

end Custody
