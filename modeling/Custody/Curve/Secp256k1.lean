import Custody.Bytes

/-!
# The curve secp256k1

Points of `y² = x³ + 7` over the field of `fieldPrime` elements. The prime is 3 modulo 4, so a
square has the root `a ^ ((p + 1) / 4)`; `liftX` takes that power of `x³ + 7` and, of the power and
its negative, the one of the asked parity. It does not ask whether `x³ + 7` is a square: `OnCurve`
is a condition of its own.
-/

namespace Custody.Secp256k1

/-- The prime `2²⁵⁶ - 2³² - 977`. -/
def fieldPrime : Nat :=
  0xfffffffffffffffffffffffffffffffffffffffffffffffffffffffefffffc2f

/-- The power `a ^ n % m` by square-and-multiply over the `bits` low bits of `n`. -/
def powMod (m : Nat) : (bits : Nat) → Nat → Nat → Nat
  | 0, _, _ => 1 % m
  | bits + 1, a, n =>
    let r := powMod m bits (a * a % m) (n / 2)
    if n % 2 = 1 then r * a % m else r

/-- Whether two coordinates below the prime satisfy the curve's equation. -/
def OnCurve (x y : Nat) : Prop :=
  x < fieldPrime ∧ y < fieldPrime ∧ y * y % fieldPrime = (x * x * x + 7) % fieldPrime

instance (x y : Nat) : Decidable (OnCurve x y) :=
  inferInstanceAs (Decidable (_ ∧ _ ∧ _))

/-- The candidate for the second coordinate over `x`: the root power of `x³ + 7`. -/
def rootOver (x : Nat) : Nat :=
  powMod fieldPrime 256 ((x * x * x + 7) % fieldPrime) ((fieldPrime + 1) / 4)

/-- Of the candidate over `x` and its negative, the one with the asked parity. -/
def liftX (x : Nat) (odd : Bool) : Nat :=
  let y := rootOver x
  if (y % 2 == 1) = odd then y else (fieldPrime - y) % fieldPrime

end Custody.Secp256k1
