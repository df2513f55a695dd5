import Custody.Proofs.Curve.FieldPrime
import Mathlib.NumberTheory.LegendreSymbol.Basic

/-!
# What lies over a first coordinate

For a prime `p` of the form `4 k + 3`, the power `a ^ ((p + 1) / 4)` is a square root of `a` if `a`
has one, and of `-a` otherwise (`sq_pow_quarter`); one of the two always has, and if both have, they
are zero. So the power and its negative are all the numbers whose square is `a` or `-a`
(`sq_eq_or_eq_neg_iff`).

For the curve this says what `liftX` gives. Over every `x` it gives a second coordinate of the asked
parity (`liftX_parity`), for `x³ + 7` is never zero (`cubic_ne_zero`). With it `x` is on the curve
or on its twist, `- y² = x³ + 7`, and every such coordinate is given (`exists_liftX_eq_iff`). Which
of the two it is, is decided by `x` alone (`onCurve_iff_exists`).
-/

namespace Custody.Secp256k1

/-! ## Square roots modulo a prime -/

section Prime

variable {p : ℕ} [Fact p.Prime]

/-- Squares that are negatives of each other are zero. -/
theorem eq_zero_of_sq_eq_neg_sq (residue : p % 4 = 3) {x y : ZMod p} (opposite : x ^ 2 = -y ^ 2) :
    x = 0 ∧ y = 0 := by
  have zero : y = 0 := by
    by_contra nonzero
    exact ZMod.mod_four_ne_three_of_sq_eq_neg_sq' nonzero opposite residue
  rw [zero, zero_pow two_ne_zero, neg_zero] at opposite
  exact ⟨pow_eq_zero_iff two_ne_zero |>.1 opposite, zero⟩

/-- The power is a square root of the number or of its negative. -/
theorem sq_pow_quarter (residue : p % 4 = 3) (a : ZMod p) :
    (a ^ ((p + 1) / 4)) ^ 2 = a ∨ (a ^ ((p + 1) / 4)) ^ 2 = -a := by
  -- The square of the power is the number times its Legendre symbol.
  have exponent : (p + 1) / 4 * 2 = p / 2 + 1 := by omega
  rw [← pow_mul, exponent, pow_succ]
  by_cases zero : a = 0
  · left
    rw [zero, mul_zero]
  · rcases ZMod.pow_div_two_eq_neg_one_or_one p zero with square | other
    · left
      rw [square, one_mul]
    · right
      rw [other, neg_one_mul]

/-- The square roots of a number and of its negative are the power and its negative. -/
theorem sq_eq_or_eq_neg_iff (residue : p % 4 = 3) {a y : ZMod p} :
    y ^ 2 = a ∨ y ^ 2 = -a ↔ y = a ^ ((p + 1) / 4) ∨ y = -a ^ ((p + 1) / 4) := by
  have root := sq_pow_quarter residue a
  generalize a ^ ((p + 1) / 4) = r at root ⊢
  -- Only zero has square roots of both signs, so there is no third root.
  have opposite : y ^ 2 = -r ^ 2 → y = r ∨ y = -r := fun opposite => by
    obtain ⟨rfl, rfl⟩ := eq_zero_of_sq_eq_neg_sq residue opposite
    exact .inl rfl
  constructor
  · intro square
    rcases root with root | root <;> rcases square with square | square
    · exact sq_eq_sq_iff_eq_or_eq_neg.1 (square.trans root.symm)
    · exact opposite (by rw [square, root])
    · exact opposite (by rw [square, root, neg_neg])
    · exact sq_eq_sq_iff_eq_or_eq_neg.1 (square.trans root.symm)
  · rintro (rfl | rfl)
    · exact root
    · rwa [neg_sq]

/-- If a number has a square root, then the square roots of its negative are its own. -/
theorem sq_eq_of_exists_sq (residue : p % 4 = 3) {a y : ZMod p} (square : ∃ z : ZMod p, z ^ 2 = a)
    (root : y ^ 2 = a ∨ y ^ 2 = -a) : y ^ 2 = a := by
  obtain ⟨z, rfl⟩ := square
  rcases root with root | root
  · exact root
  · obtain ⟨rfl, rfl⟩ := eq_zero_of_sq_eq_neg_sq residue root
    rfl

end Prime

/-! ## The curve and its twist -/

instance : Fact fieldPrime.Prime := ⟨prime_fieldPrime⟩

/-- The prime has the form `4 k + 3`. -/
theorem fieldPrime_mod_four : fieldPrime % 4 = 3 := by decide

/-- Two coordinates satisfy the curve's equation, whatever their size. -/
def Equation (x y : ℕ) : Prop :=
  y * y % fieldPrime = (x * x * x + 7) % fieldPrime

/-- Two coordinates satisfy the equation of the curve's twist, `- y² = x³ + 7`. -/
def TwistEquation (x y : ℕ) : Prop :=
  (y * y + (x * x * x + 7)) % fieldPrime = 0

/-- The curve's equation in the field. -/
theorem equation_iff {x y : ℕ} :
    Equation x y ↔ (y : ZMod fieldPrime) ^ 2 = ((x * x * x + 7 : ℕ) : ZMod fieldPrime) := by
  rw [Equation, ← ZMod.natCast_eq_natCast_iff', Nat.cast_mul, pow_two]

/-- The twist's equation in the field. -/
theorem twistEquation_iff {x y : ℕ} :
    TwistEquation x y ↔
      (y : ZMod fieldPrime) ^ 2 = -((x * x * x + 7 : ℕ) : ZMod fieldPrime) := by
  rw [TwistEquation, ← Nat.dvd_iff_mod_eq_zero, ← ZMod.natCast_eq_zero_iff, Nat.cast_add,
    Nat.cast_mul, ← pow_two, eq_neg_iff_add_eq_zero]

/-- The candidate over a first coordinate is the root power. -/
theorem rootOver_cast (x : ℕ) :
    (rootOver x : ZMod fieldPrime) =
      ((x * x * x + 7 : ℕ) : ZMod fieldPrime) ^ ((fieldPrime + 1) / 4) := by
  have fits : (fieldPrime + 1) / 4 < 2 ^ 256 := by decide
  rw [rootOver, powMod_eq fits, ZMod.natCast_mod, Nat.cast_pow, ZMod.natCast_mod]

/-- The candidate is a remainder. -/
theorem rootOver_lt (x : ℕ) : rootOver x < fieldPrime := by
  have fits : (fieldPrime + 1) / 4 < 2 ^ 256 := by decide
  rw [rootOver, powMod_eq fits]
  exact Nat.mod_lt _ prime_fieldPrime.pos

/-- No first coordinate has the second coordinate zero over it, for `-7` is no cube. -/
theorem cubic_ne_zero (x : ℕ) : ((x * x * x + 7 : ℕ) : ZMod fieldPrime) ≠ 0 := by
  intro zero
  have cube : (x : ZMod fieldPrime) ^ 3 = ((fieldPrime - 7 : ℕ) : ZMod fieldPrime) := by
    rw [Nat.cast_sub (by decide), ZMod.natCast_self, zero_sub, eq_neg_iff_add_eq_zero, ← zero]
    push_cast
    ring
  have nonzero : (x : ZMod fieldPrime) ≠ 0 := by
    intro eq
    rw [eq, zero_pow three_ne_zero, eq_comm, ZMod.natCast_eq_zero_iff] at cube
    exact absurd (Nat.le_of_dvd (by decide) cube) (by decide)
  -- By Fermat's theorem a third of the exponent is enough for a cube; it is not for `-7`.
  have third : (fieldPrime - 7) ^ ((fieldPrime - 1) / 3) % fieldPrime = 1 := by
    have exponent : 3 * ((fieldPrime - 1) / 3) = fieldPrime - 1 := by decide
    rw [← pow_eq_one_iff prime_fieldPrime.one_lt, ← cube, ← pow_mul, exponent]
    exact ZMod.pow_card_sub_one_eq_one nonzero
  have fits : (fieldPrime - 1) / 3 < 2 ^ 256 := by decide
  rw [← powMod_eq fits] at third
  exact absurd third (by decide +kernel)

/-- The candidate is not zero. -/
theorem rootOver_pos (x : ℕ) : 0 < rootOver x := by
  have nonzero : (rootOver x : ZMod fieldPrime) ≠ 0 := by
    rw [rootOver_cast]
    exact pow_ne_zero _ (cubic_ne_zero x)
  refine Nat.pos_of_ne_zero fun zero => nonzero ?_
  rw [zero, Nat.cast_zero]

/-- The coordinate over `x` is the candidate or what it lacks of the prime. -/
theorem liftX_eq (x : ℕ) (odd : Bool) :
    liftX x odd = if (rootOver x % 2 == 1) = odd then rootOver x else fieldPrime - rootOver x := by
  have small : fieldPrime - rootOver x < fieldPrime :=
    Nat.sub_lt prime_fieldPrime.pos (rootOver_pos x)
  rw [liftX, Nat.mod_eq_of_lt small]

/-- The coordinate over `x` has the asked parity, for the prime is odd. -/
theorem liftX_parity (x : ℕ) (odd : Bool) : (liftX x odd % 2 == 1) = odd := by
  have below := rootOver_lt x
  have prime_odd : fieldPrime % 2 = 1 := by decide
  rw [liftX_eq]
  split
  case isTrue same => exact same
  case isFalse other =>
    have flipped : (fieldPrime - rootOver x) % 2 = 1 ↔ ¬ rootOver x % 2 = 1 := by omega
    cases odd <;> simp_all

/-- The candidate and what it lacks of the prime are the coordinates over `x` of the two parities.
-/
theorem exists_liftX_iff {x y : ℕ} :
    (∃ odd, liftX x odd = y) ↔ y = rootOver x ∨ y = fieldPrime - rootOver x := by
  simp only [liftX_eq]
  constructor
  · rintro ⟨odd, rfl⟩
    exact ite_eq_or_eq _ _ _
  · rintro (rfl | rfl)
    · exact ⟨_, if_pos rfl⟩
    · exact ⟨!(rootOver x % 2 == 1), if_neg (by simp)⟩

/-- The coordinates over `x` are the remainders with which `x` is on the curve or on its twist. -/
theorem exists_liftX_eq_iff {x y : ℕ} :
    (∃ odd, liftX x odd = y) ↔ y < fieldPrime ∧ (Equation x y ∨ TwistEquation x y) := by
  have below := rootOver_lt x
  have pos := rootOver_pos x
  rw [exists_liftX_iff, equation_iff, twistEquation_iff,
    sq_eq_or_eq_neg_iff fieldPrime_mod_four, ← rootOver_cast]
  have negative : -(rootOver x : ZMod fieldPrime) = ((fieldPrime - rootOver x : ℕ) : ZMod _) := by
    rw [Nat.cast_sub below.le, ZMod.natCast_self, zero_sub]
  -- Both candidates are remainders already, so they are told apart as numbers.
  rw [negative, ZMod.natCast_eq_natCast_iff', ZMod.natCast_eq_natCast_iff',
    Nat.mod_eq_of_lt below, Nat.mod_eq_of_lt (Nat.sub_lt prime_fieldPrime.pos pos)]
  constructor
  · rintro (rfl | rfl)
    · exact ⟨below, .inl (Nat.mod_eq_of_lt below)⟩
    · have small := Nat.sub_lt prime_fieldPrime.pos pos
      exact ⟨small, .inr (Nat.mod_eq_of_lt small)⟩
  · rintro ⟨small, root⟩
    rwa [Nat.mod_eq_of_lt small] at root

/-- The coordinate over `x` with the parity of `y` is `y` itself exactly if `y` is a remainder with
which `x` is on the curve or on its twist. -/
theorem liftX_parity_eq_iff {x y : ℕ} :
    liftX x (y % 2 == 1) = y ↔ y < fieldPrime ∧ (Equation x y ∨ TwistEquation x y) := by
  rw [← exists_liftX_eq_iff]
  constructor
  · exact fun lifted => ⟨_, lifted⟩
  · rintro ⟨odd, rfl⟩
    rw [liftX_parity]

/-- A coordinate over `x` is on the curve, not on the twist, exactly if the curve has a point with
first coordinate `x`. -/
theorem onCurve_iff_exists {x y : ℕ} (small : y < fieldPrime)
    (either : Equation x y ∨ TwistEquation x y) : OnCurve x y ↔ ∃ z, OnCurve x z := by
  constructor
  · exact fun onCurve => ⟨y, onCurve⟩
  · rintro ⟨z, below, -, point⟩
    have square := equation_iff.1 (show Equation x z from point)
    rw [equation_iff, twistEquation_iff] at either
    have root := sq_eq_of_exists_sq fieldPrime_mod_four ⟨_, square⟩ either
    exact ⟨below, small, equation_iff.2 root⟩

end Custody.Secp256k1
