import Custody.Curve.Secp256k1
import Mathlib.NumberTheory.LucasPrimality
import Mathlib.Tactic.NormNum.Prime

/-!
# The order of the field is prime

That `fieldPrime` is prime is what makes a power of `a` a square root of `a`. `prime_fieldPrime`
proves it by Lucas's test: `p` is prime if some `a` has `a ^ (p - 1) = 1` modulo `p`, and no
`a ^ ((p - 1) / q) = 1` for a prime factor `q` of `p - 1`. The larger prime factors pass the test in
turn, down to factors that trial division settles. The powers are those of `powMod`, which
`powMod_eq` shows to be the powers that it is named for; the kernel evaluates them.
-/

namespace Custody.Secp256k1

/-- Square-and-multiply computes the power, if the exponent fits the bits. -/
theorem powMod_eq {m bits a n : ℕ} (fits : n < 2 ^ bits) : powMod m bits a n = a ^ n % m := by
  induction bits generalizing a n with
  | zero =>
    have zero : n = 0 := by omega
    rw [zero, powMod, pow_zero]
  | succ bits ih =>
    have half : n / 2 < 2 ^ bits := by
      rw [pow_succ] at fits
      omega
    have square : powMod m bits (a * a % m) (n / 2) = a ^ (2 * (n / 2)) % m := by
      rw [ih half, ← Nat.pow_mod, pow_mul, pow_two]
    have split := Nat.div_add_mod n 2
    rw [powMod]
    simp only [square]
    rcases Nat.mod_two_eq_zero_or_one n with even | odd
    · rw [if_neg (by omega)]
      congr 2
      omega
    · rw [if_pos odd, Nat.mod_mul_mod, ← pow_succ]
      congr 2
      omega

/-- A power is one in the integers modulo `p` exactly if its remainder is. -/
theorem pow_eq_one_iff {p a n : ℕ} (large : 1 < p) :
    (a : ZMod p) ^ n = 1 ↔ a ^ n % p = 1 := by
  rw [← Nat.cast_pow, ← Nat.cast_one, ZMod.natCast_eq_natCast_iff', Nat.mod_eq_of_lt large]

/-- Lucas's test of a number of at most 256 bits, with a base and the factors of its predecessor. -/
def passesLucas (p base : ℕ) (factors : List ℕ) : Bool :=
  1 < p && p < 2 ^ 256 && factors.prod == p - 1 && powMod p 256 base (p - 1) == 1 &&
    factors.all fun q => powMod p 256 base ((p - 1) / q) != 1

/-- A number that passes Lucas's test is prime, if the factors are. -/
theorem prime_of_passesLucas {p : ℕ} (base : ℕ) (factors : List ℕ)
    (primes : ∀ q ∈ factors, q.Prime) (passes : passesLucas p base factors = true) : p.Prime := by
  simp only [passesLucas, Bool.and_eq_true, decide_eq_true_eq, beq_iff_eq, List.all_eq_true,
    bne_iff_ne, ne_eq] at passes
  obtain ⟨⟨⟨⟨large, small⟩, product⟩, full⟩, proper⟩ := passes
  have power : ∀ n ≤ p - 1, powMod p 256 base n = base ^ n % p := fun n le =>
    powMod_eq (by omega)
  refine lucas_primality p base ?_ fun q prime divides => ?_
  · rw [pow_eq_one_iff large, ← power _ le_rfl]
    exact full
  · -- The factors are all the primes that divide their product.
    have mem : q ∈ factors := by
      rw [← product] at divides
      obtain ⟨f, mem, divides⟩ := (Prime.dvd_prod_iff prime.prime).1 divides
      rwa [(Nat.prime_dvd_prime_iff_eq prime (primes f mem)).1 divides]
    rw [ne_eq, pow_eq_one_iff large, ← power _ (Nat.div_le_self _ _)]
    exact proper q mem

/-- The order of the field is prime. -/
theorem prime_fieldPrime : fieldPrime.Prime := by
  -- Each of the numbers is a factor of the predecessor of one further down.
  have prime₁ : Nat.Prime 173378833005251801 :=
    prime_of_passesLucas 6 [2, 2, 2, 5, 5, 2621, 24809, 13331831] (by norm_num) (by decide +kernel)
  have prime₂ : Nat.Prime 22149492674086928081353 :=
    prime_of_passesLucas 5 [2, 2, 2, 3, 5323, 173378833005251801]
      (by simp only [List.forall_mem_cons, prime₁]; norm_num) (by decide +kernel)
  have prime₃ : Nat.Prime 132896956044521568488119 :=
    prime_of_passesLucas 6 [2, 3, 22149492674086928081353]
      (by simp only [List.forall_mem_cons, prime₂]; norm_num) (by decide +kernel)
  have prime₄ : Nat.Prime 255515944373312847190720520512484175977 :=
    prime_of_passesLucas 3
      [2, 2, 2, 7, 7, 11, 1627, 2657, 4423, 41201, 96557, 7240687, 107590001]
      (by norm_num) (by decide +kernel)
  have prime₅ : Nat.Prime
      205115282021455665897114700593932402728804164701536103180137503955397371 :=
    prime_of_passesLucas 10 [2, 3, 5, 29, 29, 31, 7723, 132896956044521568488119,
      255515944373312847190720520512484175977]
      (by simp only [List.forall_mem_cons, prime₃, prime₄]; norm_num) (by decide +kernel)
  exact prime_of_passesLucas 3
    [2, 3, 7, 13441, 205115282021455665897114700593932402728804164701536103180137503955397371]
    (by simp only [List.forall_mem_cons, prime₅]; norm_num) (by decide +kernel)

end Custody.Secp256k1
