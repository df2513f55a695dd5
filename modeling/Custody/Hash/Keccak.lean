import Custody.Bytes

/-!
# Keccak-256

The sponge over the permutation Keccak-f[1600] with a rate of 136 bytes, the padding
`1 0 … 0 1`, and an output of 32 bytes. The state is 25 words of 64 bits, the word in column `x`
and row `y` at index `x + 5 y`; bytes fill words from the low end.
-/

namespace Custody.Keccak

/-- The 25 words of the state, row by row. -/
abbrev State := Vector UInt64 25

/-- The word in column `x` and row `y`, both taken modulo 5. -/
def State.word (s : State) (x y : Nat) : UInt64 :=
  s.get ⟨x % 5 + 5 * (y % 5), by omega⟩

/-- The state whose word in column `x` and row `y` is `f x y`. -/
def State.build (f : Nat → Nat → UInt64) : State :=
  Vector.ofFn fun i : Fin 25 => f (i.val % 5) (i.val / 5)

/-- A word turned left by `n` bits, `n` below 64. -/
def rotateLeft (w : UInt64) (n : Nat) : UInt64 :=
  if n = 0 then w else w <<< UInt64.ofNat n ||| w >>> UInt64.ofNat (64 - n)

/-- By how much each word is turned, row by row. -/
def offsets : Vector Nat 25 := #v[0, 1, 62, 28, 27, 36, 44, 6, 55, 20, 3, 10, 43, 25, 39, 41, 45,
  15, 21, 8, 18, 2, 61, 56, 14]

/-- The constants of the 24 rounds. -/
def roundConstants : List UInt64 :=
  [0x0000000000000001, 0x0000000000008082, 0x800000000000808a, 0x8000000080008000,
   0x000000000000808b, 0x0000000080000001, 0x8000000080008081, 0x8000000000008009,
   0x000000000000008a, 0x0000000000000088, 0x0000000080008009, 0x000000008000000a,
   0x000000008000808b, 0x800000000000008b, 0x8000000000008089, 0x8000000000008003,
   0x8000000000008002, 0x8000000000000080, 0x000000000000800a, 0x800000008000000a,
   0x8000000080008081, 0x8000000000008080, 0x0000000080000001, 0x8000000080008008]

/-- Each word is mixed with the parities of two columns. -/
def theta (s : State) : State :=
  let parity : Vector UInt64 5 := Vector.ofFn fun x : Fin 5 =>
    s.word x 0 ^^^ s.word x 1 ^^^ s.word x 2 ^^^ s.word x 3 ^^^ s.word x 4
  let mix : Vector UInt64 5 := Vector.ofFn fun x : Fin 5 =>
    parity[(x.val + 4) % 5] ^^^ rotateLeft (parity[(x.val + 1) % 5]) 1
  Vector.ofFn fun i : Fin 25 => s[i] ^^^ mix[i.val % 5]

/-- Words are turned and moved to their new places. -/
def rhoPi (s : State) : State :=
  State.build fun x y =>
    let source := (x + 3 * y) % 5 + 5 * x
    if h : source < 25 then rotateLeft s[source] offsets[source] else 0

/-- Each word is mixed with the two to its right. -/
def chi (s : State) : State :=
  State.build fun x y => s.word x y ^^^ (~~~ (s.word (x + 1) y) &&& s.word (x + 2) y)

/-- One round with its constant. -/
def round (s : State) (constant : UInt64) : State :=
  let t := chi (rhoPi (theta s))
  t.set 0 (t[0] ^^^ constant)

/-- The permutation: all 24 rounds. -/
def permute (s : State) : State :=
  roundConstants.foldl round s

/-- The number of bytes taken in per permutation. -/
def rate : Nat := 136

/-- Padding bytes that fill a message of the given length to a multiple of the rate. -/
def padding (length : Nat) : Bytes :=
  let missing := rate - length % rate
  if missing = 1 then [0x81] else 0x01 :: List.replicate (missing - 2) 0 ++ [0x80]

/-- The word that eight bytes spell, least significant first. -/
def wordOfBytes (bs : Bytes) : UInt64 :=
  bs.foldr (fun b w => w <<< 8 ||| b.toUInt64) 0

/-- The eight bytes of a word, least significant first. -/
def bytesOfWord (w : UInt64) : Bytes :=
  (List.range 8).map fun i => (w >>> UInt64.ofNat (8 * i)).toUInt8

/-- A block of bytes mixed into the front of the state. -/
def absorbBlock (s : State) (block : Bytes) : State :=
  permute (Vector.ofFn fun i : Fin 25 => s[i] ^^^ wordOfBytes ((block.drop (8 * i.val)).take 8))

/-- Blocks of a padded message taken in one after the other. -/
def absorb : (blocks : Nat) → State → Bytes → State
  | 0, s, _ => s
  | n + 1, s, bs => absorb n (absorbBlock s (bs.take rate)) (bs.drop rate)

/-- The Keccak-256 digest: 32 bytes. -/
def keccak256 (message : Bytes) : Bytes :=
  let padded := message ++ padding message.length
  let final := absorb (padded.length / rate) (Vector.replicate 25 0) padded
  (final.toList.take 4).flatMap bytesOfWord

end Custody.Keccak
