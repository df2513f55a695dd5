/-!
# Byte strings and the numbers they spell

A byte string is a list of bytes. Read with the most significant byte first it spells a natural
number, `Bytes.toNat`. Two functions write a number back: `Bytes.ofNat` uses the fewest bytes,
so that zero is the empty string and no other result starts with a zero byte, and
`Bytes.ofNatWide` uses a fixed number of bytes.
-/

namespace Custody

/-- A string of bytes. -/
abbrev Bytes := List UInt8

namespace Bytes

/-- The number a byte string spells, most significant byte first. -/
def toNat (bs : Bytes) : Nat :=
  bs.foldl (fun n b => n * 256 + b.toNat) 0

/-- The shortest byte string that spells a number; zero is the empty string. -/
def ofNat (n : Nat) : Bytes :=
  if n = 0 then [] else ofNat (n / 256) ++ [UInt8.ofNat n]

/-- The low bytes of a number, as many as `width` says, most significant first. -/
def ofNatWide : (width : Nat) → Nat → Bytes
  | 0, _ => []
  | width + 1, n => ofNatWide width (n / 256) ++ [UInt8.ofNat n]

/-- Zero is spelled by no bytes at all. -/
@[simp] theorem ofNat_zero : ofNat 0 = [] := by rw [ofNat]; rfl

/-- A wide spelling has exactly the width asked for. -/
@[simp] theorem length_ofNatWide (width n : Nat) : (ofNatWide width n).length = width := by
  induction width generalizing n with
  | zero => rfl
  | succ w ih => simp [ofNatWide, ih]

/-- The last byte of a string counts once, the bytes before it 256-fold. -/
theorem toNat_concat (bs : Bytes) (b : UInt8) : toNat (bs ++ [b]) = toNat bs * 256 + b.toNat := by
  simp [toNat, List.foldl_append]

/-- A shortest spelling reads back as the number. -/
@[simp] theorem toNat_ofNat (n : Nat) : toNat (ofNat n) = n := by
  induction n using Nat.strongRecOn with
  | ind n ih =>
    rw [ofNat]
    split
    · next h => rw [h]; rfl
    · next h =>
      rw [toNat_concat, ih (n / 256) (by omega), UInt8.toNat_ofNat']
      omega

/-- A wide spelling reads back as the number, reduced to that width. -/
theorem toNat_ofNatWide (width n : Nat) :
    toNat (ofNatWide width n) = n % 1 <<< (8 * width) := by
  induction width generalizing n with
  | zero => simp [ofNatWide, toNat, Nat.mod_one]
  | succ w ih =>
    have low : n % 1 <<< (8 * (w + 1)) = n % 256 + 256 * (n / 256 % 1 <<< (8 * w)) := by
      have split : 1 <<< (8 * (w + 1)) = 256 * 1 <<< (8 * w) := by
        simp only [Nat.shiftLeft_eq, Nat.mul_add, Nat.pow_add]
        omega
      rw [split, Nat.mod_mul]
    rw [ofNatWide, toNat_concat, ih, UInt8.toNat_ofNat', low]
    omega

end Bytes

end Custody
