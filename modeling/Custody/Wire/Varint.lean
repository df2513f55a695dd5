import Custody.Bytes

/-!
# Variable-length numbers

A number is written in groups of seven bits, the lowest first; every byte but the last has its top
bit set. `write` uses the fewest groups. `read` accepts more than it needs, up to a given number
of bytes, and returns what follows; what `write` produces is read back whatever follows it
(`read_write`).
-/

namespace Custody.Wire.Varint

/-- The shortest written form of a number. -/
def write (n : Nat) : Bytes :=
  if n < 128 then [UInt8.ofNat n] else UInt8.ofNat (n % 128 + 128) :: write (n / 128)

/-- The number at the front of the input, of at most `most` bytes, and what follows it. -/
def read : (most : Nat) → Bytes → Option (Nat × Bytes)
  | 0, _ => none
  | _ + 1, [] => none
  | most + 1, b :: rest =>
    if b < 128 then some (b.toNat, rest)
    else
      match read most rest with
      | none => none
      | some (high, rest) => some (b.toNat - 128 + 128 * high, rest)

/-- What is written reads back, if that many bytes may be read. -/
theorem read_write {n most : Nat} (h : (write n).length ≤ most) (rest : Bytes) :
    read most (write n ++ rest) = some (n, rest) := by
  induction most generalizing n with
  | zero =>
    unfold write at h
    split at h <;> simp at h
  | succ most ih =>
    unfold write at h ⊢
    split
    · next small =>
      have value : (UInt8.ofNat n).toNat = n := by rw [UInt8.toNat_ofNat']; omega
      have last : UInt8.ofNat n < 128 := UInt8.lt_iff_toNat_lt.2 (by rw [value]; exact small)
      simp [read, last, value]
    · next large =>
      have value : (UInt8.ofNat (n % 128 + 128)).toNat = n % 128 + 128 := by
        rw [UInt8.toNat_ofNat']; omega
      have more : ¬UInt8.ofNat (n % 128 + 128) < 128 := fun last =>
        absurd (value ▸ UInt8.lt_iff_toNat_lt.1 last) (Nat.not_lt.2 (Nat.le_add_left 128 _))
      rw [if_neg large] at h
      simp only [List.cons_append, read, if_neg more, value, ih (Nat.le_of_succ_le_succ h)]
      simp [Nat.mod_add_div]

/-- Reading a number takes at least one byte off the input. -/
theorem length_read {most : Nat} {input rest : Bytes} {n : Nat}
    (h : read most input = some (n, rest)) : rest.length < input.length := by
  induction most generalizing input rest n with
  | zero => simp [read] at h
  | succ most ih =>
    cases input with
    | nil => simp [read] at h
    | cons b tail =>
      simp only [read] at h
      split at h
      · simp only [Option.some.injEq, Prod.mk.injEq] at h
        simp [h.2]
      · split at h
        · simp at h
        · next high rest' eq =>
          simp only [Option.some.injEq, Prod.mk.injEq] at h
          obtain ⟨_, rfl⟩ := h
          exact Nat.lt_succ_of_lt (ih eq)

end Custody.Wire.Varint
