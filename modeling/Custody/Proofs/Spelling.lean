import Custody.Bytes
import Mathlib.Data.List.Induction
import Mathlib.Tactic.NormNum
import Mathlib.Tactic.Ring

/-!
# Numbers spelled by bytes

What readers of written numbers need of the two spellings of `Custody/Bytes.lean`. A shortest
spelling never starts with a zero byte (`head?_ofNat`), every string that does not is one
(`ofNat_toNat`), and it is no longer than the number's size asks for (`length_ofNat_le`). A spelling
of fixed width and the number it spells determine each other, as long as the number fits
(`toNat_ofNatWide_of_lt`, `ofNatWide_toNat`).
-/

namespace Custody.Bytes

/-- The first byte of a string counts 256-fold for each byte after it. -/
theorem toNat_cons (b : UInt8) (bs : Bytes) :
    toNat (b :: bs) = b.toNat * 256 ^ bs.length + toNat bs := by
  induction bs using List.reverseRecOn with
  | nil => simp [toNat]
  | append_singleton init last ih =>
    rw [← List.cons_append, toNat_concat, toNat_concat, ih, List.length_append,
      List.length_singleton, pow_succ]
    ring

/-- A string of so many bytes spells a number below that power of 256. -/
theorem toNat_lt (bs : Bytes) : toNat bs < 256 ^ bs.length := by
  induction bs with
  | nil => simp [toNat]
  | cons b bs ih =>
    have byte : b.toNat + 1 ≤ 256 := b.toNat_lt
    calc toNat (b :: bs) = b.toNat * 256 ^ bs.length + toNat bs := toNat_cons b bs
      _ < b.toNat * 256 ^ bs.length + 256 ^ bs.length := Nat.add_lt_add_left ih _
      _ = (b.toNat + 1) * 256 ^ bs.length := by ring
      _ ≤ 256 * 256 ^ bs.length := Nat.mul_le_mul_right _ byte
      _ = 256 ^ (b :: bs).length := by rw [List.length_cons, pow_succ, mul_comm]

/-- A number that is not zero is spelled by its 256th part and its last byte. -/
theorem ofNat_of_ne_zero {n : Nat} (h : n ≠ 0) :
    ofNat n = ofNat (n / 256) ++ [UInt8.ofNat n] := by
  rw [ofNat, if_neg h]

/-- Only zero is spelled by no bytes. -/
theorem ofNat_eq_nil_iff {n : Nat} : ofNat n = [] ↔ n = 0 := by
  constructor
  · intro h
    rw [← toNat_ofNat n, h]
    rfl
  · rintro rfl
    exact ofNat_zero

/-- A shortest spelling does not start with a zero byte. -/
theorem head?_ofNat (n : Nat) : (ofNat n).head? ≠ some 0 := by
  induction n using Nat.strongRecOn with
  | ind n ih =>
    rcases Nat.eq_zero_or_pos n with rfl | pos
    · simp
    · rw [ofNat_of_ne_zero pos.ne']
      rcases Nat.eq_zero_or_pos (n / 256) with small | large
      · -- The one byte of a number below 256 is the number itself.
        have below : n < 256 := by omega
        rw [small, ofNat_zero, List.nil_append, List.head?_cons]
        intro zero
        have spelled : (UInt8.ofNat n).toNat = n := by rw [UInt8.toNat_ofNat']; omega
        rw [Option.some.inj zero] at spelled
        exact absurd spelled (by simpa using pos.ne)
      · have nonempty : ofNat (n / 256) ≠ [] := fun h => large.ne' (ofNat_eq_nil_iff.1 h)
        obtain ⟨first, rest, eq⟩ := List.exists_cons_of_ne_nil nonempty
        have first_ne := ih (n / 256) (by omega)
        rw [eq] at first_ne ⊢
        exact first_ne

/-- A string that does not start with a zero byte is the shortest spelling of the number that it
spells. -/
theorem ofNat_toNat {bs : Bytes} (unpadded : bs.head? ≠ some 0) : ofNat (toNat bs) = bs := by
  induction bs using List.reverseRecOn with
  | nil => exact ofNat_zero
  | append_singleton init last ih =>
    have byte := last.toNat_lt
    have unpaddedInit : init.head? ≠ some 0 := by
      cases init with
      | nil => simp
      | cons first rest => simpa using unpadded
    have spelled := ih unpaddedInit
    have nonzero : toNat init * 256 + last.toNat ≠ 0 := by
      intro zero
      have initZero : toNat init = 0 := by omega
      have lastZero : last = 0 := UInt8.toNat_inj.1 (show last.toNat = 0 by omega)
      rw [initZero, ofNat_zero] at spelled
      rw [← spelled, lastZero] at unpadded
      exact unpadded rfl
    have high : (toNat init * 256 + last.toNat) / 256 = toNat init := by omega
    have low : UInt8.ofNat (toNat init * 256 + last.toNat) = last := by
      apply UInt8.toNat_inj.1
      rw [UInt8.toNat_ofNat']
      omega
    rw [toNat_concat, ofNat_of_ne_zero nonzero, high, low, spelled]

/-- A number below a power of 256 has a shortest spelling of at most that many bytes. -/
theorem length_ofNat_le {n width : Nat} (h : n < 256 ^ width) : (ofNat n).length ≤ width := by
  induction width generalizing n with
  | zero =>
    have zero : n = 0 := by simpa using h
    simp [zero]
  | succ width ih =>
    rcases Nat.eq_zero_or_pos n with rfl | pos
    · simp
    · rw [pow_succ] at h
      have := ih (n := n / 256) (by omega)
      rw [ofNat_of_ne_zero pos.ne', List.length_append, List.length_singleton]
      omega

/-- A number that fits is read back from a spelling of that width. -/
theorem toNat_ofNatWide_of_lt {width n : Nat} (h : n < 256 ^ width) :
    toNat (ofNatWide width n) = n := by
  have size : 1 <<< (8 * width) = 256 ^ width := by
    rw [Nat.shiftLeft_eq, one_mul, pow_mul]
    norm_num
  rw [toNat_ofNatWide, size, Nat.mod_eq_of_lt h]

/-- A string is the spelling, in its own width, of the number that it spells. -/
theorem ofNatWide_toNat (bs : Bytes) : ofNatWide bs.length (toNat bs) = bs := by
  induction bs using List.reverseRecOn with
  | nil => rfl
  | append_singleton init last ih =>
    have byte := last.toNat_lt
    have high : (toNat init * 256 + last.toNat) / 256 = toNat init := by omega
    have low : UInt8.ofNat (toNat init * 256 + last.toNat) = last := by
      apply UInt8.toNat_inj.1
      rw [UInt8.toNat_ofNat']
      omega
    rw [List.length_append, List.length_singleton, toNat_concat, ofNatWide, high, low, ih]

/-- A string of so many bytes spells a number exactly if it is the number's spelling in that width,
and the number fits. -/
theorem toNat_eq_iff {bs : Bytes} {width n : Nat} (length : bs.length = width) :
    toNat bs = n ↔ bs = ofNatWide width n ∧ n < 256 ^ width := by
  constructor
  · rintro rfl
    rw [← length, ofNatWide_toNat]
    exact ⟨rfl, toNat_lt bs⟩
  · rintro ⟨rfl, fits⟩
    exact toNat_ofNatWide_of_lt fits

end Custody.Bytes
