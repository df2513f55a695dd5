import Custody.PublicKey
import Custody.Proofs.Curve.SquareRoot
import Custody.Proofs.Spelling

/-!
# Which keys are loaded

Bytes load as a key exactly if they are one of its three encodings (`Encodes`), the first coordinate
fits 32 bytes, and the second one is the coordinate over it of its parity (`load_eq_ok_iff`). Of the
three encodings none asks for more: what `ofCoordinates` compares is what `decompress` makes true.

So a loaded key is on the curve or on its twist, and the first coordinate, which may also be at or
above the prime, decides which of the two: `load_onCurve_iff`. The bytes of `compressed_off_curve`
load as a key on the twist.
-/

namespace Custody.PublicKey

open Secp256k1

/-- The bytes are one of the three encodings of the key. -/
def Encodes (key : PublicKey) (raw : Bytes) : Prop :=
  raw = key.compress ∨ raw = key.toBytes ∨ raw = 0x04 :: key.toBytes

/-- The first coordinate of the key fits 32 bytes, and lifting it gives the second. -/
def Lifted (key : PublicKey) : Prop :=
  key.x < 256 ^ 32 ∧ lift key.x (key.y % 2 == 1) = key

/-- A key is compressed to 33 bytes. -/
theorem length_compress (key : PublicKey) : key.compress.length = 33 := by
  rw [compress, List.length_cons, Bytes.length_ofNatWide]

/-- The coordinates of a key are 64 bytes. -/
theorem length_toBytes (key : PublicKey) : key.toBytes.length = 64 := by
  rw [toBytes, List.length_append, Bytes.length_ofNatWide, Bytes.length_ofNatWide]

/-- Lifting gives a key exactly if the parity is that of the key's second coordinate, and the key is
over the first coordinate. -/
theorem lift_eq_iff {x : ℕ} {odd : Bool} {key : PublicKey} :
    lift x odd = key ↔ x = key.x ∧ (key.y % 2 == 1) = odd ∧ lift key.x (key.y % 2 == 1) = key := by
  constructor
  · rintro rfl
    have parity := liftX_parity x odd
    refine ⟨rfl, parity, ?_⟩
    simp only [lift, parity]
  · rintro ⟨rfl, rfl, lifted⟩
    exact lifted

/-- A key is lifted exactly if its first coordinate fits 32 bytes, and the second is a remainder
with which it is on the curve or on the twist. -/
theorem lifted_iff {key : PublicKey} :
    key.Lifted ↔ key.x < 2 ^ 256 ∧ key.y < fieldPrime ∧
      (Equation key.x key.y ∨ TwistEquation key.x key.y) := by
  have width : 256 ^ 32 = 2 ^ 256 := by norm_num
  have coordinate : lift key.x (key.y % 2 == 1) = key ↔ liftX key.x (key.y % 2 == 1) = key.y := by
    obtain ⟨x, y⟩ := key
    simp only [lift, mk.injEq, true_and]
  rw [Lifted, width, coordinate, liftX_parity_eq_iff]

/-- The second coordinate of a lifted key fits 32 bytes. -/
theorem Lifted.fits {key : PublicKey} (lifted : key.Lifted) : key.y < 256 ^ 32 := by
  have below : fieldPrime < 256 ^ 32 := by decide
  exact (lifted_iff.1 lifted).2.1.trans below

/-- Behind the byte of a parity, bytes compress exactly the lifted key that they give with it. -/
theorem lift_toNat_eq_iff {rest : Bytes} (length : rest.length = 32) {odd : Bool}
    {key : PublicKey} :
    lift (Bytes.toNat rest) odd = key ↔
      (if odd then 0x03 else 0x02) :: rest = key.compress ∧ key.Lifted := by
  have spelled : Bytes.toNat rest = key.x ↔ rest = Bytes.ofNatWide 32 key.x ∧ key.x < 256 ^ 32 :=
    Bytes.toNat_eq_iff length
  -- Each parity has its own byte, so the first byte asks for the key's own parity.
  have byte : (key.y % 2 == 1) = odd ↔
      (if odd then 0x03 else 0x02) = (if key.y % 2 = 0 then (0x02 : UInt8) else 0x03) := by
    rcases Nat.mod_two_eq_zero_or_one key.y with eq | eq <;> rw [eq] <;> cases odd <;> decide
  rw [lift_eq_iff, spelled, byte, compress, List.cons.injEq, Lifted]
  tauto

/-- 33 bytes load exactly as the lifted key that they compress. -/
theorem decompress_eq_ok_iff {first : UInt8} {rest : Bytes} (length : rest.length = 32)
    {key : PublicKey} :
    decompress first rest = .ok key ↔ first :: rest = key.compress ∧ key.Lifted := by
  rw [decompress]
  split
  case isTrue even =>
    rw [Except.ok.injEq, lift_toNat_eq_iff length, even]
    rfl
  case isFalse notEven =>
    split
    case isTrue odd =>
      rw [Except.ok.injEq, lift_toNat_eq_iff length, odd]
      rfl
    case isFalse notOdd =>
      -- A compressed key starts with one of the two bytes.
      refine iff_of_false (by simp) fun ⟨encoded, _⟩ => ?_
      have head : first = if key.y % 2 = 0 then 0x02 else 0x03 := (List.cons.inj encoded).1
      split at head
      · exact notEven head
      · exact notOdd head

/-- 64 bytes load exactly as the lifted key whose coordinates they are. -/
theorem ofCoordinates_eq_ok_iff {raw : Bytes} (length : raw.length = 64) {key : PublicKey} :
    ofCoordinates raw = .ok key ↔ raw = key.toBytes ∧ key.Lifted := by
  have lengthX : (raw.take 32).length = 32 := by rw [List.length_take, length]; rfl
  have lengthY : (raw.drop 32).length = 32 := by rw [List.length_drop, length]
  rw [ofCoordinates]
  constructor
  · intro loaded
    split at loaded
    case isFalse => cases loaded
    case isTrue lifted =>
      cases loaded
      obtain ⟨spellX, fitsX⟩ := (Bytes.toNat_eq_iff lengthX).1 rfl
      obtain ⟨spellY, -⟩ := (Bytes.toNat_eq_iff lengthY).1 rfl
      refine ⟨?_, fitsX, lifted⟩
      rw [toBytes, ← spellX, ← spellY, List.take_append_drop]
  · rintro ⟨encoded, lifted⟩
    have width : (Bytes.ofNatWide 32 key.x).length = 32 := Bytes.length_ofNatWide _ _
    rw [encoded, toBytes, List.take_left' width, List.drop_left' width,
      Bytes.toNat_ofNatWide_of_lt lifted.1, Bytes.toNat_ofNatWide_of_lt lifted.fits]
    exact if_pos lifted.2

/-- The length of bytes tells which of the three encodings they can be. -/
theorem encodes_iff {key : PublicKey} {raw : Bytes} :
    key.Encodes raw ↔
      if raw.length = 33 then raw = key.compress
      else if raw.length = 64 then raw = key.toBytes
      else raw = 0x04 :: key.toBytes := by
  have compressed := length_compress key
  have uncompressed := length_toBytes key
  constructor
  · rintro (encoded | encoded | encoded)
    · rw [if_pos (by rw [encoded, compressed])]
      exact encoded
    · have length : raw.length = 64 := by rw [encoded, uncompressed]
      rw [length, if_neg (by decide), if_pos rfl]
      exact encoded
    · have length : raw.length = 65 := by rw [encoded, List.length_cons, uncompressed]
      rw [length, if_neg (by decide), if_neg (by decide)]
      exact encoded
  · intro encoded
    split at encoded
    · exact .inl encoded
    · split at encoded
      · exact .inr (.inl encoded)
      · exact .inr (.inr encoded)

/-- Bytes load exactly as the lifted key that they encode. -/
theorem load_eq_ok_iff {raw : Bytes} {key : PublicKey} :
    load raw = .ok key ↔ key.Encodes raw ∧ key.Lifted := by
  rw [encodes_iff]
  cases raw with
  | nil => simp [load]
  | cons first rest =>
    rw [load]
    split
    case isTrue length => exact decompress_eq_ok_iff (Nat.succ.inj length)
    split
    case isTrue length => exact ofCoordinates_eq_ok_iff length
    split
    case isTrue prefixed =>
      obtain ⟨length, rfl⟩ := prefixed
      rw [ofCoordinates_eq_ok_iff (Nat.succ.inj length), List.cons.injEq, eq_self, true_and]
    case isFalse other =>
      refine iff_of_false (by simp) fun ⟨encoded, _⟩ => other ?_
      obtain ⟨head, tail⟩ := List.cons.inj encoded
      rw [List.length_cons, tail, length_toBytes]
      exact ⟨rfl, head⟩

/-- Bytes load as a key exactly if they are one of its three encodings, the
first coordinate fits 32 bytes, and the second is a remainder with which the key is on the curve or
on its twist. A loaded key is on the curve exactly if the curve has a point with its first
coordinate. -/
theorem load_onCurve_iff (raw : Bytes) (key : PublicKey) :
    (load raw = .ok key ↔
      key.Encodes raw ∧ key.x < 2 ^ 256 ∧ key.y < fieldPrime ∧
        (Equation key.x key.y ∨ TwistEquation key.x key.y)) ∧
    (load raw = .ok key → (OnCurve key.x key.y ↔ ∃ y, OnCurve key.x y)) := by
  have loads : load raw = .ok key ↔ key.Encodes raw ∧ key.Lifted := load_eq_ok_iff
  refine ⟨by rw [loads, lifted_iff], fun loaded => ?_⟩
  obtain ⟨-, small, either⟩ := lifted_iff.1 (loads.1 loaded).2
  exact onCurve_iff_exists small either

/-- The generator of the curve is loaded from its compressed encoding. -/
theorem load_onCurve_iff_generator :
    let x := 0x79be667ef9dcbbac55a06295ce870b07029bfcdb2dce28d959f2815b16f81798
    let y := 0x483ada7726a3c4655da4fbfc0e1108a8fd17b448a68554199c47d08ffb10d4b8
    load (0x02 :: Bytes.ofNatWide 32 x) = .ok ⟨x, y⟩ ∧ OnCurve x y := by
  intro x y
  have point : OnCurve x y := by decide +kernel
  obtain ⟨loads, onCurve⟩ := load_onCurve_iff (0x02 :: Bytes.ofNatWide 32 x) ⟨x, y⟩
  have loaded := loads.2 ⟨.inl (by decide), by decide, point.2.1, .inl point.2.2⟩
  exact ⟨loaded, (onCurve loaded).2 ⟨y, point⟩⟩

/-- The compressed bytes over the first coordinate 5 load, though the key is not on the curve. -/
theorem compressed_off_curve :
    load (0x02 :: Bytes.ofNatWide 32 5) = .ok (lift 5 false) ∧
      ¬OnCurve (lift 5 false).x (lift 5 false).y := by
  decide +kernel

end Custody.PublicKey
