import Custody.Proofs.PublicKey.Loading
import Custody.Proofs.Wallet.Building

/-!
# The encodings of a key

Which bytes load as a key depends on the key alone: those that are one of its encodings, if it is
lifted (`load_eq_ok_iff`). A point of the curve is lifted, so that it is loaded from all three
(`load_encodings`). Whatever bytes a key was loaded from, it is lifted as well, so that loading its
encodings gives it again; and since the three have different lengths, the bytes of one length that
load as it are the same (`load_stable`). No key has two compressed forms, for no second coordinate
is zero (`Lifted.pos`).
-/

namespace Custody

open Secp256k1

/-- The coordinate over `x` is not zero. -/
theorem Secp256k1.liftX_pos (x : ℕ) (odd : Bool) : 0 < liftX x odd := by
  have pos := rootOver_pos x
  have below := rootOver_lt x
  rw [liftX_eq]
  split
  case isTrue => exact pos
  case isFalse => exact Nat.sub_pos_of_lt below

namespace PublicKey

/-- A point of the curve is lifted. -/
theorem lifted_of_onCurve {key : PublicKey} (onCurve : OnCurve key.x key.y) : key.Lifted := by
  obtain ⟨smallX, smallY, point⟩ := onCurve
  have width : fieldPrime < 2 ^ 256 := by decide
  exact lifted_iff.2 ⟨smallX.trans width, smallY, .inl point⟩

/-- The second coordinate of a lifted key is not zero. -/
theorem Lifted.pos {key : PublicKey} (lifted : key.Lifted) : 0 < key.y := by
  have second : liftX key.x (key.y % 2 == 1) = key.y := congrArg PublicKey.y lifted.2
  rw [← second]
  exact liftX_pos _ _

/-- A lifted key is loaded from each of its encodings. -/
theorem Lifted.load {key : PublicKey} (lifted : key.Lifted) :
    load key.toBytes = .ok key ∧ load (0x04 :: key.toBytes) = .ok key ∧
      load key.compress = .ok key :=
  ⟨load_eq_ok_iff.2 ⟨.inr (.inl rfl), lifted⟩, load_eq_ok_iff.2 ⟨.inr (.inr rfl), lifted⟩,
    load_eq_ok_iff.2 ⟨.inl rfl, lifted⟩⟩

/-- A key has one encoding of each length. -/
theorem Encodes.eq_of_length {key : PublicKey} {raw other : Bytes} (encodes : key.Encodes raw)
    (encodes' : key.Encodes other) (length : other.length = raw.length) : other = raw := by
  rw [encodes_iff] at encodes encodes'
  rw [length] at encodes'
  -- Both have the length that asks for the same one of the three.
  split_ifs at encodes encodes' <;> exact encodes'.trans encodes.symm

/-- Every encoding of a point is accepted. A point of the curve is loaded from its two
coordinates, from these behind `04`, and from the first of them behind the byte of the second one's
parity. The wallets that have the three as their keys, of any type there is and on any known chain,
have the address of the point. -/
theorem load_encodings {key : PublicKey} (onCurve : OnCurve key.x key.y) :
    ∀ raw ∈ [key.toBytes, 0x04 :: key.toBytes, key.compress],
      load raw = .ok key ∧
      ∀ type ∈ Wallet.types, ∀ chain ∈ Chain.known,
        ∃ w, Wallet.build type raw chain.name = .ok w ∧ w.chain = chain ∧
          w.address = Address.checksummed key.address := by
  obtain ⟨coordinates, marked, compressed⟩ := (lifted_of_onCurve onCurve).load
  have wallet {raw : Bytes} (loaded : load raw = .ok key) (type : String)
      (supported : type ∈ Wallet.types) (chain : Chain) (known : chain ∈ Chain.known) :
      ∃ w, Wallet.build type raw chain.name = .ok w ∧ w.chain = chain ∧
        w.address = Address.checksummed key.address := by
    have found : Chain.find? chain.name = some chain := Chain.find?_eq_some_iff.2 ⟨known, rfl⟩
    exact ⟨⟨key, chain⟩, Wallet.build_eq_ok_iff.2 ⟨supported, found, loaded⟩, rfl, rfl⟩
  simp only [List.forall_mem_cons, List.not_mem_nil, false_implies, implies_true, and_true]
  exact ⟨⟨coordinates, wallet coordinates⟩, ⟨marked, wallet marked⟩,
    ⟨compressed, wallet compressed⟩⟩

/-- The point of the curve over 1 whose second coordinate is odd: the wallets on Sepolia of two of
its encodings have one address. -/
theorem load_encodings_one :
    let key := lift 1 true
    OnCurve key.x key.y ∧ load (0x03 :: Bytes.ofNatWide 32 1) = .ok key ∧
      ∃ w w', Wallet.build "ethereum" (0x03 :: Bytes.ofNatWide 32 1) "sepolia" = .ok w ∧
        Wallet.build "ethereum" (0x04 :: key.toBytes) "sepolia" = .ok w' ∧
        w.address = w'.address := by
  intro key
  have point : OnCurve key.x key.y := by decide +kernel
  have form : key.compress = 0x03 :: Bytes.ofNatWide 32 1 := by decide +kernel
  obtain ⟨loaded, wallets⟩ := load_encodings point key.compress (by simp)
  obtain ⟨-, wallets'⟩ := load_encodings point (0x04 :: key.toBytes) (by simp)
  obtain ⟨w, built, -, address⟩ := wallets "ethereum" (by decide) Chain.sepolia (by decide)
  obtain ⟨w', built', -, address'⟩ := wallets' "ethereum" (by decide) Chain.sepolia (by decide)
  rw [form] at loaded built
  exact ⟨point, loaded, w, w', built, built', address.trans address'.symm⟩

/-- Loading is stable: a key that was loaded is loaded again from its coordinates, from these
behind `04`, and from its compressed form. All bytes of one length that load as it are the same; its
second coordinate is never zero, so that this holds of compressed forms as well. -/
theorem load_stable {raw : Bytes} {key : PublicKey} (loaded : load raw = .ok key) :
    load key.toBytes = .ok key ∧ load (0x04 :: key.toBytes) = .ok key ∧
      load key.compress = .ok key ∧ key.y ≠ 0 ∧
      ∀ other, load other = .ok key → other.length = raw.length → other = raw := by
  obtain ⟨encodes, lifted⟩ := load_eq_ok_iff.1 loaded
  obtain ⟨coordinates, marked, compressed⟩ := lifted.load
  refine ⟨coordinates, marked, compressed, lifted.pos.ne', fun other loaded' length => ?_⟩
  exact encodes.eq_of_length (load_eq_ok_iff.1 loaded').1 length

/-- The largest first coordinate that 32 bytes spell is above the prime. Its compressed form loads,
and the key that it loads as is loaded again from its coordinates behind `04`. -/
theorem load_stable_largest :
    let raw : Bytes := 0x03 :: List.replicate 32 0xff
    let key := lift (2 ^ 256 - 1) true
    load raw = .ok key ∧ fieldPrime < key.x ∧ load (0x04 :: key.toBytes) = .ok key := by
  intro raw key
  have loaded : load raw = .ok key := by decide +kernel
  exact ⟨loaded, by decide, (load_stable loaded).2.1⟩

end PublicKey

end Custody
