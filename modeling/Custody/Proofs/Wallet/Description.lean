import Custody.Proofs.Ethereum.Payment
import Custody.Wallet

/-!
# What a wallet describes is what it has signed

`parse_describes_signed` is the promise on which approvals rest: from the bytes of a draft that
pays, in either written form, a wallet reads the transfer that the draft makes, and whenever it
reads a transfer, the bytes are those of such a draft. Either way the digest to be signed is that
of the draft's image on the wallet's chain.
-/

namespace Custody

open Ethereum Transaction

/-- The ids of the known chains are not negative. -/
theorem Chain.chainId_nonneg_of_find? {name : String} {chain : Chain}
    (found : Chain.find? name = some chain) : 0 ≤ chain.chainId := by
  have mem := List.mem_of_find?_eq_some found
  have all : ∀ c ∈ Chain.known, 0 ≤ c.chainId := by decide
  exact all chain mem

namespace Wallet

/-- A wallet that was built is on the chain of the name that was given. -/
theorem find?_of_build {type name : String} {publicKey : Bytes} {w : Wallet}
    (built : build type publicKey name = .ok w) : Chain.find? name = some w.chain := by
  unfold build at built
  split at built
  · simp at built
  · simp only [Outcome.bind_eq_ok, findChain] at built
    obtain ⟨chain, found, key, -, eq⟩ := built
    split at found
    · next chain' eq' =>
      rw [eq', ← Except.ok.inj eq, ← Except.ok.inj found]
    · simp at found

/-- A wallet on a chain reads a transfer exactly from the bytes of a draft that pays it; what is
signed is the digest of the draft's image. -/
theorem parse_eq_ok_iff {w : Wallet} (known : 0 ≤ w.chain.chainId) {raw : Bytes} {t : Transfer} :
    w.parse raw = .ok t ↔
      ∃ (d : Draft) (v r s : Nat) (contract : Option Bytes),
        decode raw = .ok (d.transaction v r s) ∧ d.Pays t.recipient t.amount contract ∧
        t.coinIdentifier = w.chain.coinPrefix ++ contract.getD [] ∧
        t.dataForSigning = Keccak.keccak256 (d.image w.chain.chainId) := by
  rw [parse, Outcome.map_eq_ok]
  constructor
  · rintro ⟨p, ok, rfl⟩
    obtain ⟨d, v, r, s, read, pays, digest⟩ := (Payment.parse_eq_ok_iff known).1 ok
    exact ⟨d, v, r, s, p.contract, read, pays, rfl, digest⟩
  · rintro ⟨d, v, r, s, contract, read, pays, coin, digest⟩
    refine ⟨⟨t.recipient, t.amount, contract, t.dataForSigning⟩, ?_, ?_⟩
    · exact (Payment.parse_eq_ok_iff known).2 ⟨d, v, r, s, read, pays, digest⟩
    · rw [describe, ← coin]

/-- What a wallet describes is what it has signed. From both written forms of a draft that pays,
a wallet reads what the draft pays; and every transfer that it reads is what a draft pays whose
bytes it was given. The digest to be signed is that of the draft's image on the wallet's chain. -/
theorem parse_describes_signed {type name : String} {publicKey : Bytes} {chain : Chain} {w : Wallet}
    (found : Chain.find? name = some chain) (built : build type publicKey name = .ok w) :
    (∀ (d : Draft) (recipient : Bytes) (amount : Nat) (contract : Option Bytes),
      d.Pays recipient amount contract →
        let transfer : Transfer := ⟨recipient, amount, chain.coinPrefix ++ contract.getD [],
          Keccak.keccak256 (d.image chain.chainId)⟩
        (d.unsigned.length < 2 ^ 64 → w.parse d.unsigned = .ok transfer) ∧
        ∀ v r s : Nat, (d.signed v r s).length < 2 ^ 64 →
          w.parse (d.signed v r s) = .ok transfer) ∧
    ∀ (raw : Bytes) (t : Transfer), w.parse raw = .ok t →
      ∃ (d : Draft) (v r s : Nat) (contract : Option Bytes),
        decode raw = .ok (d.transaction v r s) ∧ d.Pays t.recipient t.amount contract ∧
        t.coinIdentifier = chain.coinPrefix ++ contract.getD [] ∧
        t.dataForSigning = Keccak.keccak256 (d.image chain.chainId) := by
  obtain rfl : w.chain = chain := Option.some.inj ((find?_of_build built).symm.trans found)
  have known := Chain.chainId_nonneg_of_find? found
  refine ⟨fun d recipient amount contract pays => ⟨fun fits => ?_, fun v r s fits => ?_⟩,
    fun raw t ok => (parse_eq_ok_iff known).1 ok⟩
  · exact (parse_eq_ok_iff known).2
      ⟨d, 0, 0, 0, contract, Draft.decode_unsigned pays.isRecipient fits, pays, rfl, rfl⟩
  · exact (parse_eq_ok_iff known).2
      ⟨d, v, r, s, contract, Draft.decode_signed pays.isRecipient fits, pays, rfl, rfl⟩

/-- A token payment of 1000 units on Sepolia, with a byte behind the call: the wallet reads it from
the unsigned form and from a signed one. -/
theorem parse_describes_signed_token :
    let d : Draft := ⟨9, 20000000000, 60000, List.replicate 20 0xcc, 0,
      TokenCall.encode ⟨List.replicate 20 0xaa, 1000⟩ ++ [0xff]⟩
    let transfer : Transfer := ⟨List.replicate 20 0xaa, 1000,
      Chain.sepolia.coinPrefix ++ List.replicate 20 0xcc, Keccak.keccak256 (d.image 11155111)⟩
    ∃ w, build "ethereum" (0x02 :: List.replicate 32 1) "sepolia" = .ok w ∧
      w.parse d.unsigned = .ok transfer ∧ w.parse (d.signed 37 1 2) = .ok transfer := by
  intro d transfer
  have found : Chain.find? "sepolia" = some Chain.sepolia := by decide
  have built : build "ethereum" (0x02 :: List.replicate 32 1) "sepolia" =
      .ok ⟨PublicKey.lift (Bytes.toNat (List.replicate 32 1)) false, Chain.sepolia⟩ := by rfl
  have pays : d.Pays (List.replicate 20 0xaa) 1000 (some (List.replicate 20 0xcc)) :=
    .token ⟨List.replicate 20 0xaa, 1000⟩ [0xff] rfl rfl ⟨rfl, by decide⟩ rfl
  obtain ⟨unsigned, signed⟩ := (parse_describes_signed found built).1 d _ _ _ pays
  exact ⟨_, built, unsigned (by decide +kernel), signed 37 1 2 (by decide +kernel)⟩

end Wallet

end Custody
