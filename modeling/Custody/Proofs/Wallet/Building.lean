import Custody.Proofs.Outcome
import Custody.Wallet

/-!
# When wallets are built

A wallet is built if its type is one there is, its chain is known, and its key is loaded; it is then
on that chain and has that key (`build_eq_ok_iff`). Otherwise the first of the three that fails is
reported (`build_eq_error_iff`). Every known chain is found by its own name, and by no other
(`Chain.find?_eq_some_iff`).
-/

namespace Custody

/-- A known chain is found by its name. -/
theorem Chain.find?_eq_some_iff {name : String} {chain : Chain} :
    find? name = some chain ↔ chain ∈ known ∧ chain.name = name := by
  constructor
  · intro found
    have named := List.find?_some found
    exact ⟨List.mem_of_find?_eq_some found, eq_of_beq named⟩
  · rintro ⟨mem, rfl⟩
    have all : ∀ c ∈ known, find? c.name = some c := by decide
    exact all chain mem

namespace Wallet

variable {type name : String} {publicKey : Bytes}

/-- A wallet is built exactly if there is its type, its chain is the known one of the name, and its
key is what the bytes load as. -/
theorem build_eq_ok_iff {w : Wallet} :
    build type publicKey name = .ok w ↔
      type ∈ types ∧ Chain.find? name = some w.chain ∧ PublicKey.load publicKey = .ok w.key := by
  obtain ⟨key, chain⟩ := w
  rw [build]
  by_cases supported : type ∈ types
  · rw [if_neg (not_not_intro supported), findChain]
    cases Chain.find? name with
    | none => simp
    | some known => simp [Outcome.bind_eq_ok, Outcome.mapError_eq_ok, supported, and_comm]
  · simp [supported]

/-- What is reported of a wallet that is not built: its type, else its chain, else its key. -/
theorem build_eq_error_iff {fault : Fault} :
    build type publicKey name = .error fault ↔
      (type ∉ types ∧ fault = .unknownType type) ∨
      (type ∈ types ∧ Chain.find? name = none ∧ fault = .unknownChain name) ∨
      (type ∈ types ∧ (∃ chain, Chain.find? name = some chain) ∧
        ∃ reason, PublicKey.load publicKey = .error reason ∧ fault = .key reason) := by
  rw [build]
  by_cases supported : type ∈ types
  · rw [if_neg (not_not_intro supported), findChain]
    cases Chain.find? name with
    | none => simp [supported, eq_comm]
    | some known =>
      simp only [Outcome.ok_bind, Outcome.bind_eq_error, Outcome.mapError_eq_error, supported]
      simp [eq_comm]
  · simp [supported, eq_comm]

end Wallet

end Custody
