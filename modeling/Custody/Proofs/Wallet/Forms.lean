import Custody.Proofs.Ethereum.Signing
import Custody.Wallet

/-!
# The form of a transaction does not matter

A transaction is written with a signature or without, and a wallet reads both forms to describe what
it is about to sign. What it reads must not depend on the form or on a signature that is there
already. `parse_forms_agree` says so for every outcome, a refusal included.

The reason is that a payment is made of the fields that are signed, and of the image that is signed,
which has the chain's id in the place of the signature: transactions that `Agree` on these fields
are the same payment, or are refused alike (`ofTransaction_eq_of_agree`).
-/

namespace Custody

open Ethereum Transaction

namespace Ethereum

/-- What is signed for a transaction does not depend on its own signature. -/
theorem Transaction.signingImage_eq_of_agree {tx₁ tx₂ : Transaction} (agree : tx₁.Agree tx₂)
    (chainId : Int) : tx₁.signingImage chainId = tx₂.signingImage chainId := by
  obtain ⟨nonce, gasPrice, gas, recipient, value, data⟩ := agree
  have unsigned : { tx₁ with v := chainId, r := 0, s := 0 } =
      { tx₂ with v := chainId, r := 0, s := 0 } := by
    rw [nonce, gasPrice, gas, recipient, value, data]
  rw [signingImage, signingImage, unsigned]

/-- Transactions that agree are the same payment on a chain, or are refused alike. -/
theorem Payment.ofTransaction_eq_of_agree {tx₁ tx₂ : Transaction} (agree : tx₁.Agree tx₂)
    (chainId : Int) : ofTransaction chainId tx₁ = ofTransaction chainId tx₂ := by
  have image := signingImage_eq_of_agree agree chainId
  have hash : digest chainId tx₁ = digest chainId tx₂ := by
    rw [digest, digest, signingHash, signingHash, image]
  simp only [ofTransaction, ofTokenCall, hash, agree.recipient, agree.value, agree.data]

/-- Two transactions of one draft agree. -/
theorem Draft.transaction_agree (d : Draft) (v₁ r₁ s₁ v₂ r₂ s₂ : Nat) :
    (d.transaction v₁ r₁ s₁).Agree (d.transaction v₂ r₂ s₂) :=
  agree_transaction_iff.2 rfl

end Ethereum

namespace Wallet

/-- What a wallet makes of bytes depends on the transaction that they are read as. -/
theorem parse_of_decode (w : Wallet) {raw : Bytes} {tx : Transaction}
    (read : decode raw = .ok tx) :
    w.parse raw = (Payment.ofTransaction w.chain.chainId tx).map (describe w.chain) := by
  rw [parse, Payment.parse, read]
  rfl

/-- A wallet makes the same of bytes that are read as transactions that agree. -/
theorem parse_eq_of_agree (w : Wallet) {raw₁ raw₂ : Bytes} {tx₁ tx₂ : Transaction}
    (read₁ : decode raw₁ = .ok tx₁) (read₂ : decode raw₂ = .ok tx₂) (agree : tx₁.Agree tx₂) :
    w.parse raw₁ = w.parse raw₂ := by
  rw [w.parse_of_decode read₁, w.parse_of_decode read₂, Payment.ofTransaction_eq_of_agree agree]

/-- A wallet makes the same of a draft's unsigned form and of its signed forms, whatever the
signatures: the transfer that the draft makes on its chain, or the fault for which it makes none.
No form is refused as bytes that are no transaction. -/
theorem parse_forms_agree (w : Wallet) {d : Draft} (recipient : isRecipient d.recipient = true)
    {v r s v' r' s' : Nat} (unsigned_fits : d.unsigned.length < 2 ^ 64)
    (fits : (d.signed v r s).length < 2 ^ 64) (fits' : (d.signed v' r' s').length < 2 ^ 64) :
    w.parse (d.signed v r s) = w.parse d.unsigned ∧
      w.parse (d.signed v' r' s') = w.parse d.unsigned ∧
      w.parse d.unsigned =
        (Payment.ofTransaction w.chain.chainId (d.transaction 0 0 0)).map (describe w.chain) := by
  have read := Draft.decode_unsigned recipient unsigned_fits
  have signed : ∀ v r s, (d.signed v r s).length < 2 ^ 64 →
      w.parse (d.signed v r s) = w.parse d.unsigned := fun v r s fits =>
    w.parse_eq_of_agree (Draft.decode_signed recipient fits) read (d.transaction_agree _ _ _ _ _ _)
  exact ⟨signed v r s fits, signed v' r' s' fits', w.parse_of_decode read⟩

/-- A draft that moves native currency and has call data is refused in every form, for the same
reason. -/
theorem parse_forms_agree_refused :
    let w : Wallet := ⟨⟨0, 0⟩, Chain.holesky⟩
    let d : Draft := ⟨9, 20000000000, 21000, List.replicate 20 0x35, 10 ^ 18, [0xff]⟩
    w.parse d.unsigned = .error .valueAndData ∧
      w.parse (d.signed 34035 1 2) = .error .valueAndData ∧
      w.parse (d.signed 27 3 (2 ^ 255)) = .error .valueAndData := by
  intro w d
  have recipient : isRecipient d.recipient = true := rfl
  have unsigned_fits : d.unsigned.length < 2 ^ 64 := by decide +kernel
  have fits : (d.signed 34035 1 2).length < 2 ^ 64 := by decide +kernel
  have fits' : (d.signed 27 3 (2 ^ 255)).length < 2 ^ 64 := by decide +kernel
  obtain ⟨first, second, outcome⟩ := w.parse_forms_agree recipient unsigned_fits fits fits'
  have refused : w.parse d.unsigned = .error .valueAndData := outcome.trans rfl
  exact ⟨refused, first.trans refused, second.trans refused⟩

end Wallet

end Custody
