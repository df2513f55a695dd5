import Custody.Ethereum.Payment
import Custody.Proofs.Ethereum.Draft
import Custody.Proofs.Ethereum.TokenCall

/-!
# Which drafts are payments

`Draft.Pays` says what a draft pays: either it moves native currency and has no call data, or it
moves none and calls a token contract. A transaction is taken for a payment only if its draft pays
that (`pays_of_ofTransaction`), and always if it does (`ofTransaction_of_pays`); the digest is the
one of the draft's image. With the reading of drafts this says which bytes are payments
(`parse_eq_ok_iff`).
-/

namespace Custody.Ethereum

open Transaction

/-- How much a draft pays to whom, and of which token. -/
inductive Draft.Pays (d : Draft) : (recipient : Bytes) → (amount : Nat) →
    (contract : Option Bytes) → Prop
  /-- Native currency goes to the draft's recipient. -/
  | native : d.recipient.length = 20 → 0 < d.value → d.data = [] →
      Pays d d.recipient d.value none
  /-- The draft's recipient is a contract, whose token goes where the call data says. -/
  | token (call : TokenCall) (rest : Bytes) : d.recipient.length = 20 → d.value = 0 →
      call.WellFormed → d.data = call.encode ++ rest →
      Pays d call.recipient call.amount (some d.recipient)

/-- What pays has a recipient of 20 bytes. -/
theorem Draft.Pays.length_recipient {d : Draft} {recipient : Bytes} {amount : Nat}
    {contract : Option Bytes} (pays : d.Pays recipient amount contract) :
    d.recipient.length = 20 := by
  cases pays with
  | native address positive plain => exact address
  | token call rest address free wf data => exact address

/-- What pays in a token has a contract of 20 bytes. -/
theorem Draft.Pays.length_contract {d : Draft} {recipient : Bytes} {amount : Nat}
    {contract : Bytes} (pays : d.Pays recipient amount (some contract)) :
    contract.length = 20 := by
  cases pays with
  | token call rest address free wf data => exact address

/-- What pays has a recipient that can be written. -/
theorem Draft.Pays.isRecipient {d : Draft} {recipient : Bytes} {amount : Nat}
    {contract : Option Bytes} (pays : d.Pays recipient amount contract) :
    isRecipient d.recipient = true := by
  rw [Transaction.isRecipient, pays.length_recipient]
  rfl

/-- What pays has a recipient. -/
theorem Draft.Pays.recipient_ne_nil {d : Draft} {recipient : Bytes} {amount : Nat}
    {contract : Option Bytes} (pays : d.Pays recipient amount contract) : d.recipient ≠ [] := by
  intro nil
  have address := pays.length_recipient
  rw [nil] at address
  simp at address

namespace Payment

/-- A draft whose recipient has the right length has a digest on every chain. -/
theorem digest_eq {d : Draft} (v r s : Nat) {chainId : Int} (known : 0 ≤ chainId)
    (recipient : isRecipient d.recipient = true) :
    digest chainId (d.transaction v r s) = .ok (Keccak.keccak256 (d.image chainId)) := by
  rw [digest, signingHash, d.signingImage_eq v r s known, if_pos recipient]
  rfl

/-- A recipient that is not empty has 20 bytes. -/
theorem length_of_isRecipient {address : Bytes} (recipient : isRecipient address = true)
    (nonempty : address ≠ []) : address.length = 20 := by
  rw [isRecipient, Bool.or_eq_true, beq_iff_eq, beq_iff_eq, List.length_eq_zero_iff] at recipient
  exact recipient.resolve_left nonempty

/-- A transaction that is a payment has a draft that pays that, and the digest of its image. -/
theorem pays_of_ofTransaction {d : Draft} {v r s : Nat} {chainId : Int} (known : 0 ≤ chainId)
    (recipient : isRecipient d.recipient = true) {p : Payment}
    (ok : ofTransaction chainId (d.transaction v r s) = .ok p) :
    d.Pays p.recipient p.amount p.contract ∧
      p.dataForSigning = Keccak.keccak256 (d.image chainId) := by
  have signed := digest_eq v r s known recipient
  unfold ofTransaction at ok
  split at ok
  · simp at ok
  · next nonempty =>
    have address := length_of_isRecipient recipient nonempty
    split at ok
    · next positive =>
      split at ok
      · simp at ok
      · next plain =>
        rw [signed, Outcome.ok_bind] at ok
        obtain rfl := Except.ok.inj ok
        exact ⟨.native address (Int.natCast_pos.1 positive) (not_not.1 plain), rfl⟩
    · next free =>
      split at ok
      · simp at ok
      · simp only [ofTokenCall, Outcome.bind_eq_ok, Outcome.mapError_eq_ok] at ok
        obtain ⟨call, read, hash, digest, ok⟩ := ok
        obtain rfl := Except.ok.inj ok
        obtain ⟨wf, rest, data⟩ := TokenCall.decode_eq_ok_iff.1 read
        have value : d.value = 0 := by
          rw [gt_iff_lt, not_lt] at free
          exact Int.natCast_eq_zero.1 (le_antisymm free (Int.natCast_nonneg _))
        rw [signed] at digest
        exact ⟨.token call rest address value wf data, (Except.ok.inj digest).symm⟩

/-- A draft that pays makes a transaction that is a payment. -/
theorem ofTransaction_of_pays {d : Draft} (v r s : Nat) {chainId : Int} (known : 0 ≤ chainId)
    {recipient : Bytes} {amount : Nat} {contract : Option Bytes}
    (pays : d.Pays recipient amount contract) :
    ofTransaction chainId (d.transaction v r s) =
      .ok ⟨recipient, amount, contract, Keccak.keccak256 (d.image chainId)⟩ := by
  have signed := digest_eq v r s known pays.isRecipient
  have nonempty := pays.recipient_ne_nil
  cases pays with
  | native address positive plain =>
    simp [ofTransaction, nonempty, positive, plain, signed]
  | token call rest address free wf data =>
    have read := TokenCall.decode_eq_ok_iff.2 ⟨wf, rest, data⟩
    have calls : d.data ≠ [] := fun nil => by
      rw [nil] at read
      simp [TokenCall.decode, transferCallSize, wordSize] at read
    simp [ofTransaction, ofTokenCall, nonempty, free, calls, read, signed]

/-- Bytes are a payment exactly if they are read as a transaction whose draft pays that; what is
signed is the digest of the draft's image. -/
theorem parse_eq_ok_iff {chainId : Int} (known : 0 ≤ chainId) {raw : Bytes} {p : Payment} :
    parse chainId raw = .ok p ↔
      ∃ (d : Draft) (v r s : Nat), decode raw = .ok (d.transaction v r s) ∧
        d.Pays p.recipient p.amount p.contract ∧
        p.dataForSigning = Keccak.keccak256 (d.image chainId) := by
  rw [parse, Outcome.bind_eq_ok]
  constructor
  · rintro ⟨tx, read, ok⟩
    rw [Outcome.mapError_eq_ok] at read
    obtain ⟨d, v, r, s, rfl, recipient⟩ := exists_draft_of_decode read
    exact ⟨d, v, r, s, read, pays_of_ofTransaction known recipient ok⟩
  · rintro ⟨d, v, r, s, read, pays, digest⟩
    refine ⟨d.transaction v r s, Outcome.mapError_eq_ok.2 read, ?_⟩
    rw [ofTransaction_of_pays v r s known pays, ← digest]

end Payment

end Custody.Ethereum
