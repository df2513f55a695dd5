import Custody.Proofs.Ethereum.Payment

/-!
# What a signature commits to

The bytes whose digest is signed determine the chain and the fields of the transaction that the
chain acts on, and are determined by them; the transaction's own signature is not among these.
`signingImage_commits` states this for transactions, and from it that two payments with the same
bytes to be signed are the same payment on the same chain: no signature can be carried to another
transfer or to another chain. The digest itself is not looked into.
-/

namespace Custody.Ethereum

namespace Transaction

/-- Two transactions have the same fields, their signatures apart. -/
structure Agree (tx₁ tx₂ : Transaction) : Prop where
  nonce : tx₁.nonce = tx₂.nonce
  gasPrice : tx₁.gasPrice = tx₂.gasPrice
  gas : tx₁.gas = tx₂.gas
  recipient : tx₁.recipient = tx₂.recipient
  value : tx₁.value = tx₂.value
  data : tx₁.data = tx₂.data

/-- Transactions of two drafts agree exactly if the drafts are equal. -/
theorem agree_transaction_iff {d₁ d₂ : Draft} {v₁ r₁ s₁ v₂ r₂ s₂ : Nat} :
    (d₁.transaction v₁ r₁ s₁).Agree (d₂.transaction v₂ r₂ s₂) ↔ d₁ = d₂ := by
  constructor
  · rintro ⟨nonce, gasPrice, gas, recipient, value, data⟩
    obtain ⟨_, _, _, _, _, _⟩ := d₁
    obtain ⟨_, _, _, _, _, _⟩ := d₂
    simp only [Draft.transaction, Int.natCast_inj] at nonce gasPrice gas recipient value data
    subst nonce gasPrice gas recipient value data
    rfl
  · rintro rfl
    exact ⟨rfl, rfl, rfl, rfl, rfl, rfl⟩

/-- There is something to be signed for a transaction exactly if its recipient has a length that
can be written. -/
theorem exists_signingImage_iff {tx : Transaction} (natural : tx.NonNegative) {chainId : Int}
    (known : 0 ≤ chainId) :
    (∃ image, tx.signingImage chainId = .ok image) ↔
      tx.recipient.length = 0 ∨ tx.recipient.length = 20 := by
  obtain ⟨d, v, r, s, rfl⟩ := exists_draft natural
  rw [d.signingImage_eq v r s known, Draft.transaction_recipient]
  have fits : isRecipient d.recipient = true ↔
      d.recipient.length = 0 ∨ d.recipient.length = 20 := by
    rw [isRecipient, Bool.or_eq_true, beq_iff_eq, beq_iff_eq]
  rw [← fits]
  split
  · next recipient => exact iff_of_true ⟨_, rfl⟩ recipient
  · next recipient => exact iff_of_false (by simp) recipient

/-- What is signed for two transactions is the same exactly if the chains are the same and the
transactions agree. -/
theorem signingImage_inj {tx₁ tx₂ : Transaction} (natural₁ : tx₁.NonNegative)
    (natural₂ : tx₂.NonNegative) {c₁ c₂ : Int} (known₁ : 0 ≤ c₁) (known₂ : 0 ≤ c₂)
    {image₁ image₂ : Bytes} (signed₁ : tx₁.signingImage c₁ = .ok image₁)
    (signed₂ : tx₂.signingImage c₂ = .ok image₂) (fits : image₁.length < 2 ^ 64) :
    image₁ = image₂ ↔ c₁ = c₂ ∧ tx₁.Agree tx₂ := by
  obtain ⟨d₁, v₁, r₁, s₁, rfl⟩ := exists_draft natural₁
  obtain ⟨d₂, v₂, r₂, s₂, rfl⟩ := exists_draft natural₂
  rw [d₁.signingImage_eq v₁ r₁ s₁ known₁] at signed₁
  rw [d₂.signingImage_eq v₂ r₂ s₂ known₂] at signed₂
  split at signed₁
  · split at signed₂
    · obtain rfl := Except.ok.inj signed₁
      obtain rfl := Except.ok.inj signed₂
      rw [agree_transaction_iff]
      constructor
      · intro same
        obtain ⟨draft, chain⟩ := Draft.image_injective known₁ known₂ fits same
        exact ⟨chain, draft⟩
      · rintro ⟨rfl, rfl⟩
        rfl
    · simp at signed₂
  · simp at signed₁

end Transaction

namespace Payment

open Transaction

/-- Two payments of one draft on one chain are the same. -/
theorem eq_of_pays {d : Draft} {chainId : Int} (known : 0 ≤ chainId) {p₁ p₂ : Payment}
    (pays₁ : d.Pays p₁.recipient p₁.amount p₁.contract)
    (pays₂ : d.Pays p₂.recipient p₂.amount p₂.contract)
    (digest₁ : p₁.dataForSigning = Keccak.keccak256 (d.image chainId))
    (digest₂ : p₂.dataForSigning = Keccak.keccak256 (d.image chainId)) : p₁ = p₂ := by
  have made₁ := ofTransaction_of_pays 0 0 0 known pays₁
  have made₂ := ofTransaction_of_pays 0 0 0 known pays₂
  rw [← digest₁] at made₁
  rw [← digest₂, made₁] at made₂
  exact Except.ok.inj made₂

end Payment

open Transaction in
/-- What is signed commits to the chain and to every field but the transaction's own signature.
For transactions without negative quantities, it exists exactly if the recipient has 0 or 20 bytes,
and where it exists for two of them, it is the same exactly if chains and fields are. So two
payments for which the same bytes are signed are one payment on one chain. -/
theorem signingImage_commits {c₁ c₂ : Int} (known₁ : 0 ≤ c₁) (known₂ : 0 ≤ c₂) :
    (∀ tx₁ tx₂ : Transaction, tx₁.NonNegative → tx₂.NonNegative →
      ((∃ image, tx₁.signingImage c₁ = .ok image) ↔
        tx₁.recipient.length = 0 ∨ tx₁.recipient.length = 20) ∧
      ∀ image₁ image₂, tx₁.signingImage c₁ = .ok image₁ → tx₂.signingImage c₂ = .ok image₂ →
        image₁.length < 2 ^ 64 → (image₁ = image₂ ↔ c₁ = c₂ ∧ tx₁.Agree tx₂)) ∧
    ∀ (raw₁ raw₂ : Bytes) (p₁ p₂ : Payment),
      Payment.parse c₁ raw₁ = .ok p₁ → Payment.parse c₂ raw₂ = .ok p₂ →
      ∃ tx₁ tx₂ image₁ image₂,
        decode raw₁ = .ok tx₁ ∧ tx₁.signingImage c₁ = .ok image₁ ∧
        p₁.dataForSigning = Keccak.keccak256 image₁ ∧
        decode raw₂ = .ok tx₂ ∧ tx₂.signingImage c₂ = .ok image₂ ∧
        p₂.dataForSigning = Keccak.keccak256 image₂ ∧
        (image₁.length < 2 ^ 64 → image₁ = image₂ → c₁ = c₂ ∧ p₁ = p₂) := by
  constructor
  · intro tx₁ tx₂ natural₁ natural₂
    refine ⟨exists_signingImage_iff natural₁ known₁, ?_⟩
    intro image₁ image₂ signed₁ signed₂ fits
    exact signingImage_inj natural₁ natural₂ known₁ known₂ signed₁ signed₂ fits
  · intro raw₁ raw₂ p₁ p₂ ok₁ ok₂
    obtain ⟨d₁, v₁, r₁, s₁, read₁, pays₁, digest₁⟩ := (Payment.parse_eq_ok_iff known₁).1 ok₁
    obtain ⟨d₂, v₂, r₂, s₂, read₂, pays₂, digest₂⟩ := (Payment.parse_eq_ok_iff known₂).1 ok₂
    have signed₁ := d₁.signingImage_eq v₁ r₁ s₁ known₁
    have signed₂ := d₂.signingImage_eq v₂ r₂ s₂ known₂
    rw [if_pos pays₁.isRecipient] at signed₁
    rw [if_pos pays₂.isRecipient] at signed₂
    refine ⟨_, _, _, _, read₁, signed₁, digest₁, read₂, signed₂, digest₂, fun fits same => ?_⟩
    obtain ⟨rfl, rfl⟩ := Draft.image_injective known₁ known₂ fits same
    exact ⟨rfl, Payment.eq_of_pays known₁ pays₁ pays₂ digest₁ digest₂⟩

open Transaction in
/-- One draft, read on the main network and on Holesky, is two payments that sign different
bytes. -/
theorem signingImage_commits_to_chain :
    let d : Draft := ⟨9, 20000000000, 21000, List.replicate 20 0x35, 10 ^ 18, []⟩
    let payment (chainId : Int) : Payment :=
      ⟨d.recipient, d.value, none, Keccak.keccak256 (d.image chainId)⟩
    Payment.parse 1 d.unsigned = .ok (payment 1) ∧
      Payment.parse 17000 (d.signed 37 1 2) = .ok (payment 17000) ∧
      (d.transaction 0 0 0).signingImage 1 = .ok (d.image 1) ∧
      (d.transaction 37 1 2).signingImage 17000 = .ok (d.image 17000) ∧
      d.image 1 ≠ d.image 17000 := by
  intro d payment
  have pays : d.Pays d.recipient d.value none := .native rfl (by decide) rfl
  have read₁ : decode d.unsigned = .ok (d.transaction 0 0 0) :=
    Draft.decode_unsigned rfl (by decide +kernel)
  have read₂ : decode (d.signed 37 1 2) = .ok (d.transaction 37 1 2) :=
    Draft.decode_signed rfl (by decide +kernel)
  have ok₁ : Payment.parse 1 d.unsigned = .ok (payment 1) :=
    (Payment.parse_eq_ok_iff (by decide)).2 ⟨d, 0, 0, 0, read₁, pays, rfl⟩
  have ok₂ : Payment.parse 17000 (d.signed 37 1 2) = .ok (payment 17000) :=
    (Payment.parse_eq_ok_iff (by decide)).2 ⟨d, 37, 1, 2, read₂, pays, rfl⟩
  have signed₁ : (d.transaction 0 0 0).signingImage 1 = .ok (d.image 1) :=
    d.signingImage_eq 0 0 0 (by decide)
  have signed₂ : (d.transaction 37 1 2).signingImage 17000 = .ok (d.image 17000) :=
    d.signingImage_eq 37 1 2 (by decide)
  refine ⟨ok₁, ok₂, signed₁, signed₂, fun same => ?_⟩
  have known₁ : (0 : Int) ≤ 1 := by decide
  have known₂ : (0 : Int) ≤ 17000 := by decide
  obtain ⟨tx₁, tx₂, image₁, image₂, tx₁_read, tx₁_signed, -, tx₂_read, tx₂_signed, -, one⟩ :=
    (signingImage_commits known₁ known₂).2 _ _ _ _ ok₁ ok₂
  obtain rfl := Except.ok.inj (tx₁_read.symm.trans read₁)
  obtain rfl := Except.ok.inj (tx₂_read.symm.trans read₂)
  obtain rfl := Except.ok.inj (tx₁_signed.symm.trans signed₁)
  obtain rfl := Except.ok.inj (tx₂_signed.symm.trans signed₂)
  have chains := (one (by decide +kernel) same).1
  exact absurd chains (by decide)

end Custody.Ethereum
