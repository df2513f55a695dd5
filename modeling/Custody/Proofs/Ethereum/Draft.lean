import Custody.Proofs.Ethereum.Grammar

/-!
# Drafts

A draft holds the six fields of a transaction that a signature commits to, with quantities that are
natural numbers. It is what a transaction's bytes and its signing image have in common: `unsigned`
and `signed` are its two written forms, and its `image` on a chain is the signed form with the
chain's id as `v`.

`decode_unsigned` and `decode_signed` show that both forms read back as transactions of the draft,
`exists_draft_of_decode` that nothing else is ever read, and `signingImage_eq` that what is signed
for a transaction is the image of its draft. `image_injective` is the fact that signatures rest on:
an image determines the draft and the chain.
-/

namespace Custody.Ethereum

/-- The fields of a transaction that a signature commits to. -/
structure Draft where
  /-- The sender's running number. -/
  nonce : Nat
  /-- The price of a unit of gas. -/
  gasPrice : Nat
  /-- The most gas to be used. -/
  gas : Nat
  /-- The recipient's address, or nothing when a contract is created. -/
  recipient : Bytes
  /-- The amount of native currency moved. -/
  value : Nat
  /-- The call data. -/
  data : Bytes
deriving DecidableEq, Repr

namespace Draft

/-- The items of the six fields. -/
def items (d : Draft) : List Rlp.Item :=
  [.ofNat d.nonce, .ofNat d.gasPrice, .ofNat d.gas, .bytes d.recipient, .ofNat d.value,
    .bytes d.data]

/-- The written form without a signature: a list of six items. -/
def unsigned (d : Draft) : Bytes :=
  (Rlp.Item.list d.items).encode

/-- The written form with a signature: a list of nine items. -/
def signed (d : Draft) (v r s : Nat) : Bytes :=
  (Rlp.Item.list (d.items ++ [.ofNat v, .ofNat r, .ofNat s])).encode

/-- What is signed on a chain: the form with the chain's id in place of `v` and no more of a
signature. -/
def image (d : Draft) (chainId : Int) : Bytes :=
  d.signed chainId.toNat 0 0

/-- The transaction with the fields of the draft and a signature. -/
@[simps] def transaction (d : Draft) (v r s : Nat) : Transaction where
  nonce := d.nonce
  gasPrice := d.gasPrice
  gas := d.gas
  recipient := d.recipient
  value := d.value
  data := d.data
  v := v
  r := r
  s := s

end Draft

namespace Transaction

/-- No quantity of a transaction is negative. -/
structure NonNegative (tx : Transaction) : Prop where
  nonce : 0 ≤ tx.nonce
  gasPrice : 0 ≤ tx.gasPrice
  gas : 0 ≤ tx.gas
  value : 0 ≤ tx.value
  v : 0 ≤ tx.v
  r : 0 ≤ tx.r
  s : 0 ≤ tx.s

/-- A transaction without negative quantities is a draft with a signature. -/
theorem exists_draft {tx : Transaction} (natural : tx.NonNegative) :
    ∃ (d : Draft) (v r s : Nat), tx = d.transaction v r s := by
  obtain ⟨nonce, gasPrice, gas, recipient, value, data, v, r, s⟩ := tx
  obtain ⟨hnonce, hprice, hgas, hvalue, hv, hr, hs⟩ := natural
  simp only at hnonce hprice hgas hvalue hv hr hs
  lift nonce to Nat using hnonce
  lift gasPrice to Nat using hprice
  lift gas to Nat using hgas
  lift value to Nat using hvalue
  lift v to Nat using hv
  lift r to Nat using hr
  lift s to Nat using hs
  exact ⟨⟨nonce, gasPrice, gas, recipient, value, data⟩, v, r, s, rfl⟩

/-! ## Reading -/

/-- No negative number is spelled. -/
theorem Spells.nonneg {n : Int} {item : Rlp.Item} (spells : Spells n item) : 0 ≤ n := by
  cases spells with
  | shortest n => exact Int.natCast_nonneg n
  | emptyList => exact le_refl 0

/-- The transaction that a written list is read as is that of its items. -/
theorem decode_list {items : List Rlp.Item}
    (fits : (Rlp.Item.list items).encode.length < 2 ^ 64) :
    decode (Rlp.Item.list items).encode = ofItems items :=
  decode_of_listed (Rlp.decode_encode fits)

/-- A transaction that items are the fields of has no negative quantity, and a recipient of the
right length. -/
theorem WrittenAs.natural {tx : Transaction} {items : List Rlp.Item}
    (fields : tx.WrittenAs items) : tx.NonNegative ∧ isRecipient tx.recipient = true := by
  rcases fields with ⟨v, r, s, held⟩ | held
  · obtain _ | ⟨nonce, _ | ⟨price, _ | ⟨gas, _ | ⟨recipient, _ | ⟨value, _⟩⟩⟩⟩⟩ := held
    exact ⟨⟨nonce.nonneg, price.nonneg, gas.nonneg, value.nonneg, v.ge, r.ge, s.ge⟩, recipient.2⟩
  · obtain _ | ⟨nonce, _ | ⟨price, _ | ⟨gas, _ | ⟨recipient, _ | ⟨value, _ | ⟨_, _ | ⟨v,
      _ | ⟨r, _ | ⟨s, _⟩⟩⟩⟩⟩⟩⟩⟩⟩ := held
    exact ⟨⟨nonce.nonneg, price.nonneg, gas.nonneg, value.nonneg, v.nonneg, r.nonneg, s.nonneg⟩,
      recipient.2⟩

/-- A transaction is read from the items of a list. -/
theorem exists_items_of_decode {raw : Bytes} {tx : Transaction} (read : decode raw = .ok tx) :
    ∃ items, Rlp.decode raw = .ok (.list items) ∧ ofItems items = .ok tx := by
  unfold decode at read
  split at read
  · simp at read
  · split at read
    · simp at read
    · split at read
      · simp at read
      · simp at read
      · next items listed => exact ⟨items, listed, read⟩

/-- Whatever bytes are read as a transaction, it is a draft with a signature. -/
theorem exists_draft_of_decode {raw : Bytes} {tx : Transaction} (read : decode raw = .ok tx) :
    ∃ (d : Draft) (v r s : Nat), tx = d.transaction v r s ∧ isRecipient d.recipient = true := by
  obtain ⟨items, -, read_items⟩ := exists_items_of_decode read
  obtain ⟨natural, recipient⟩ := (ofItems_eq_ok_iff.1 read_items).natural
  obtain ⟨d, v, r, s, rfl⟩ := exists_draft natural
  exact ⟨d, v, r, s, rfl, recipient⟩

/-- A number is written as the item that spells it. -/
theorem writeQuantity_natCast (field : Field) (n : Nat) :
    writeQuantity field n = .ok (.ofNat n) := by
  rw [writeQuantity, if_neg (by omega), Int.toNat_natCast]

end Transaction

namespace Draft

open Transaction

/-! ## Reading the two forms -/

/-- The items of a draft are the signed fields of its transactions. -/
theorem holds_items {d : Draft} (recipient : isRecipient d.recipient = true) (v r s : Nat) :
    List.Forall₂ (d.transaction v r s).Holds unsignedFields d.items :=
  .cons (.shortest d.nonce) (.cons (.shortest d.gasPrice) (.cons (.shortest d.gas)
    (.cons ⟨rfl, recipient⟩ (.cons (.shortest d.value) (.cons rfl .nil)))))

/-- The unsigned form of a draft reads back as the draft with zeros for a signature. -/
theorem decode_unsigned {d : Draft} (recipient : isRecipient d.recipient = true)
    (fits : d.unsigned.length < 2 ^ 64) : decode d.unsigned = .ok (d.transaction 0 0 0) := by
  rw [unsigned, decode_list fits, ofItems_eq_ok_iff]
  exact .unsigned rfl rfl rfl (holds_items recipient 0 0 0)

/-- The signed form of a draft reads back as the draft with that signature. -/
theorem decode_signed {d : Draft} {v r s : Nat} (recipient : isRecipient d.recipient = true)
    (fits : (d.signed v r s).length < 2 ^ 64) :
    decode (d.signed v r s) = .ok (d.transaction v r s) := by
  have signature : List.Forall₂ (d.transaction v r s).Holds [.v, .r, .s]
      [.ofNat v, .ofNat r, .ofNat s] :=
    .cons (.shortest v) (.cons (.shortest r) (.cons (.shortest s) .nil))
  rw [signed, decode_list fits, ofItems_eq_ok_iff]
  exact .signed (List.rel_append (holds_items recipient v r s) signature)

/-! ## What is signed -/

/-- The signed fields are written as the items of the draft, unless the recipient has a wrong
length. -/
theorem unsignedItems_transaction (d : Draft) (v r s : Nat) :
    (d.transaction v r s).unsignedItems =
      if isRecipient d.recipient then .ok d.items else .error .recipientLength := by
  by_cases recipient : isRecipient d.recipient = true
  · have written : writeRecipient d.recipient = .ok (.bytes d.recipient) := if_pos recipient
    simp only [unsignedItems, transaction, writeQuantity_natCast, written, Outcome.ok_bind,
      if_pos recipient]
    rfl
  · have refused : writeRecipient d.recipient = .error .recipientLength := if_neg recipient
    simp only [unsignedItems, transaction, writeQuantity_natCast, refused, Outcome.ok_bind,
      Outcome.error_bind, if_neg recipient]

/-- The unsigned form is written, unless the recipient has a wrong length. -/
theorem encodeUnsigned_transaction (d : Draft) (v r s : Nat) :
    (d.transaction v r s).encodeUnsigned =
      if isRecipient d.recipient then .ok d.unsigned else .error .recipientLength := by
  rw [encodeUnsigned, unsignedItems_transaction]
  split <;> rfl

/-- The signed form is written, unless the recipient has a wrong length. -/
theorem encodeSigned_transaction (d : Draft) (v r s : Nat) :
    (d.transaction v r s).encodeSigned =
      if isRecipient d.recipient then .ok (d.signed v r s) else .error .recipientLength := by
  rw [encodeSigned, signedItems, unsignedItems_transaction]
  split
  · simp only [transaction, writeQuantity_natCast, Outcome.ok_bind]
    rfl
  · rfl

/-- What is signed for a transaction is the image of its draft; a recipient of a wrong length has
none. The transaction's own signature does not matter. -/
theorem signingImage_eq (d : Draft) (v r s : Nat) {chainId : Int} (known : 0 ≤ chainId) :
    (d.transaction v r s).signingImage chainId =
      if isRecipient d.recipient then .ok (d.image chainId) else .error .recipientLength := by
  lift chainId to Nat using known
  exact encodeSigned_transaction d chainId 0 0

/-- An image determines the draft and the chain. -/
theorem image_injective {d₁ d₂ : Draft} {c₁ c₂ : Int} (known₁ : 0 ≤ c₁) (known₂ : 0 ≤ c₂)
    (fits : (d₁.image c₁).length < 2 ^ 64) (same : d₁.image c₁ = d₂.image c₂) :
    d₁ = d₂ ∧ c₁ = c₂ := by
  obtain ⟨nonce₁, price₁, gas₁, recipient₁, value₁, data₁⟩ := d₁
  obtain ⟨nonce₂, price₂, gas₂, recipient₂, value₂, data₂⟩ := d₂
  -- Equal written forms are equal items, and so equal field by field.
  have equal := Rlp.Item.list.inj (Rlp.encode_injective fits same)
  simp only [items, List.cons_append, List.nil_append, List.cons.injEq, Rlp.Item.bytes.injEq,
    and_true] at equal
  obtain ⟨nonce, price, gas, rfl, value, rfl, chain⟩ := equal
  obtain rfl := Rlp.Item.ofNat_injective nonce
  obtain rfl := Rlp.Item.ofNat_injective price
  obtain rfl := Rlp.Item.ofNat_injective gas
  obtain rfl := Rlp.Item.ofNat_injective value
  have id := Rlp.Item.ofNat_injective chain
  exact ⟨rfl, by omega⟩

end Draft

end Custody.Ethereum
