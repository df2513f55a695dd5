import Custody.Proofs.Ethereum.Reading

/-!
# Which items are which transaction

`WrittenAs` is the grammar of transactions, said without the reader: a transaction is written as the
items of its six signed fields, if it has no signature, or as those of all nine, and each item
`Holds` what the transaction has in its field. A number has two spellings only if it is zero, the
empty string and the empty list.

`ofItems_eq_ok_iff` compares the reader with the grammar, field by field: items are read as a
transaction exactly if they are its fields.
-/

namespace Custody.Ethereum.Transaction

/-- An item spells a number. -/
inductive Spells : Int → Rlp.Item → Prop
  /-- The shortest spelling of the number, which is empty for zero. -/
  | shortest (n : Nat) : Spells n (.ofNat n)
  /-- The empty list, for zero. -/
  | emptyList : Spells 0 (.list [])

/-- An item holds what a transaction has in a field. -/
def Holds (tx : Transaction) : Field → Rlp.Item → Prop
  | .nonce, item => Spells tx.nonce item
  | .gasPrice, item => Spells tx.gasPrice item
  | .gas, item => Spells tx.gas item
  | .recipient, item => item = .bytes tx.recipient ∧ isRecipient tx.recipient = true
  | .value, item => Spells tx.value item
  | .data, item => item = .bytes tx.data
  | .v, item => Spells tx.v item
  | .r, item => Spells tx.r item
  | .s, item => Spells tx.s item

/-- Items are the fields of a transaction, in one of its two forms. -/
inductive WrittenAs (tx : Transaction) (items : List Rlp.Item) : Prop
  /-- The six fields of a transaction without a signature. -/
  | unsigned : tx.v = 0 → tx.r = 0 → tx.s = 0 → List.Forall₂ tx.Holds unsignedFields items →
      WrittenAs tx items
  /-- All nine fields. -/
  | signed : List.Forall₂ tx.Holds signedFields items → WrittenAs tx items

/-! ## One field -/

/-- A number is read from the item that it is written as. -/
theorem readQuantity_ofNat (field : Field) (n : Nat) :
    readQuantity field (.ofNat n) = .ok (n : Int) := by
  have unpadded := Bytes.head?_ofNat n
  have value := Bytes.toNat_ofNat n
  rw [Rlp.Item.ofNat]
  generalize Bytes.ofNat n = spelled at unpadded value ⊢
  cases spelled with
  | nil =>
    rw [← value]
    rfl
  | cons b rest =>
    have nonzero : b ≠ 0 := by simpa using unpadded
    rw [readQuantity, if_neg nonzero, value]

/-- A number is read exactly from the items that spell it. -/
theorem readQuantity_eq_ok_iff {field : Field} {item : Rlp.Item} {n : Int} :
    readQuantity field item = .ok n ↔ Spells n item := by
  constructor
  · intro read
    unfold readQuantity at read
    split at read
    · obtain rfl := Except.ok.inj read
      have zero : Rlp.Item.bytes [] = .ofNat 0 := by rw [Rlp.Item.ofNat, Bytes.ofNat_zero]
      rw [zero]
      exact .shortest 0
    · next b rest =>
      split at read
      · simp at read
      · next unpadded =>
        obtain rfl := Except.ok.inj read
        have shortest : Bytes.ofNat (Bytes.toNat (b :: rest)) = b :: rest :=
          Bytes.ofNat_toNat (by simpa using unpadded)
        have item : Rlp.Item.bytes (b :: rest) = .ofNat (Bytes.toNat (b :: rest)) := by
          rw [Rlp.Item.ofNat, shortest]
        rw [item]
        exact .shortest _
    · obtain rfl := Except.ok.inj read
      exact .emptyList
    · simp at read
  · intro spells
    cases spells with
    | shortest n => exact readQuantity_ofNat field n
    | emptyList => rfl

/-- A recipient is read exactly from its own bytes, if it has a recipient's length. -/
theorem readRecipient_eq_ok_iff {item : Rlp.Item} {address : Bytes} :
    readRecipient item = .ok address ↔ item = .bytes address ∧ isRecipient address = true := by
  constructor
  · intro read
    unfold readRecipient at read
    split at read
    · split at read
      · next length =>
        obtain rfl := Except.ok.inj read
        exact ⟨rfl, length⟩
      · simp at read
    · simp at read
  · rintro ⟨rfl, length⟩
    rw [readRecipient, if_pos length]

/-- Call data is read exactly from its own bytes. -/
theorem readData_eq_ok_iff {item : Rlp.Item} {data : Bytes} :
    readData item = .ok data ↔ item = .bytes data := by
  cases item with
  | bytes content => simp [readData]
  | list items => simp [readData]

/-! ## All fields -/

/-- Items are read as a transaction exactly if they are its fields. -/
theorem ofItems_eq_ok_iff {items : List Rlp.Item} {tx : Transaction} :
    ofItems items = .ok tx ↔ tx.WrittenAs items := by
  constructor
  · -- The reader has one branch for each form; any other number of items is a fault.
    intro read
    unfold ofItems at read
    split at read
    · simp only [Outcome.bind_eq_ok, readQuantity_eq_ok_iff, readRecipient_eq_ok_iff,
        readData_eq_ok_iff, Except.ok.injEq] at read
      obtain ⟨nonce, hnonce, price, hprice, gas, hgas, recipient, hrecipient, value, hvalue, data,
        hdata, rfl⟩ := read
      exact .unsigned rfl rfl rfl (.cons hnonce (.cons hprice (.cons hgas (.cons hrecipient
        (.cons hvalue (.cons hdata .nil))))))
    · simp only [Outcome.bind_eq_ok, readQuantity_eq_ok_iff, readRecipient_eq_ok_iff,
        readData_eq_ok_iff, Except.ok.injEq] at read
      obtain ⟨nonce, hnonce, price, hprice, gas, hgas, recipient, hrecipient, value, hvalue, data,
        hdata, v, hv, r, hr, s, hs, rfl⟩ := read
      exact .signed (.cons hnonce (.cons hprice (.cons hgas (.cons hrecipient (.cons hvalue
        (.cons hdata (.cons hv (.cons hr (.cons hs .nil)))))))))
    · simp at read
  · obtain ⟨nonce, price, gas, recipient, value, data, v, r, s⟩ := tx
    rintro (⟨rfl, rfl, rfl, held⟩ | held)
    · obtain _ | ⟨hnonce, _ | ⟨hprice, _ | ⟨hgas, _ | ⟨hrecipient, _ | ⟨hvalue, _ | ⟨hdata,
        _ | _⟩⟩⟩⟩⟩⟩ := held
      simp only [ofItems, readQuantity_eq_ok_iff.2 hnonce, readQuantity_eq_ok_iff.2 hprice,
        readQuantity_eq_ok_iff.2 hgas, readRecipient_eq_ok_iff.2 hrecipient,
        readQuantity_eq_ok_iff.2 hvalue, readData_eq_ok_iff.2 hdata, Outcome.ok_bind]
    · obtain _ | ⟨hnonce, _ | ⟨hprice, _ | ⟨hgas, _ | ⟨hrecipient, _ | ⟨hvalue, _ | ⟨hdata,
        _ | ⟨hv, _ | ⟨hr, _ | ⟨hs, _ | _⟩⟩⟩⟩⟩⟩⟩⟩⟩ := held
      simp only [ofItems, readQuantity_eq_ok_iff.2 hnonce, readQuantity_eq_ok_iff.2 hprice,
        readQuantity_eq_ok_iff.2 hgas, readRecipient_eq_ok_iff.2 hrecipient,
        readQuantity_eq_ok_iff.2 hvalue, readData_eq_ok_iff.2 hdata, readQuantity_eq_ok_iff.2 hv,
        readQuantity_eq_ok_iff.2 hr, readQuantity_eq_ok_iff.2 hs, Outcome.ok_bind]

end Custody.Ethereum.Transaction
