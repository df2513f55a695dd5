import Custody.Proofs.Ethereum.Draft
import Custody.Proofs.Rlp.Canonical

/-!
# The written form of a transaction that was read

Written again in as many fields as it had, a transaction that was read gives back the bytes that it
was read from, unless the empty list stood for one of its quantities (`canonical_iff`). The empty
list spells zero, and zero is written as the empty string; every other item is written as it stands
(`unsignedItems_of_holds`, `signedItems_of_holds`), and `Rlp.encode_of_decode` does the rest.

`Rlp.Item.emptyAsBytes` is the one change that reading and writing make to an item. It keeps the
length of every written form, so that headers around it stay what they are, and
`Rlp.encode_list_emptyAsBytes_iff` says that it changes a list's written form exactly if the empty
list is among the items.
-/

namespace Custody

namespace Rlp

/-! ## The empty list for the empty string -/

/-- The item, with the empty string in the place of the empty list. -/
def Item.emptyAsBytes : Item → Item
  | .list [] => .bytes []
  | item => item

/-- Only the empty list is changed. -/
theorem Item.emptyAsBytes_of_ne {item : Item} (other : item ≠ .list []) :
    item.emptyAsBytes = item := by
  rcases item with content | (_ | ⟨first, rest⟩)
  · rfl
  · exact absurd rfl other
  · rfl

/-- What a change leaves is not the empty list. -/
theorem Item.emptyAsBytes_ne (item : Item) : item.emptyAsBytes ≠ .list [] := by
  by_cases empty : item = .list []
  · subst empty
    simp [emptyAsBytes]
  · rwa [emptyAsBytes_of_ne empty]

/-- The empty list and the empty string have written forms of one byte each. -/
theorem Item.length_encode_emptyAsBytes (item : Item) :
    item.emptyAsBytes.encode.length = item.encode.length := by
  by_cases empty : item = .list []
  · subst empty
    rfl
  · rw [emptyAsBytes_of_ne empty]

/-- The written form changes with the item. -/
theorem Item.encode_emptyAsBytes_iff {item : Item} :
    item.emptyAsBytes.encode = item.encode ↔ item ≠ .list [] := by
  constructor
  · rintro same rfl
    exact absurd same (by decide)
  · intro other
    rw [emptyAsBytes_of_ne other]

/-- The change keeps the length of all written forms together. -/
theorem length_encodeAll_emptyAsBytes (items : List Item) :
    (encodeAll (items.map Item.emptyAsBytes)).length = (encodeAll items).length := by
  induction items with
  | nil => rfl
  | cons item items ih =>
    rw [List.map_cons, encodeAll, encodeAll, List.length_append, List.length_append, ih,
      Item.length_encode_emptyAsBytes]

/-- The written forms stay the same if no item is the empty list. -/
theorem encodeAll_emptyAsBytes_iff {items : List Item} :
    encodeAll (items.map Item.emptyAsBytes) = encodeAll items ↔ Item.list [] ∉ items := by
  induction items with
  | nil => simp [encodeAll]
  | cons item items ih =>
    rw [List.map_cons, encodeAll, encodeAll, List.mem_cons, not_or, ← ih, ← ne_eq,
      ne_comm, ← Item.encode_emptyAsBytes_iff]
    constructor
    · intro same
      exact List.append_inj same (Item.length_encode_emptyAsBytes item)
    · rintro ⟨first, rest⟩
      rw [first, rest]

/-- A list's written form keeps its length. -/
theorem length_encode_list_emptyAsBytes (items : List Item) :
    (Item.list (items.map Item.emptyAsBytes)).encode.length = (Item.list items).encode.length := by
  rw [Item.encode, Item.encode, List.length_append, List.length_append,
    length_encodeAll_emptyAsBytes]

/-- A list's written form stays the same if none of its items is the empty list. -/
theorem encode_list_emptyAsBytes_iff {items : List Item} :
    (Item.list (items.map Item.emptyAsBytes)).encode = (Item.list items).encode ↔
      Item.list [] ∉ items := by
  rw [Item.encode, Item.encode, length_encodeAll_emptyAsBytes, List.append_cancel_left_eq,
    encodeAll_emptyAsBytes_iff]

end Rlp

namespace Ethereum

namespace Transaction

/-! ## One field -/

/-- Zero is written as the empty string. -/
theorem writeQuantity_zero (field : Field) : writeQuantity field 0 = .ok (.bytes []) := by
  have written := writeQuantity_natCast field 0
  rwa [Rlp.Item.ofNat, Bytes.ofNat_zero] at written

/-- A number is written as the item that spells it, or as the empty string for the empty list. -/
theorem writeQuantity_of_spells {n : Int} {item : Rlp.Item} (spells : Spells n item)
    (field : Field) : writeQuantity field n = .ok item.emptyAsBytes := by
  cases spells with
  | shortest n => exact writeQuantity_natCast field n
  | emptyList => exact writeQuantity_zero field

/-- With the empty string in the place of the empty list, an item spells the same number. -/
theorem Spells.emptyAsBytes {n : Int} {item : Rlp.Item} (spells : Spells n item) :
    Spells n item.emptyAsBytes := by
  cases spells with
  | shortest n => exact .shortest n
  | emptyList =>
    have zero : Rlp.Item.bytes [] = .ofNat 0 := by rw [Rlp.Item.ofNat, Bytes.ofNat_zero]
    show Spells 0 (.bytes [])
    rw [zero]
    exact .shortest 0

/-- With the empty string in the place of the empty list, an item holds the same. -/
theorem Holds.emptyAsBytes {tx : Transaction} {field : Field} {item : Rlp.Item}
    (holds : tx.Holds field item) : tx.Holds field item.emptyAsBytes := by
  cases field with
  | recipient =>
    obtain ⟨rfl, length⟩ := holds
    exact ⟨rfl, length⟩
  | data =>
    obtain rfl := holds
    rfl
  | _ => exact Spells.emptyAsBytes holds

/-! ## All fields -/

/-- The written form of a transaction with as many fields as it was read from: six without a
signature, or all nine. -/
def encodeFields (tx : Transaction) (count : Nat) : Except EncodeFault Bytes :=
  if count = 6 then tx.encodeUnsigned else tx.encodeSigned

/-- The bytes spell a list of so many items. -/
def HasFields (raw : Bytes) (count : Nat) : Prop :=
  ∃ items, Rlp.decode raw = .ok (.list items) ∧ items.length = count

/-- The bytes spell a list with the empty list among its items. -/
def SpellsZeroAsList (raw : Bytes) : Prop :=
  ∃ items, Rlp.decode raw = .ok (.list items) ∧ Rlp.Item.list [] ∈ items

/-- The number of fields that bytes spell is that of the items that they are read as. -/
theorem hasFields_iff {raw : Bytes} {items : List Rlp.Item} {count : Nat}
    (listed : Rlp.decode raw = .ok (.list items)) : HasFields raw count ↔ items.length = count := by
  simp [HasFields, listed]

/-- The bytes spell a zero as a list if the items that they are read as hold the empty list. -/
theorem spellsZeroAsList_iff {raw : Bytes} {items : List Rlp.Item}
    (listed : Rlp.decode raw = .ok (.list items)) :
    SpellsZeroAsList raw ↔ Rlp.Item.list [] ∈ items := by
  simp [SpellsZeroAsList, listed]

/-- With the empty string in the place of the empty list, items are the fields of the same
transaction. -/
theorem WrittenAs.emptyAsBytes {tx : Transaction} {items : List Rlp.Item}
    (fields : tx.WrittenAs items) : tx.WrittenAs (items.map Rlp.Item.emptyAsBytes) := by
  have changed : ∀ {fields items}, List.Forall₂ tx.Holds fields items →
      List.Forall₂ tx.Holds fields (items.map Rlp.Item.emptyAsBytes) := fun held =>
    List.forall₂_map_right_iff.2 (held.imp fun _ _ => Holds.emptyAsBytes)
  rcases fields with ⟨v, r, s, held⟩ | held
  · exact .unsigned v r s (changed held)
  · exact .signed (changed held)

/-- The signed fields are written as the items that hold them, up to the empty list. -/
theorem unsignedItems_of_holds {tx : Transaction} {items : List Rlp.Item}
    (held : List.Forall₂ tx.Holds unsignedFields items) :
    tx.unsignedItems = .ok (items.map Rlp.Item.emptyAsBytes) := by
  obtain _ | ⟨nonce, _ | ⟨price, _ | ⟨gas, _ | ⟨⟨rfl, length⟩, _ | ⟨value, _ | ⟨rfl,
    _ | _⟩⟩⟩⟩⟩⟩ := held
  have written : writeRecipient tx.recipient = .ok (.bytes tx.recipient) := if_pos length
  simp only [unsignedItems, writeQuantity_of_spells nonce, writeQuantity_of_spells price,
    writeQuantity_of_spells gas, written, writeQuantity_of_spells value, Outcome.ok_bind]
  rfl

/-- All fields are written as the items that hold them, up to the empty list. -/
theorem signedItems_of_holds {tx : Transaction} {items : List Rlp.Item}
    (held : List.Forall₂ tx.Holds signedFields items) :
    tx.signedItems = .ok (items.map Rlp.Item.emptyAsBytes) := by
  -- The signed fields come first, and the signature is written behind them.
  have front : List.Forall₂ tx.Holds unsignedFields (items.take 6) := List.forall₂_take 6 held
  have signature : List.Forall₂ tx.Holds [.v, .r, .s] (items.drop 6) := List.forall₂_drop 6 held
  rw [← List.take_append_drop 6 items, List.map_append, signedItems, unsignedItems_of_holds front]
  generalize items.drop 6 = rest at signature ⊢
  obtain _ | ⟨v, _ | ⟨r, _ | ⟨s, _ | _⟩⟩⟩ := signature
  simp only [writeQuantity_of_spells v, writeQuantity_of_spells r, writeQuantity_of_spells s,
    Outcome.ok_bind]
  rfl

/-- A transaction that was read from items is written as these items, with the empty string in the
place of the empty list, and is read from the changed items as well. -/
theorem encodeFields_of_ofItems {items : List Rlp.Item} {tx : Transaction}
    (read : ofItems items = .ok tx) :
    (items.length = 6 ∨ items.length = 9) ∧
      tx.encodeFields items.length =
        .ok (Rlp.Item.list (items.map Rlp.Item.emptyAsBytes)).encode ∧
      ofItems (items.map Rlp.Item.emptyAsBytes) = .ok tx := by
  have fields := ofItems_eq_ok_iff.1 read
  have reread := ofItems_eq_ok_iff.2 fields.emptyAsBytes
  rcases fields with ⟨-, -, -, held⟩ | held
  · have count : items.length = 6 := held.length_eq.symm
    refine ⟨.inl count, ?_, reread⟩
    rw [encodeFields, if_pos count, encodeUnsigned, unsignedItems_of_holds held, Outcome.map_ok]
  · have count : items.length = 9 := held.length_eq.symm
    refine ⟨.inr count, ?_, reread⟩
    rw [encodeFields, if_neg (by omega), encodeSigned, signedItems_of_holds held, Outcome.map_ok]

/-- The written form of a list is read as the list, and as the transaction of its items. -/
theorem decode_of_written {raw : Bytes} {items : List Rlp.Item} {tx : Transaction}
    (written : (Rlp.Item.list items).encode = raw) (fits : raw.length < 2 ^ 64)
    (read : ofItems items = .ok tx) : Rlp.decode raw = .ok (.list items) ∧ decode raw = .ok tx := by
  subst written
  exact ⟨Rlp.decode_encode fits, (decode_list fits).trans read⟩

/-- The changed items are read back from their written form, as the same transaction. -/
theorem decode_emptyAsBytes {raw : Bytes} {items : List Rlp.Item} {tx : Transaction}
    (listed : Rlp.decode raw = .ok (.list items)) (read : ofItems items = .ok tx)
    (fits : raw.length < 2 ^ 64) :
    let written := (Rlp.Item.list (items.map Rlp.Item.emptyAsBytes)).encode
    decode written = .ok tx ∧ HasFields written items.length ∧ ¬SpellsZeroAsList written := by
  intro written
  have length : written.length < 2 ^ 64 := by
    rw [Rlp.length_encode_list_emptyAsBytes, Rlp.encode_of_decode listed]
    exact fits
  obtain ⟨relisted, reread⟩ := decode_of_written rfl length (encodeFields_of_ofItems read).2.2
  refine ⟨reread, ?_, ?_⟩
  · rw [hasFields_iff relisted, List.length_map]
  · rw [spellsZeroAsList_iff relisted, List.mem_map]
    rintro ⟨item, -, empty⟩
    exact item.emptyAsBytes_ne empty

/-- Bytes that spell no zero as a list are the written form of the transaction that is read from
them. -/
theorem encodeFields_of_decode {raw : Bytes} {tx : Transaction} {count : Nat}
    (read : decode raw = .ok tx) (fields : HasFields raw count) :
    ∃ written, tx.encodeFields count = .ok written ∧ (written = raw ↔ ¬SpellsZeroAsList raw) := by
  obtain ⟨items, listed, read_items⟩ := exists_items_of_decode read
  obtain rfl := (hasFields_iff listed).1 fields
  obtain ⟨-, written, -⟩ := encodeFields_of_ofItems read_items
  refine ⟨_, written, ?_⟩
  rw [spellsZeroAsList_iff listed, ← Rlp.encode_list_emptyAsBytes_iff, Rlp.encode_of_decode listed]

/-- A transaction is read from six fields or from nine, and it can be written again in as many. What
is written is what it was read from, exactly if that spells no zero as a list, and no other bytes
that spell none are read as the transaction from as many fields. Where a zero was spelled as a list
there are two forms of one transaction, for what is written is read as the transaction as well. -/
theorem canonical_iff {raw : Bytes} {tx : Transaction} (read : decode raw = .ok tx) :
    ∃ count written, (count = 6 ∨ count = 9) ∧ HasFields raw count ∧
      tx.encodeFields count = .ok written ∧ (written = raw ↔ ¬SpellsZeroAsList raw) ∧
      (∀ other, decode other = .ok tx → HasFields other count → ¬SpellsZeroAsList other →
        other = written) ∧
      (raw.length < 2 ^ 64 →
        decode written = .ok tx ∧ HasFields written count ∧ ¬SpellsZeroAsList written) := by
  obtain ⟨items, listed, read_items⟩ := exists_items_of_decode read
  obtain ⟨count, written, -⟩ := encodeFields_of_ofItems read_items
  have fields : HasFields raw items.length := (hasFields_iff listed).2 rfl
  obtain ⟨written', same, canonical⟩ := encodeFields_of_decode read fields
  obtain rfl := Except.ok.inj (same.symm.trans written)
  refine ⟨items.length, _, count, fields, written, canonical, ?_, ?_⟩
  · -- Other bytes without such a list are what is written for them, and this is for the same
    -- transaction in the same number of fields.
    intro other read_other fields_other plain
    obtain ⟨written', same, canonical'⟩ := encodeFields_of_decode read_other fields_other
    obtain rfl := Except.ok.inj (same.symm.trans written)
    exact (canonical'.2 plain).symm
  · exact decode_emptyAsBytes listed read_items

/-- A transaction with the nonce 5 and nothing else is written as it was read. -/
theorem canonical_iff_nonce :
    let raw : Bytes := [0xc6, 0x05, 0x80, 0x80, 0x80, 0x80, 0x80]
    ∃ tx, decode raw = .ok tx ∧ tx.encodeFields 6 = .ok raw := by
  intro raw
  let items : List Rlp.Item := [.bytes [5], .bytes [], .bytes [], .bytes [], .bytes [], .bytes []]
  have read_items : ofItems items = .ok ⟨5, 0, 0, [], 0, [], 0, 0, 0⟩ := rfl
  obtain ⟨listed, read⟩ : Rlp.decode raw = .ok (.list items) ∧ decode raw = .ok _ :=
    decode_of_written (by decide +kernel) (by decide) read_items
  obtain ⟨count, written, -, fields, encoded, canonical, -⟩ := canonical_iff read
  obtain rfl := (hasFields_iff listed).1 fields
  have plain : ¬SpellsZeroAsList raw := by
    rw [spellsZeroAsList_iff listed]
    simp [items]
  obtain rfl := canonical.2 plain
  exact ⟨_, read, encoded⟩

/-- With the empty list as the nonce, bytes are read as the transaction that is empty throughout. It
is written without a list, and these bytes are read as the same transaction. -/
theorem listed_nonce_not_canonical :
    let raw : Bytes := [0xc6, 0xc0, 0x80, 0x80, 0x80, 0x80, 0x80]
    let other : Bytes := [0xc6, 0x80, 0x80, 0x80, 0x80, 0x80, 0x80]
    ∃ tx, decode raw = .ok tx ∧ decode other = .ok tx ∧ HasFields raw 6 ∧ HasFields other 6 ∧
      tx.encodeFields 6 = .ok other ∧ raw ≠ other := by
  intro raw other
  let listing : List Rlp.Item := [.list [], .bytes [], .bytes [], .bytes [], .bytes [], .bytes []]
  have read_listing : ofItems listing = .ok ⟨0, 0, 0, [], 0, [], 0, 0, 0⟩ := rfl
  obtain ⟨listed, read⟩ : Rlp.decode raw = .ok (.list listing) ∧ decode raw = .ok _ :=
    decode_of_written (by decide +kernel) (by decide) read_listing
  have respelled : (Rlp.Item.list (listing.map Rlp.Item.emptyAsBytes)).encode = other := by
    decide +kernel
  obtain ⟨-, written, -⟩ := encodeFields_of_ofItems read_listing
  obtain ⟨reread, fields, -⟩ := decode_emptyAsBytes listed read_listing (by decide)
  rw [respelled] at written reread fields
  exact ⟨_, read, reread, (hasFields_iff listed).2 rfl, fields, written, by decide⟩

end Transaction

end Ethereum

end Custody
