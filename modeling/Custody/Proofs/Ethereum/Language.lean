import Custody.Proofs.Ethereum.Draft
import Custody.Proofs.Rlp.Canonical

/-!
# Which bytes are which transaction

Bytes are read as a transaction exactly if they are the written form of its fields, as the grammar
`WrittenAs` has them. The reader takes slices of its input that may be cut short, and counts
positions past the input's end, so what has to be shown is that none of this leads to a transaction:
`Rlp.decode_eq_ok_iff` says so for items of any kind, and `ofItems_eq_ok_iff` does the rest.

Writing is one way to produce such bytes, so every transaction that can be written is read back:
`decode_iff_written`.
-/

namespace Custody

/-- Bytes are read as an item exactly if they are its written form. -/
theorem Rlp.decode_eq_ok_iff {raw : Bytes} {item : Item} (fits : raw.length < 2 ^ 64) :
    decode raw = .ok item ↔ item.encode = raw := by
  constructor
  · exact encode_of_decode
  · rintro rfl
    exact decode_encode fits

namespace Ethereum.Transaction

/-- Bytes are read as a transaction exactly if they are the written form of its fields. -/
theorem decode_eq_ok_iff {raw : Bytes} {tx : Transaction} (fits : raw.length < 2 ^ 64) :
    decode raw = .ok tx ↔ ∃ items, tx.WrittenAs items ∧ (Rlp.Item.list items).encode = raw := by
  constructor
  · intro read
    obtain ⟨items, listed, read_items⟩ := exists_items_of_decode read
    exact ⟨items, ofItems_eq_ok_iff.1 read_items, (Rlp.decode_eq_ok_iff fits).1 listed⟩
  · rintro ⟨items, fields, written⟩
    have listed : Rlp.decode raw = .ok (.list items) := (Rlp.decode_eq_ok_iff fits).2 written
    rw [decode_of_listed listed]
    exact ofItems_eq_ok_iff.2 fields

/-- Bytes are read as a transaction exactly if they are the written form of its fields: of the six
that are signed, if it has no signature, or of all nine, where a zero may stand as the empty list.
In particular every transaction without negative quantities and with a recipient of 0 or 20 bytes
is written, in both forms, and is read back from what is written; the unsigned form loses its
signature. -/
theorem decode_iff_written :
    (∀ (raw : Bytes) (tx : Transaction), raw.length < 2 ^ 64 →
      (decode raw = .ok tx ↔
        ∃ items, tx.WrittenAs items ∧ (Rlp.Item.list items).encode = raw)) ∧
    ∀ tx : Transaction, tx.NonNegative → isRecipient tx.recipient = true →
      (∃ raw, tx.encodeSigned = .ok raw ∧ (raw.length < 2 ^ 64 → decode raw = .ok tx)) ∧
      ∃ raw, tx.encodeUnsigned = .ok raw ∧
        (raw.length < 2 ^ 64 → decode raw = .ok { tx with v := 0, r := 0, s := 0 }) := by
  refine ⟨fun raw tx fits => decode_eq_ok_iff fits, fun tx natural recipient => ?_⟩
  obtain ⟨d, v, r, s, rfl⟩ := exists_draft natural
  rw [Draft.transaction_recipient] at recipient
  constructor
  · have written := d.encodeSigned_transaction v r s
    rw [if_pos recipient] at written
    exact ⟨_, written, Draft.decode_signed recipient⟩
  · have written := d.encodeUnsigned_transaction v r s
    rw [if_pos recipient] at written
    exact ⟨_, written, Draft.decode_unsigned recipient⟩

/-- A signed transaction whose gas is zero and stands as the empty list: it is read, and it is read
from the bytes that are written for it as well, which are others. -/
theorem decode_iff_written_listed_gas :
    let tx : Transaction := ⟨9, 1024, 0, List.replicate 20 0x35, 10 ^ 18, [0xff], 37, 1, 2⟩
    let raw := (Rlp.Item.list [.ofNat 9, .ofNat 1024, .list [], .bytes (List.replicate 20 0x35),
      .ofNat (10 ^ 18), .bytes [0xff], .ofNat 37, .ofNat 1, .ofNat 2]).encode
    decode raw = .ok tx ∧ ∃ other, tx.encodeSigned = .ok other ∧ decode other = .ok tx ∧
      other ≠ raw := by
  intro tx raw
  have fields : tx.WrittenAs [.ofNat 9, .ofNat 1024, .list [], .bytes (List.replicate 20 0x35),
      .ofNat (10 ^ 18), .bytes [0xff], .ofNat 37, .ofNat 1, .ofNat 2] :=
    .signed (.cons (.shortest 9) (.cons (.shortest 1024) (.cons .emptyList (.cons ⟨rfl, rfl⟩
      (.cons (.shortest (10 ^ 18)) (.cons rfl (.cons (.shortest 37) (.cons (.shortest 1)
        (.cons (.shortest 2) .nil)))))))))
  have read : decode raw = .ok tx :=
    (decode_iff_written.1 raw tx (by decide +kernel)).2 ⟨_, fields, rfl⟩
  have natural : tx.NonNegative := by constructor <;> decide
  obtain ⟨⟨other, written, reread⟩, -⟩ := decode_iff_written.2 tx natural rfl
  let d : Draft := ⟨9, 1024, 0, List.replicate 20 0x35, 10 ^ 18, [0xff]⟩
  obtain rfl : d.signed 37 1 2 = other :=
    Except.ok.inj ((d.encodeSigned_transaction 37 1 2).symm.trans written)
  exact ⟨read, _, written, reread (by decide +kernel), by decide +kernel⟩

end Ethereum.Transaction

end Custody
