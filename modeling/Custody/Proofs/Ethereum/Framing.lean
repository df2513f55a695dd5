import Custody.Category
import Custody.Proofs.Ethereum.Draft
import Custody.Proofs.Rlp.Prefix

/-!
# A transaction's bytes are neither cut short nor followed by more

Of the bytes that are read as a transaction, no fewer and no more are one: `decode_prefix_free` says
that whatever is left of them when they are cut short, be it nothing, is refused as bytes that are
no transaction, and so is whatever they become with something behind them.

Both refusals are those of the items (`Rlp.exists_fault_of_prefix`, `Rlp.decode_append`), which are
read before any field is looked at. So a list in the place of a quantity, whose fault is in no
category, is never come to on the way.
-/

namespace Custody.Ethereum.Transaction

/-- Bytes that start like a list and are not read as an item are no transaction for that reason. -/
theorem decode_of_misread {first : UInt8} {rest : Bytes} {flaw : Rlp.Fault} (list : ¬first < 0xc0)
    (misread : Rlp.decode (first :: rest) = .error flaw) :
    decode (first :: rest) = .error (.notAnItem flaw) := by
  rw [decode, if_neg list, misread]

/-- The bytes of a transaction are refused when they are cut short, because none are left or because
what is left is not an item. -/
theorem decode_of_prefix {raw cut : Bytes} {tx : Transaction} (read : decode raw = .ok tx)
    (front : cut <+: raw) (proper : cut ≠ raw) :
    decode cut = .error .empty ∨ ∃ flaw, decode cut = .error (.notAnItem flaw) := by
  obtain ⟨items, listed, -⟩ := exists_items_of_decode read
  obtain ⟨first, rest, rfl, list⟩ := Rlp.first_of_decode_list listed
  obtain ⟨flaw, misread⟩ := Rlp.exists_fault_of_prefix listed front proper
  cases cut with
  | nil => exact .inl rfl
  | cons b left =>
    -- The first byte is the one that the whole starts with, so that a list is still expected.
    obtain ⟨rfl, -⟩ := List.cons_prefix_cons.1 front
    exact .inr ⟨flaw, decode_of_misread list misread⟩

/-- The bytes of a transaction are refused with anything behind them, for being too many. -/
theorem decode_append {raw : Bytes} {tx : Transaction} (read : decode raw = .ok tx) {more : Bytes}
    (some : more ≠ []) : decode (raw ++ more) = .error (.notAnItem (.superfluous more.length)) := by
  obtain ⟨items, listed, -⟩ := exists_items_of_decode read
  obtain ⟨first, rest, rfl, list⟩ := Rlp.first_of_decode_list listed
  exact decode_of_misread list (Rlp.decode_append listed some)

/-- The bytes of a transaction are a whole. Cut short by any number of bytes they are refused as
bytes that are no transaction: because there are none, or because what is left is not an item. With
anything behind them they are refused as well, for as many superfluous bytes as there are. -/
theorem decode_prefix_free {raw : Bytes} {tx : Transaction} (read : decode raw = .ok tx) :
    (∀ cut, cut <+: raw → cut ≠ raw →
      ∃ fault, decode cut = .error fault ∧ fault.category? = some .decode ∧
        (fault = .empty ∨ ∃ flaw, fault = .notAnItem flaw)) ∧
    ∀ more, more ≠ [] →
      ∃ fault, decode (raw ++ more) = .error fault ∧ fault.category? = some .decode ∧
        fault = .notAnItem (.superfluous more.length) := by
  refine ⟨fun cut front proper => ?_, fun more some => ?_⟩
  · rcases decode_of_prefix read front proper with refused | ⟨flaw, refused⟩
    · exact ⟨_, refused, rfl, .inl rfl⟩
    · exact ⟨_, refused, rfl, .inr ⟨flaw, rfl⟩⟩
  · exact ⟨_, decode_append read some, rfl, rfl⟩

/-- A transaction with 60 bytes of call data, so that the list's length and the call data's are both
written behind their first bytes: the first byte alone, all bytes but the last, and all bytes with
one more. -/
theorem decode_prefix_free_long :
    let d : Draft := ⟨9, 1024, 21000, List.replicate 20 0x35, 0, List.replicate 60 0xff⟩
    decode d.unsigned = .ok (d.transaction 0 0 0) ∧ d.unsigned.take 2 = [0xf8, 0x5b] ∧
      (∃ fault, decode (d.unsigned.take 1) = .error fault ∧ fault.category? = some .decode) ∧
      (∃ fault, decode d.unsigned.dropLast = .error fault ∧ fault.category? = some .decode) ∧
      decode (d.unsigned ++ [0x80]) = .error (.notAnItem (.superfluous 1)) := by
  intro d
  have read : decode d.unsigned = .ok (d.transaction 0 0 0) :=
    Draft.decode_unsigned rfl (by decide +kernel)
  obtain ⟨cut, extended⟩ := decode_prefix_free read
  obtain ⟨first, first_refused, first_category, -⟩ :=
    cut _ (List.take_prefix 1 d.unsigned) (by decide +kernel)
  obtain ⟨last, last_refused, last_category, -⟩ :=
    cut _ (List.dropLast_prefix d.unsigned) (by decide +kernel)
  obtain ⟨fault, refused, -, rfl⟩ := extended [0x80] (by decide)
  exact ⟨read, by decide +kernel, ⟨first, first_refused, first_category⟩,
    ⟨last, last_refused, last_category⟩, refused⟩

end Custody.Ethereum.Transaction
