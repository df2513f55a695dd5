import Custody.Proofs.Rlp.Canonical

/-!
# No written item begins another

Bytes that are read as an item are the item's written form, and a written form is read back with
anything behind it. So bytes that are read as an item are refused as soon as anything follows them,
for exactly the bytes that follow (`decode_append`). Bytes that are cut short are refused as well
(`exists_fault_of_prefix`), although a slice that ends too early is no fault of its own: if what is
left were read as an item, the whole would be that item with something behind it.

None of this needs a limit on the input. What a header can announce is below `2^64`
(`Header.size_lt_of_read`), and so is every payload that was read.
-/

namespace Custody.Rlp

/-- At most eight bytes spell a length below `2^64`. -/
theorem Header.size_lt_of_readLong {isList : Bool} {width : Nat} {rest : Bytes} {h : Header}
    (few : width ≤ 8) (read : readLong isList width rest = .ok h) : h.size < 2 ^ 64 := by
  unfold readLong at read
  split at read
  · simp at read
  · simp only at read
    split at read
    · simp at read
    · obtain rfl := Except.ok.inj read
      have taken : (rest.take width).length ≤ 8 := (List.length_take_le width rest).trans few
      calc Bytes.toNat (rest.take width) < 256 ^ (rest.take width).length := Bytes.toNat_lt _
        _ ≤ 256 ^ 8 := Nat.pow_le_pow_right (by norm_num) taken
        _ = 2 ^ 64 := by norm_num

/-- A header announces fewer than `2^64` bytes. -/
theorem Header.size_lt_of_read {input : Bytes} {h : Header} (read : Header.read input = .ok h) :
    h.size < 2 ^ 64 := by
  cases input with
  | nil => simp [Header.read] at read
  | cons first rest =>
    have byte := first.toNat_lt
    -- Only the two ranges of long headers do not give the size in the first byte itself.
    unfold Header.read at read
    simp only at read
    split at read
    · obtain rfl := Except.ok.inj read
      norm_num
    · split at read
      · split at read
        · simp at read
        · split at read
          · simp at read
          · obtain rfl := Except.ok.inj read
            norm_num
      · split at read
        · obtain rfl := Except.ok.inj read
          simp only
          omega
        · split at read
          · exact size_lt_of_readLong (by omega) read
          · split at read
            · obtain rfl := Except.ok.inj read
              simp only
              omega
            · exact size_lt_of_readLong (by omega) read

/-- The payload of an item that was read is no longer than its header announced. -/
theorem length_payload_le_of_readItem {input : Bytes} {item : Item} {h : Header}
    (read : readItem input = .ok (item, h)) (whole : h.extent ≤ input.length) :
    item.payload.length ≤ h.size := by
  obtain ⟨-, ⟨-, rfl⟩ | ⟨-, items, rfl, items_read⟩⟩ := readItem_cases read
  · exact List.length_take_le _ _
  · have inside : h.size ≤ (input.drop h.offset).length := by
      rw [Header.extent] at whole
      rw [List.length_drop]
      omega
    rw [Item.payload, encodeAll_of_readItems items_read inside]
    exact List.length_take_le _ _

/-- The payload of an item that was read has fewer than `2^64` bytes. -/
theorem length_payload_lt_of_decode {raw : Bytes} {item : Item} (read : decode raw = .ok item) :
    item.payload.length < 2 ^ 64 := by
  rw [decode, Outcome.bind_eq_ok] at read
  obtain ⟨⟨item', h⟩, front, end_read⟩ := read
  simp only at end_read
  split at end_read
  · next whole =>
    obtain rfl := Except.ok.inj end_read
    calc item'.payload.length ≤ h.size := length_payload_le_of_readItem front whole.le
      _ < 2 ^ 64 := Header.size_lt_of_read (readItem_cases front).1
  · simp at end_read

/-- Bytes that are read as an item are refused with anything behind them, for as many bytes as there
are behind them. -/
theorem decode_append {raw : Bytes} {item : Item} (read : decode raw = .ok item) {rest : Bytes}
    (more : rest ≠ []) : decode (raw ++ rest) = .error (.superfluous rest.length) := by
  obtain ⟨h, front, extent⟩ := readItem_encode item (length_payload_lt_of_decode read) rest
  rw [encode_of_decode read] at front extent
  have longer : h.extent ≠ (raw ++ rest).length := by
    have positive := List.length_pos_iff.2 more
    rw [extent, List.length_append]
    omega
  have behind : Int.ofNat (raw ++ rest).length - Int.ofNat h.extent = rest.length := by
    rw [extent, List.length_append]
    simp
  rw [decode, front, Outcome.ok_bind]
  simp only [if_neg longer, behind]

/-- Bytes that are read as an item are refused when they are cut short. -/
theorem exists_fault_of_prefix {raw cut : Bytes} {item : Item} (read : decode raw = .ok item)
    (front : cut <+: raw) (proper : cut ≠ raw) : ∃ fault, decode cut = .error fault := by
  obtain ⟨rest, rfl⟩ := front
  have more : rest ≠ [] := by
    rintro rfl
    exact proper (List.append_nil cut).symm
  cases outcome : decode cut with
  | error fault => exact ⟨fault, rfl⟩
  | ok other =>
    -- What is left would be an item already, and the whole that item with something behind it.
    rw [decode_append outcome more] at read
    simp at read

end Custody.Rlp
