import Custody.Proofs.Outcome
import Custody.Proofs.Spelling
import Custody.Rlp.Decode

/-!
# Written RLP items read back

`decode_encode` shows that reading the written form of an item gives the item back, and so that no
two items are written alike (`encode_injective`). The one condition is that the written form has
fewer than `2^64` bytes, or only its payload, the part behind the header (`readItem_encode`): a
header spells the payload's length in at most eight bytes.

The proof goes from the header (`Header.read_list`, `Header.read_bytes`) to one item with anything
behind it (`readItem_encode`) and, by the structure of items, to a whole list
(`readItems_encodeAll`). Reading a list is reading its first item and then the rest
(`readItems_eq`), so one lemma on items serves both.

Whether bytes are a list shows in their first byte already (`first_of_decode_list`).
-/

namespace Custody.Rlp

/-- The header of a payload of at least 56 bytes spells its length. -/
theorem header_of_long {base size : Nat} (long : 56 ≤ size) :
    header base size =
      UInt8.ofNat (base + 55 + (Bytes.ofNat size).length) :: Bytes.ofNat size := by
  rw [header, if_neg (by omega)]

/-- A length below `2^64` is spelled by one to eight bytes, if it is not zero. -/
theorem length_spelled {size : Nat} (positive : 0 < size) (fits : size < 2 ^ 64) :
    0 < (Bytes.ofNat size).length ∧ (Bytes.ofNat size).length ≤ 8 := by
  constructor
  · rw [List.length_pos_iff]
    intro nil
    rw [Bytes.ofNat_eq_nil_iff] at nil
    omega
  · exact Bytes.length_ofNat_le (by norm_num; exact fits)

/-- The length that a long header spells is read back, whatever follows. -/
theorem Header.readLong_ofNat {size : Nat} (long : 56 ≤ size) (isList : Bool) (rest : Bytes) :
    Header.readLong isList (Bytes.ofNat size).length (Bytes.ofNat size ++ rest) =
      .ok ⟨isList, 1 + (Bytes.ofNat size).length, size⟩ := by
  have nonempty : Bytes.ofNat size ≠ [] := fun nil => by
    rw [Bytes.ofNat_eq_nil_iff] at nil
    omega
  have unpadded : (Bytes.ofNat size ++ rest).head? ≠ some 0 := by
    obtain ⟨first, tail, eq⟩ := List.exists_cons_of_ne_nil nonempty
    have first_ne := Bytes.head?_ofNat size
    rw [eq] at first_ne ⊢
    exact first_ne
  rw [Header.readLong, if_neg unpadded, List.take_left, Bytes.toNat_ofNat]
  exact if_neg (by omega)

/-- The header of a list is read back, whatever follows. -/
theorem Header.read_list {size : Nat} (fits : size < 2 ^ 64) (rest : Bytes) :
    Header.read (header 0xc0 size ++ rest) = .ok ⟨true, (header 0xc0 size).length, size⟩ := by
  rcases Nat.lt_or_ge size 56 with short | long
  · have value : (UInt8.ofNat (0xc0 + size)).toNat = 0xc0 + size := by
      rw [UInt8.toNat_ofNat']
      omega
    rw [header, if_pos short]
    simp only [List.cons_append, List.nil_append, Header.read, value, List.length_singleton]
    rw [if_neg (by omega), if_neg (by omega), if_neg (by omega), if_neg (by omega),
      if_pos (by omega), Nat.add_sub_cancel_left]
  · obtain ⟨some, few⟩ := length_spelled (by omega) fits
    have value : (UInt8.ofNat (0xc0 + 55 + (Bytes.ofNat size).length)).toNat =
        0xf7 + (Bytes.ofNat size).length := by
      rw [UInt8.toNat_ofNat']
      omega
    rw [header_of_long long]
    simp only [List.cons_append, Header.read, value, List.length_cons]
    rw [if_neg (by omega), if_neg (by omega), if_neg (by omega), if_neg (by omega),
      if_neg (by omega), Nat.add_sub_cancel_left, Header.readLong_ofNat long, Nat.add_comm]

/-- The header of a string is read back, whatever follows, unless the string is one byte that
stands for itself. -/
theorem Header.read_bytes {content : Bytes} (fits : content.length < 2 ^ 64)
    (headed : ∀ b, content = [b] → ¬b < 0x80) (rest : Bytes) :
    Header.read (header 0x80 content.length ++ (content ++ rest)) =
      .ok ⟨false, (header 0x80 content.length).length, content.length⟩ := by
  rcases Nat.lt_or_ge content.length 56 with short | long
  · have value : (UInt8.ofNat (0x80 + content.length)).toNat = 0x80 + content.length := by
      rw [UInt8.toNat_ofNat']
      omega
    rw [header, if_pos short]
    simp only [List.cons_append, List.nil_append, Header.read, value, List.length_singleton]
    rw [if_neg (by omega)]
    by_cases single : content.length = 1
    · -- One byte of 0x80 or more: the reader looks at it.
      obtain ⟨b, rfl⟩ := List.length_eq_one_iff.1 single
      simp [headed b rfl]
    · rw [if_neg (by omega), if_pos (by omega), Nat.add_sub_cancel_left]
  · obtain ⟨some, few⟩ := length_spelled (by omega) fits
    have value : (UInt8.ofNat (0x80 + 55 + (Bytes.ofNat content.length).length)).toNat =
        0xb7 + (Bytes.ofNat content.length).length := by
      rw [UInt8.toNat_ofNat']
      omega
    rw [header_of_long long]
    simp only [List.cons_append, Header.read, value, List.length_cons]
    rw [if_neg (by omega), if_neg (by omega), if_neg (by omega), if_pos (by omega),
      Nat.add_sub_cancel_left, Header.readLong_ofNat long, Nat.add_comm]

/-- Reading items is reading one, holding it against the end of the list, and reading on. -/
theorem readItems_eq {size : Nat} (input : Bytes) (more : size ≠ 0) :
    readItems size input = (do
      let (item, h) ← readItem input
      if size < h.extent then .error .itemPassesList
      else (item :: ·) <$> readItems (size - h.extent) (input.drop h.extent)) := by
  rw [readItems, if_neg more, readItem]
  split
  · next fault read =>
    rw [read]
    rfl
  · next h read =>
    obtain ⟨isList, offset, length⟩ := h
    rw [read]
    cases isList with
    | false => simp
    | true =>
      cases inner : readItems length (input.drop offset) <;> simp [inner]

/-- A string that does not stand for itself is written after a header. -/
theorem encodeBytes_of_headed {content : Bytes} (headed : ∀ b, content = [b] → ¬b < 0x80) :
    encodeBytes content = header 0x80 content.length ++ content := by
  unfold encodeBytes
  split
  · next b => rw [if_neg (headed b rfl), List.length_singleton]
  · rfl

/-- A header has at least one byte. -/
theorem length_header_pos (base size : Nat) : 0 < (header base size).length := by
  unfold header
  split <;> simp

/-- A written item has at least one byte. -/
theorem length_encode_pos (item : Item) : 0 < item.encode.length := by
  cases item with
  | bytes content =>
    rw [Item.encode]
    by_cases headed : ∀ b, content = [b] → ¬b < 0x80
    · rw [encodeBytes_of_headed headed, List.length_append]
      have := length_header_pos 0x80 content.length
      omega
    · push Not at headed
      obtain ⟨b, rfl, small⟩ := headed
      rw [encodeBytes, if_pos small]
      exact Nat.one_pos
  | list items =>
    rw [Item.encode, List.length_append]
    have := length_header_pos 0xc0 (encodeAll items).length
    omega

/-- A written string is read back, whatever follows. -/
theorem readItem_encodeBytes {content : Bytes} (fits : content.length < 2 ^ 64) (rest : Bytes) :
    ∃ h, readItem (encodeBytes content ++ rest) = .ok (.bytes content, h) ∧
      h.extent = (encodeBytes content).length := by
  by_cases headed : ∀ b, content = [b] → ¬b < 0x80
  · rw [encodeBytes_of_headed headed]
    have read := Header.read_bytes fits headed rest
    refine ⟨⟨false, (header 0x80 content.length).length, content.length⟩, ?_, ?_⟩
    · rw [List.append_assoc, readItem, read]
      simp
    · rw [Header.extent, List.length_append]
  · -- The string is one byte below 0x80.
    push Not at headed
    obtain ⟨b, rfl, small⟩ := headed
    have value : b.toNat < 0x80 := UInt8.lt_iff_toNat_lt.1 small
    have alone : encodeBytes [b] = [b] := if_pos small
    refine ⟨⟨false, 0, 1⟩, ?_, ?_⟩
    · rw [alone, readItem]
      simp [Header.read, value]
    · rw [alone]
      rfl

/-- A written list is read back, whatever follows, if its items are. -/
theorem readItem_encodeList {items : List Item} (fits : (encodeAll items).length < 2 ^ 64)
    {rest : Bytes}
    (payload : readItems (encodeAll items).length (encodeAll items ++ rest) = .ok items) :
    ∃ h, readItem ((Item.list items).encode ++ rest) = .ok (.list items, h) ∧
      h.extent = (Item.list items).encode.length := by
  have read := Header.read_list fits (encodeAll items ++ rest)
  refine ⟨⟨true, (header 0xc0 (encodeAll items).length).length, (encodeAll items).length⟩, ?_, ?_⟩
  · rw [Item.encode, List.append_assoc, readItem, read]
    simp [payload]
  · rw [Item.encode, Header.extent, List.length_append]

/-- The bytes of an item without its header. -/
def Item.payload : Item → Bytes
  | .bytes content => content
  | .list items => encodeAll items

/-- A payload is no longer than the written form that it is a part of. -/
theorem Item.length_payload_le (item : Item) : item.payload.length ≤ item.encode.length := by
  cases item with
  | bytes content =>
    rw [payload, encode]
    by_cases headed : ∀ b, content = [b] → ¬b < 0x80
    · rw [encodeBytes_of_headed headed, List.length_append]
      exact Nat.le_add_left _ _
    · push Not at headed
      obtain ⟨b, rfl, small⟩ := headed
      rw [encodeBytes, if_pos small]
  | list items =>
    rw [payload, encode, List.length_append]
    exact Nat.le_add_left _ _

mutual

/-- A written item is read back, whatever follows, and announces the length that it has. -/
theorem readItem_encode : ∀ (item : Item), item.payload.length < 2 ^ 64 → ∀ rest : Bytes,
    ∃ h, readItem (item.encode ++ rest) = .ok (item, h) ∧ h.extent = item.encode.length
  | .bytes _, fits, rest => readItem_encodeBytes fits rest
  | .list items, fits, rest => readItem_encodeList fits (readItems_encodeAll items fits rest)

/-- The written items of a list are read back, whatever follows. -/
theorem readItems_encodeAll : ∀ (items : List Item), (encodeAll items).length < 2 ^ 64 →
    ∀ rest : Bytes, readItems (encodeAll items).length (encodeAll items ++ rest) = .ok items
  | [], _, rest => by rw [encodeAll, readItems, List.length_nil, if_pos rfl]
  | item :: items, fits, rest => by
    rw [encodeAll, List.length_append] at fits
    have payload := item.length_payload_le
    obtain ⟨h, read, extent⟩ := readItem_encode item (by omega) (encodeAll items ++ rest)
    have others := readItems_encodeAll items (by omega) rest
    have positive := length_encode_pos item
    rw [encodeAll, List.append_assoc, List.length_append, readItems_eq _ (by omega), read]
    simp [extent, others]

end

/-- The written form of an item reads back as the item. -/
theorem decode_encode {item : Item} (fits : item.encode.length < 2 ^ 64) :
    decode item.encode = .ok item := by
  obtain ⟨h, read, extent⟩ :=
    readItem_encode item (Nat.lt_of_le_of_lt item.length_payload_le fits) []
  rw [List.append_nil] at read
  rw [decode, read]
  exact if_pos extent

/-- No two items are written alike. -/
theorem encode_injective {a b : Item} (fits : a.encode.length < 2 ^ 64)
    (same : a.encode = b.encode) : a = b := by
  have readA := decode_encode fits
  have readB := decode_encode (same ▸ fits)
  rw [same, readB] at readA
  exact (Except.ok.inj readA).symm

/-- A long header announces what it was read for. -/
theorem Header.isList_of_readLong {isList : Bool} {width : Nat} {rest : Bytes} {h : Header}
    (read : Header.readLong isList width rest = .ok h) : h.isList = isList := by
  unfold Header.readLong at read
  split at read
  · simp at read
  · simp only at read
    split at read
    · simp at read
    · obtain rfl := Except.ok.inj read
      rfl

/-- No header below 0xc0 announces a list. -/
theorem Header.first_of_isList {first : UInt8} {rest : Bytes} {h : Header}
    (read : Header.read (first :: rest) = .ok h) (list : h.isList = true) : ¬first < 0xc0 := by
  intro below
  have value : first.toNat < 0xc0 := UInt8.lt_iff_toNat_lt.1 below
  unfold Header.read at read
  simp only at read
  split at read
  · obtain rfl := Except.ok.inj read
    simp at list
  · split at read
    · split at read
      · simp at read
      · split at read
        · simp at read
        · obtain rfl := Except.ok.inj read
          simp at list
    · split at read
      · obtain rfl := Except.ok.inj read
        simp at list
      · rw [Header.isList_of_readLong read] at list
        simp at list

/-- Bytes that are read as a list start with a byte of 0xc0 or more. -/
theorem first_of_decode_list {raw : Bytes} {items : List Item}
    (read : decode raw = .ok (.list items)) :
    ∃ first rest, raw = first :: rest ∧ ¬first < 0xc0 := by
  rw [decode, Outcome.bind_eq_ok] at read
  obtain ⟨⟨item, h⟩, front, whole⟩ := read
  have spelled : item = .list items := by
    simp only at whole
    split at whole
    · exact Except.ok.inj whole
    · simp at whole
  rw [readItem, Outcome.bind_eq_ok] at front
  obtain ⟨h', announced, content⟩ := front
  cases raw with
  | nil => simp [Header.read] at announced
  | cons first rest =>
    refine ⟨first, rest, rfl, Header.first_of_isList announced ?_⟩
    -- Without a list's header, the item would be bytes.
    by_contra plain
    simp only [if_neg plain, Outcome.ok_bind] at content
    obtain ⟨rfl, rfl⟩ := Prod.mk.inj (Except.ok.inj content)
    simp at spelled

/-- Different numbers are different items. -/
theorem Item.ofNat_injective {m n : Nat} (same : Item.ofNat m = Item.ofNat n) : m = n := by
  have spelled : Bytes.ofNat m = Bytes.ofNat n := Item.bytes.inj same
  rw [← Bytes.toNat_ofNat m, spelled, Bytes.toNat_ofNat]

end Custody.Rlp
