import Custody.Proofs.Rlp.RoundTrip

/-!
# Every item has one written form

`encode_of_decode` shows that bytes that are read as an item are the written form of that item: the
reader accepts no longer header, no padded length, no header where a byte can stand for itself and
nothing behind the item. Together with `decode_encode` it makes reading and writing inverse to each
other.

Reading does not fail where the input is cut short; it reads what is left. All facts here are
therefore about items that end within the input (`whole`), which the reader makes sure of only at
the very end. `Header.read_cases` says what a header that was read looks like, and
`encodeAll_of_readItems` carries this through nested lists, by induction on the length of the input.
-/

namespace Custody.Rlp

/-- A long header that was read is the one that is written for its payload. -/
theorem Header.header_of_readLong {isList : Bool} {width : Nat} {rest : Bytes} {h : Header}
    (read : readLong isList width rest = .ok h) (whole : h.offset ≤ rest.length + 1) (base : Nat) :
    h.isList = isList ∧ h.offset = 1 + width ∧ 56 ≤ h.size ∧
      header base h.size = UInt8.ofNat (base + 55 + width) :: rest.take width := by
  unfold readLong at read
  split at read
  · simp at read
  · next unpadded =>
    simp only at read
    split at read
    · simp at read
    · next long =>
      obtain rfl := Except.ok.inj read
      have taken : (rest.take width).length = width := by
        simp only at whole
        rw [List.length_take]
        omega
      have spelled : Bytes.ofNat (Bytes.toNat (rest.take width)) = rest.take width := by
        apply Bytes.ofNat_toNat
        rw [List.head?_take]
        split
        · simp
        · exact unpadded
      have enough : 56 ≤ Bytes.toNat (rest.take width) := Nat.not_lt.1 long
      refine ⟨rfl, rfl, enough, ?_⟩
      show header base (Bytes.toNat (rest.take width)) = _
      rw [header_of_long enough, spelled, taken]

/-- A first byte that announces a short payload is the header that is written for it. -/
theorem header_of_first {base : Nat} {first : UInt8} (least : base ≤ first.toNat)
    (short : first.toNat - base < 56) : header base (first.toNat - base) = [first] := by
  have announced : base + (first.toNat - base) = first.toNat := by omega
  rw [header, if_pos short, announced, UInt8.ofNat_toNat]

/-- A payload that is not announced as one byte is not one byte. -/
theorem take_ne_singleton {input : Bytes} {h : Header} (whole : h.extent ≤ input.length)
    (other : h.size ≠ 1) (b : UInt8) : (input.drop h.offset).take h.size ≠ [b] := by
  intro same
  have size := congrArg List.length same
  rw [Header.extent] at whole
  rw [List.length_take, List.length_drop, List.length_singleton] at size
  omega

/-- What a header that was read looks like. Either a byte stands for itself, or the header is the
one that is written for its payload, and the payload is not a byte that can stand for itself. -/
theorem Header.read_cases {first : UInt8} {rest : Bytes} {h : Header}
    (read : Header.read (first :: rest) = .ok h) (whole : h.extent ≤ rest.length + 1) :
    (first < 0x80 ∧ h = ⟨false, 0, 1⟩) ∨
    (0 < h.offset ∧
      header (if h.isList then 0xc0 else 0x80) h.size = (first :: rest).take h.offset ∧
      (h.isList = false →
        ∀ b, ((first :: rest).drop h.offset).take h.size = [b] → ¬b < 0x80)) := by
  have byte := first.toNat_lt
  have within : h.offset ≤ rest.length + 1 := Nat.le_trans (Nat.le_add_right _ _) whole
  have headed : h.size ≠ 1 →
      ∀ b, ((first :: rest).drop h.offset).take h.size = [b] → ¬b < 0x80 := by
    intro other b same
    have ends : h.extent ≤ (first :: rest).length := whole
    exact absurd same (take_ne_singleton ends other b)
  -- The cases are the ranges of the first byte, in the order in which the reader tells them apart.
  unfold Header.read at read
  simp only at read
  split at read
  · next small =>
    obtain rfl := Except.ok.inj read
    exact .inl ⟨UInt8.lt_iff_toNat_lt.2 small, rfl⟩
  · right
    split at read
    · next single =>
      split at read
      · simp at read
      · next b tail =>
        split at read
        · simp at read
        · next large =>
          obtain rfl := Except.ok.inj read
          have written : header 0x80 (first.toNat - 0x80) = [first] :=
            header_of_first (by omega) (by omega)
          rw [single] at written
          refine ⟨Nat.one_pos, written, ?_⟩
          rintro - c same
          obtain rfl : b = c := by simpa using same
          exact large
    · split at read
      · next other short =>
        obtain rfl := Except.ok.inj read
        have written : header 0x80 (first.toNat - 0x80) = [first] :=
          header_of_first (by omega) (by omega)
        exact ⟨Nat.one_pos, written, fun _ => headed (show first.toNat - 0x80 ≠ 1 by omega)⟩
      · split at read
        · next long =>
          obtain ⟨string, offset, size, written⟩ := header_of_readLong read within 0x80
          have announced : 0x80 + 55 + (first.toNat - 0xb7) = first.toNat := by omega
          rw [announced, UInt8.ofNat_toNat] at written
          refine ⟨by omega, ?_, fun _ => headed (by omega)⟩
          rw [string, if_neg (by simp), written, offset, Nat.add_comm, List.take_succ_cons]
        · split at read
          · next short =>
            obtain rfl := Except.ok.inj read
            have written : header 0xc0 (first.toNat - 0xc0) = [first] :=
              header_of_first (by omega) (by omega)
            exact ⟨Nat.one_pos, written, by simp⟩
          · obtain ⟨list, offset, size, written⟩ := header_of_readLong read within 0xc0
            have announced : 0xc0 + 55 + (first.toNat - 0xf7) = first.toNat := by omega
            rw [announced, UInt8.ofNat_toNat] at written
            refine ⟨by omega, ?_, by simp [list]⟩
            rw [list, if_pos rfl, written, offset, Nat.add_comm, List.take_succ_cons]

/-- The bytes of an item are its header's and its payload's. -/
theorem take_extent (input : Bytes) (h : Header) :
    input.take h.extent = input.take h.offset ++ (input.drop h.offset).take h.size := by
  rw [Header.extent, List.take_add]

/-- A string that was read is written as the bytes that it was read from. -/
theorem encodeBytes_of_read {input : Bytes} {h : Header} (read : Header.read input = .ok h)
    (string : h.isList = false) (whole : h.extent ≤ input.length) :
    encodeBytes ((input.drop h.offset).take h.size) = input.take h.extent := by
  cases input with
  | nil => simp [Header.read] at read
  | cons first rest =>
    rcases Header.read_cases read whole with ⟨small, rfl⟩ | ⟨-, written, headed⟩
    · exact if_pos small
    · have size : (((first :: rest).drop h.offset).take h.size).length = h.size := by
        rw [Header.extent] at whole
        rw [List.length_take, List.length_drop]
        omega
      rw [string, if_neg (by simp)] at written
      rw [encodeBytes_of_headed (headed string), size, written, take_extent]

/-- A list that was read is written as the bytes that it was read from, if that is so of the items
in it. -/
theorem encode_list_of_read {input : Bytes} {h : Header} {items : List Item}
    (read : Header.read input = .ok h) (list : h.isList = true) (whole : h.extent ≤ input.length)
    (inside : encodeAll items = (input.drop h.offset).take h.size) :
    (Item.list items).encode = input.take h.extent := by
  cases input with
  | nil => simp [Header.read] at read
  | cons first rest =>
    rcases Header.read_cases read whole with ⟨-, rfl⟩ | ⟨-, written, -⟩
    · simp at list
    · have size : (encodeAll items).length = h.size := by
        rw [Header.extent] at whole
        rw [inside, List.length_take, List.length_drop]
        omega
      rw [list, if_pos rfl] at written
      rw [Item.encode, size, written, inside, take_extent]

/-- What an item that was read looks like: bytes or a list, as its header says. -/
theorem readItem_cases {input : Bytes} {item : Item} {h : Header}
    (read : readItem input = .ok (item, h)) :
    Header.read input = .ok h ∧
      ((h.isList = false ∧ item = .bytes ((input.drop h.offset).take h.size)) ∨
        (h.isList = true ∧ ∃ items, item = .list items ∧
          readItems h.size (input.drop h.offset) = .ok items)) := by
  rw [readItem, Outcome.bind_eq_ok] at read
  obtain ⟨h', announced, content⟩ := read
  simp only at content
  split at content
  · next list =>
    rw [Outcome.bind_eq_ok] at content
    obtain ⟨item', inside, eq⟩ := content
    obtain ⟨rfl, rfl⟩ := Prod.mk.inj (Except.ok.inj eq)
    obtain ⟨items, items_read, rfl⟩ := Outcome.map_eq_ok.1 inside
    exact ⟨announced, .inr ⟨list, items, rfl, items_read⟩⟩
  · next string =>
    obtain ⟨rfl, rfl⟩ := Prod.mk.inj (Except.ok.inj content)
    exact ⟨announced, .inl ⟨Bool.eq_false_iff.2 string, rfl⟩⟩

/-- An item that was read is written as the bytes that it was read from, if that is so of the items
of shorter inputs. -/
theorem encode_of_readItem {input : Bytes} {item : Item} {h : Header}
    (inner : ∀ (shorter : Bytes) (size : Nat) (items : List Item),
      shorter.length < input.length → readItems size shorter = .ok items →
      size ≤ shorter.length → encodeAll items = shorter.take size)
    (read : readItem input = .ok (item, h)) (whole : h.extent ≤ input.length) :
    item.encode = input.take h.extent := by
  obtain ⟨announced, ⟨string, rfl⟩ | ⟨list, items, rfl, items_read⟩⟩ := readItem_cases read
  · exact encodeBytes_of_read announced string whole
  · obtain ⟨nonempty, -, offset⟩ := Header.of_read announced
    have positive := offset list
    have ends : h.offset + h.size ≤ input.length := whole
    apply encode_list_of_read announced list whole
    apply inner _ _ _ _ items_read
    · rw [List.length_drop]
      omega
    · rw [List.length_drop]
      omega

/-- The items of a list are written as the bytes that they were read from. -/
theorem encodeAll_of_readItems {input : Bytes} {size : Nat} {items : List Item}
    (read : readItems size input = .ok items) (whole : size ≤ input.length) :
    encodeAll items = input.take size := by
  induction length : input.length using Nat.strongRecOn generalizing input size items with
  | ind n ih =>
    subst length
    by_cases none : size = 0
    · subst none
      rw [readItems, if_pos rfl] at read
      obtain rfl := Except.ok.inj read
      rfl
    · rw [readItems_eq input none, Outcome.bind_eq_ok] at read
      obtain ⟨⟨item, h⟩, first, rest⟩ := read
      simp only at rest
      split at rest
      · simp at rest
      · next within =>
        obtain ⟨others, others_read, rfl⟩ := Outcome.map_eq_ok.1 rest
        -- The first item takes at least a byte, so the others stand in a shorter input.
        have positive := (Header.of_read (readItem_cases first).1).2.1
        have firstWritten : item.encode = input.take h.extent :=
          encode_of_readItem (fun shorter size items less read whole =>
            ih _ less read whole rfl) first (by omega)
        have othersWritten : encodeAll others = (input.drop h.extent).take (size - h.extent) :=
          ih _ (by rw [List.length_drop]; omega) others_read (by rw [List.length_drop]; omega) rfl
        rw [encodeAll, firstWritten, othersWritten, ← List.take_add]
        congr 1
        omega

/-- Bytes that are read as an item are its written form. -/
theorem encode_of_decode {raw : Bytes} {item : Item} (read : decode raw = .ok item) :
    item.encode = raw := by
  rw [decode, Outcome.bind_eq_ok] at read
  obtain ⟨⟨item', h⟩, front, end_read⟩ := read
  simp only at end_read
  split at end_read
  · next whole =>
    obtain rfl := Except.ok.inj end_read
    have written := encode_of_readItem
      (fun shorter size items _ read whole => encodeAll_of_readItems read whole) front whole.le
    rw [written, whole, List.take_length]
  · simp at end_read

end Custody.Rlp
