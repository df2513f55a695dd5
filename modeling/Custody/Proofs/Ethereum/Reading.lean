import Custody.Ethereum.Transaction
import Custody.Proofs.Outcome
import Custody.Proofs.Rlp.RoundTrip

/-!
# Where the reading of a transaction breaks off

The fields of a transaction are read one after the other, and the first item that does not suit its
field decides the fault. `readFields` is this order and nothing else: `ofItems_discard` shows that
it fails as the reading of a transaction does.

A list that is not empty in the place of a quantity is the one item whose fault has no wording.
`BreaksOff` says where such a list is reached, and `decode_eq_listAsQuantity_iff` that exactly the
bytes that spell it make the reading break off.
-/

namespace Custody.Ethereum

/-- A field holds a number. -/
def Field.IsQuantity (field : Field) : Prop :=
  field ≠ .recipient ∧ field ≠ .data

namespace Transaction

/-- The fields of the unsigned form, in their order. -/
def unsignedFields : List Field :=
  [.nonce, .gasPrice, .gas, .recipient, .value, .data]

/-- The fields of the signed form, in their order. -/
def signedFields : List Field :=
  unsignedFields ++ [.v, .r, .s]

/-- The two forms that a transaction is written in. -/
def forms : List (List Field) :=
  [unsignedFields, signedFields]

/-- An item is one that a field can be read from: a recipient has a recipient's length, call data is
any bytes, and a number is spelled without a zero byte in front or stands as the empty list. -/
def Suits : Field → Rlp.Item → Prop
  | .recipient, .bytes address => isRecipient address = true
  | .recipient, .list _ => False
  | .data, .bytes _ => True
  | .data, .list _ => False
  | _, .bytes digits => digits.head? ≠ some 0
  | _, .list items => items = []

/-- The items for a form's fields suit them up to a quantity, in whose place there is a list that
is not empty. -/
inductive BreaksOff (field : Field) : List Field → List Rlp.Item → Prop
  /-- The list is reached. -/
  | here {fields : List Field} {items rest : List Rlp.Item} : field.IsQuantity → items ≠ [] →
      BreaksOff field (field :: fields) (.list items :: rest)
  /-- The first item suits its field. -/
  | later {first : Field} {item : Rlp.Item} {fields : List Field} {items : List Rlp.Item} :
      Suits first item → BreaksOff field fields items →
      BreaksOff field (first :: fields) (item :: items)

/-! ## One field -/

/-- The reading of one field, for its fault alone. -/
def readField : Field → Rlp.Item → Except Fault Unit
  | .recipient, item => (readRecipient item).map fun _ => ()
  | .data, item => (readData item).map fun _ => ()
  | field, item => (readQuantity field item).map fun _ => ()

/-- A field holds an address, call data or a number. -/
theorem eq_or_eq_or_isQuantity (field : Field) :
    field = .recipient ∨ field = .data ∨ field.IsQuantity := by
  by_cases recipient : field = .recipient
  · exact .inl recipient
  · by_cases data : field = .data
    · exact .inr (.inl data)
    · exact .inr (.inr ⟨recipient, data⟩)

/-- A field that holds a number is read as one. -/
theorem readField_of_isQuantity {field : Field} (quantity : field.IsQuantity) (item : Rlp.Item) :
    readField field item = (readQuantity field item).map fun _ => () := by
  obtain ⟨not_recipient, not_data⟩ := quantity
  cases field <;> first | rfl | contradiction

/-- Bytes suit a number unless a zero byte is in front. -/
theorem suits_bytes_iff {field : Field} (quantity : field.IsQuantity) (digits : Bytes) :
    Suits field (.bytes digits) ↔ digits.head? ≠ some 0 := by
  obtain ⟨not_recipient, not_data⟩ := quantity
  cases field <;> first | exact Iff.rfl | contradiction

/-- The empty list alone suits a number. -/
theorem suits_list_iff {field : Field} (quantity : field.IsQuantity) (items : List Rlp.Item) :
    Suits field (.list items) ↔ items = [] := by
  obtain ⟨not_recipient, not_data⟩ := quantity
  cases field <;> first | exact Iff.rfl | contradiction

/-- The outcomes of reading a field: the item suits it; or it does not, for a reason that the fault
gives; or the field holds a number, and the item is a list that is not empty. -/
theorem readField_cases (field : Field) (item : Rlp.Item) :
    (Suits field item ∧ readField field item = .ok ()) ∨
    (¬Suits field item ∧ ∃ flaw, readField field item = .error (.badField field flaw)) ∨
    (field.IsQuantity ∧ ∃ items, items ≠ [] ∧ item = .list items ∧
      readField field item = .error (.listAsQuantity field)) := by
  rcases eq_or_eq_or_isQuantity field with rfl | rfl | quantity
  · rcases item with address | items
    · by_cases fits : isRecipient address = true
      · exact .inl ⟨fits, by simp [readField, readRecipient, fits]⟩
      · exact .inr (.inl ⟨fits, .invalidLength, by simp [readField, readRecipient, fits]⟩)
    · exact .inr (.inl ⟨id, .list, rfl⟩)
  · rcases item with content | items
    · exact .inl ⟨trivial, rfl⟩
    · exact .inr (.inl ⟨id, .list, rfl⟩)
  · rw [readField_of_isQuantity quantity]
    rcases item with (_ | ⟨b, rest⟩) | (_ | ⟨child, rest⟩)
    · exact .inl ⟨(suits_bytes_iff quantity []).2 (by simp), rfl⟩
    · rw [suits_bytes_iff quantity, List.head?_cons]
      by_cases zero : b = 0
      · exact .inr (.inl ⟨by simp [zero], .notMinimal, by simp [readQuantity, zero]⟩)
      · exact .inl ⟨by simpa using zero, by simp [readQuantity, zero]⟩
    · exact .inl ⟨(suits_list_iff quantity []).2 rfl, rfl⟩
    · exact .inr (.inr ⟨quantity, child :: rest, List.cons_ne_nil child rest, rfl, rfl⟩)

/-- A field is read exactly from the items that suit it. -/
theorem readField_eq_ok_iff {field : Field} {item : Rlp.Item} :
    readField field item = .ok () ↔ Suits field item := by
  rcases readField_cases field item with
    ⟨suits, read⟩ | ⟨unsuited, flaw, read⟩ | ⟨quantity, items, nonempty, rfl, read⟩
  · exact iff_of_true read suits
  · exact iff_of_false (by rw [read]; simp) unsuited
  · rw [read, suits_list_iff quantity]
    exact iff_of_false (by simp) nonempty

/-- The reading of a field breaks off exactly at the lists that are not empty, in the place of a
quantity. -/
theorem readField_eq_listAsQuantity_iff {field broken : Field} {item : Rlp.Item} :
    readField field item = .error (.listAsQuantity broken) ↔
      broken = field ∧ field.IsQuantity ∧ ∃ items, items ≠ [] ∧ item = .list items := by
  constructor
  · intro breaks
    rcases readField_cases field item with
      ⟨-, read⟩ | ⟨-, flaw, read⟩ | ⟨quantity, items, nonempty, rfl, read⟩
    · rw [read] at breaks
      simp at breaks
    · rw [read] at breaks
      simp at breaks
    · rw [read] at breaks
      obtain rfl := Fault.listAsQuantity.inj (Except.error.inj breaks)
      exact ⟨rfl, quantity, items, nonempty, rfl⟩
  · rintro ⟨rfl, quantity, items, nonempty, rfl⟩
    obtain ⟨child, rest, rfl⟩ := List.exists_cons_of_ne_nil nonempty
    rw [readField_of_isQuantity quantity]
    rfl

/-! ## All fields -/

/-- The reading of fields in their order, for the first fault alone. -/
def readFields : List Field → List Rlp.Item → Except Fault Unit
  | field :: fields, item :: items => do
    readField field item
    readFields fields items
  | _, _ => .ok ()

/-- The reading of fields breaks off exactly at the first item that does not suit its field, and
only if that is a list that is not empty in the place of a quantity. -/
theorem readFields_eq_listAsQuantity_iff {broken : Field} {fields : List Field}
    {items : List Rlp.Item} :
    readFields fields items = .error (.listAsQuantity broken) ↔ BreaksOff broken fields items := by
  induction fields, items using readFields.induct with
  | case1 field fields item items ih =>
    rw [readFields, Outcome.bind_eq_error, readField_eq_listAsQuantity_iff]
    constructor
    · rintro (⟨rfl, quantity, nested, nonempty, rfl⟩ | ⟨⟨⟩, suits, later⟩)
      · exact .here quantity nonempty
      · exact .later (readField_eq_ok_iff.1 suits) (ih.1 later)
    · intro breaks
      cases breaks with
      | here quantity nonempty => exact .inl ⟨rfl, quantity, _, nonempty, rfl⟩
      | later suits later => exact .inr ⟨(), readField_eq_ok_iff.2 suits, ih.2 later⟩
  | case2 fields items short =>
    refine ⟨fun read => ?_, fun breaks => ?_⟩
    · rw [readFields] at read
      · simp at read
      · exact short
    · cases breaks with
      | here quantity nonempty => exact (short _ _ _ _ rfl rfl).elim
      | later suits later => exact (short _ _ _ _ rfl rfl).elim

/-- Six items, or nine, are read as a transaction exactly if their fields are read, and otherwise
they fail alike. -/
theorem ofItems_discard {fields : List Field} {items : List Rlp.Item}
    (form : fields ∈ forms) (count : items.length = fields.length) :
    (ofItems items).map (fun _ => ()) = readFields fields items := by
  have either : fields = unsignedFields ∨ fields = signedFields := by
    simpa only [forms, List.mem_cons, List.not_mem_nil, or_false] using form
  obtain rfl | rfl := either
  · match items, count with
    | [nonce, gasPrice, gas, recipient, value, data], _ =>
      refine Outcome.discard_bind fun nonce => ?_
      refine Outcome.discard_bind fun gasPrice => ?_
      refine Outcome.discard_bind fun gas => ?_
      refine Outcome.discard_bind fun recipient => ?_
      refine Outcome.discard_bind fun value => ?_
      exact Outcome.discard_bind fun data => rfl
  · match items, count with
    | [nonce, gasPrice, gas, recipient, value, data, v, r, s], _ =>
      refine Outcome.discard_bind fun nonce => ?_
      refine Outcome.discard_bind fun gasPrice => ?_
      refine Outcome.discard_bind fun gas => ?_
      refine Outcome.discard_bind fun recipient => ?_
      refine Outcome.discard_bind fun value => ?_
      refine Outcome.discard_bind fun data => ?_
      refine Outcome.discard_bind fun v => ?_
      refine Outcome.discard_bind fun r => ?_
      exact Outcome.discard_bind fun s => rfl

/-- Items that are neither six nor nine make no transaction. -/
theorem ofItems_of_count {items : List Rlp.Item}
    (count : ∀ fields ∈ forms, items.length ≠ fields.length) :
    ofItems items = .error (.fieldCount items.length) := by
  unfold ofItems
  split
  · exact absurd rfl (count unsignedFields (.head _))
  · exact absurd rfl (count signedFields (.tail _ (.head _)))
  · rfl

/-- The reading of a transaction's items breaks off exactly where that of a form's fields does. -/
theorem ofItems_eq_listAsQuantity_iff {items : List Rlp.Item} {broken : Field} :
    ofItems items = .error (.listAsQuantity broken) ↔
      ∃ fields ∈ forms,
        items.length = fields.length ∧ BreaksOff broken fields items := by
  constructor
  · intro breaks
    by_cases form : ∃ fields ∈ forms, items.length = fields.length
    · obtain ⟨fields, form, count⟩ := form
      refine ⟨fields, form, count, ?_⟩
      rw [← readFields_eq_listAsQuantity_iff, ← ofItems_discard form count, breaks]
      rfl
    · have count := ofItems_of_count fun fields mem eq => form ⟨fields, mem, eq⟩
      rw [count] at breaks
      simp at breaks
  · rintro ⟨fields, form, count, breaks⟩
    rw [← readFields_eq_listAsQuantity_iff, ← ofItems_discard form count,
      Outcome.map_eq_error] at breaks
    exact breaks

/-- Bytes that are read as a list are read as the transaction of its items. -/
theorem decode_of_listed {raw : Bytes} {items : List Rlp.Item}
    (listed : Rlp.decode raw = .ok (.list items)) : decode raw = ofItems items := by
  obtain ⟨first, rest, rfl, list⟩ := Rlp.first_of_decode_list listed
  rw [decode, if_neg list, listed]

/-- The bytes spell a list of six or nine items, in which a list that is not empty is reached in
the place of a quantity. -/
def NestedQuantity (raw : Bytes) (broken : Field) : Prop :=
  ∃ items, Rlp.decode raw = .ok (.list items) ∧
    ∃ fields ∈ forms, items.length = fields.length ∧ BreaksOff broken fields items

/-- The reading of bytes as a transaction breaks off exactly if a list that is not empty is reached
in the place of a quantity. -/
theorem decode_eq_listAsQuantity_iff {raw : Bytes} {broken : Field} :
    decode raw = .error (.listAsQuantity broken) ↔ NestedQuantity raw broken := by
  rw [NestedQuantity,
    ← exists_congr fun items => and_congr_right fun _ => ofItems_eq_listAsQuantity_iff]
  constructor
  · intro breaks
    unfold decode at breaks
    split at breaks
    · simp at breaks
    · split at breaks
      · simp at breaks
      · split at breaks
        · simp at breaks
        · simp at breaks
        · next items read => exact ⟨items, read, breaks⟩
  · rintro ⟨items, listed, breaks⟩
    rw [decode_of_listed listed, breaks]

end Transaction

end Custody.Ethereum
