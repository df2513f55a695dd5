import Custody.Proofs.Outcome
import Custody.Wire.Field
import Mathlib.Tactic.NormNum

/-!
# Written fields read back

A message is read by taking in one field after the other. A part of a message `Takes` its reader
from one state to another, whatever stands behind it; parts that follow each other do so in turn
(`Takes.append`), and a part that is all there is leaves the reader with its last state
(`Takes.foldFields_eq`). There is one lemma for each way in which fields are written: a number,
bytes or a text, any of which may be left out, and a field repeated for each element of a list.

Fields that are zero or empty are left out. This makes no difference to a reader to whom a field
that is not there means the same as one that is zero or empty, which is the condition `absent`.

The other conditions are the limits of the wire: field numbers below `2^29`, numbers below `2^64`,
and payloads of at most `longestPayload` bytes. A field holds no more bytes than its message
(`length_le_writeBytes`, `length_le_writeNonempty`, `length_le_repeated`), so the limit of a whole
message is enough for everything in it.
-/

namespace Custody

/-! ## Variable-length numbers -/

/-- A number of so many groups of seven bits is written in as many bytes, or fewer. -/
theorem Wire.Varint.length_write_le {width n : Nat} (fits : n < 128 ^ (width + 1)) :
    (write n).length ≤ width + 1 := by
  induction width generalizing n with
  | zero =>
    have small : n < 128 := by simpa using fits
    rw [write, if_pos small, List.length_singleton]
  | succ width ih =>
    rw [write]
    split
    · simp
    · -- The lowest group goes into the first byte, and one group fewer is left.
      have high : n / 128 < 128 ^ (width + 1) := by
        rw [pow_succ] at fits
        exact Nat.div_lt_of_lt_mul (by rwa [Nat.mul_comm] at fits)
      rw [List.length_cons]
      exact Nat.succ_le_succ (ih high)

/-! ## Texts -/

/-- Only the empty text is written in no bytes. -/
theorem Utf8.encode_eq_nil_iff {text : String} : encode text = [] ↔ text = "" := by
  constructor
  · intro nil
    have read : decode? [] = some text := decode?_eq_some_iff.2 nil
    have empty : decode? [] = some "" := decode?_eq_some_iff.2 rfl
    rw [empty] at read
    exact (Option.some.inj read).symm
  · rintro rfl
    rfl

namespace Wire

/-- A written text is read back. -/
theorem readText_encode (text : String) : readText (Utf8.encode text) = .ok text := by
  rw [readText, Utf8.decode?_encode]

/-! ## One field -/

/-- A tag is read back, whatever follows. -/
theorem readTag_write {number : Nat} (code : Nat) {kind : Kind}
    (known : Kind.ofNat? code = some kind) (coded : code < 8) (small : number < 2 ^ 29)
    (rest : Bytes) :
    readTag (Varint.write (8 * number + code) ++ rest) = some (number, kind, rest) := by
  have fits : 8 * number + code < UInt32.size := by
    have size : UInt32.size = 8 * 2 ^ 29 := by norm_num [UInt32.size]
    omega
  have length : (Varint.write (8 * number + code)).length ≤ 5 := by
    apply Varint.length_write_le
    exact Nat.lt_trans fits (by norm_num [UInt32.size])
  have field : (8 * number + code) / 8 = number := by omega
  have low : (8 * number + code) % 8 = code := by omega
  rw [readTag, Varint.read_write length]
  simp only [if_pos fits, field, low, known, Option.map_some]

/-- The bytes at the front of the input are taken, whatever follows. -/
theorem takeBytes_append (content rest : Bytes) :
    takeBytes content.length (content ++ rest) = some (content, rest) := by
  rw [takeBytes, if_pos (by simp), List.take_left, List.drop_left]

section

variable {depth number : Nat} (valid : 0 < number ∧ number < 2 ^ 29)
include valid

/-- A field that holds a number is read back, whatever follows. -/
theorem readField_writeNumber {n : Nat} (fits : n < 2 ^ 64) (rest : Bytes) :
    readField depth (writeNumber number n ++ rest) = some (⟨number, .number n⟩, rest) := by
  have tag := readTag_write 0 rfl (by omega) valid.2 (Varint.write n ++ rest)
  have length : (Varint.write n).length ≤ 10 := by
    apply Varint.length_write_le
    exact Nat.lt_trans fits (by norm_num)
  rw [Nat.add_zero] at tag
  rw [writeNumber, List.append_assoc, readField, tag]
  simp only [if_neg valid.1.ne', readPlain, Varint.read_write length, Option.map_some]

/-- A field that holds bytes is read back, whatever follows. -/
theorem readField_writeBytes {content : Bytes} (fits : content.length ≤ longestPayload)
    (rest : Bytes) :
    readField depth (writeBytes number content ++ rest) =
      some (⟨number, .bytes content⟩, rest) := by
  have tag := readTag_write 2 rfl (by omega) valid.2
    (Varint.write content.length ++ (content ++ rest))
  have length : (Varint.write content.length).length ≤ 5 := by
    apply Varint.length_write_le
    exact Nat.lt_of_le_of_lt fits (by norm_num [longestPayload])
  rw [writeBytes, List.append_assoc, List.append_assoc, readField, tag]
  simp only [if_neg valid.1.ne', readPlain, Varint.read_write length, if_pos fits,
    takeBytes_append, Option.map_some]

end

/-! ## Fields of a message -/

section

variable {σ : Type} {depth : Nat} {step : σ → Field → Except Fault σ} {state state' : σ}

/-- A message without fields leaves everything as it was. -/
theorem foldFields_nil : foldFields depth step state [] = .ok state := by
  rw [foldFields, if_pos rfl]

/-- A field at the front of the input is taken in, and reading goes on behind it. -/
theorem foldFields_of_readField {input rest : Bytes} {field : Field}
    (read : readField depth input = some (field, rest)) (taken : step state field = .ok state') :
    foldFields depth step state input = foldFields depth step state' rest := by
  have nonempty : input ≠ [] := by
    rintro rfl
    exact absurd (length_readField read) (Nat.not_lt_zero _)
  rw [foldFields, if_neg nonempty]
  split
  · next none_read =>
    rw [read] at none_read
    simp at none_read
  · next field' rest' read' =>
    rw [read] at read'
    obtain ⟨rfl, rfl⟩ := Prod.mk.inj (Option.some.inj read')
    rw [taken]

/-- A part of a message takes its reader from one state to another, whatever follows. -/
def Takes (depth : Nat) (step : σ → Field → Except Fault σ) (part : Bytes)
    (state state' : σ) : Prop :=
  ∀ rest, foldFields depth step state (part ++ rest) = foldFields depth step state' rest

/-- No bytes leave the reader where it is. -/
theorem Takes.nil : Takes depth step [] state state := fun _ => rfl

/-- Two parts take the reader from the first's state to the second's. -/
theorem Takes.append {last : σ} {front back : Bytes}
    (first : Takes depth step front state state') (second : Takes depth step back state' last) :
    Takes depth step (front ++ back) state last := by
  intro rest
  rw [List.append_assoc, first, second]

/-- A whole message is read as the state that it takes the reader to. -/
theorem Takes.foldFields_eq {raw : Bytes} (whole : Takes depth step raw state state') :
    foldFields depth step state raw = .ok state' := by
  have read := whole []
  rwa [List.append_nil, foldFields_nil] at read

section

variable {number : Nat} (valid : 0 < number ∧ number < 2 ^ 29)
include valid

/-- A written number is taken in. -/
theorem takes_writeNumber {n : Nat} (fits : n < 2 ^ 64)
    (taken : step state ⟨number, .number n⟩ = .ok state') :
    Takes depth step (writeNumber number n) state state' :=
  fun rest => foldFields_of_readField (readField_writeNumber valid fits rest) taken

/-- Written bytes are taken in. -/
theorem takes_writeBytes {content : Bytes} (fits : content.length ≤ longestPayload)
    (taken : step state ⟨number, .bytes content⟩ = .ok state') :
    Takes depth step (writeBytes number content) state state' :=
  fun rest => foldFields_of_readField (readField_writeBytes valid fits rest) taken

/-- A number is taken in even if it is zero and so left out. -/
theorem takes_writeNonzero {n : Nat} (fits : n < 2 ^ 64)
    (taken : step state ⟨number, .number n⟩ = .ok state') (absent : n = 0 → state' = state) :
    Takes depth step (writeNonzero number n) state state' := by
  rw [writeNonzero]
  split
  · next zero =>
    rw [absent zero]
    exact .nil
  · exact takes_writeNumber valid fits taken

/-- Bytes are taken in even if they are none and so left out. -/
theorem takes_writeNonempty {content : Bytes} (fits : content.length ≤ longestPayload)
    (taken : step state ⟨number, .bytes content⟩ = .ok state')
    (absent : content = [] → state' = state) :
    Takes depth step (writeNonempty number content) state state' := by
  rw [writeNonempty]
  split
  · next empty =>
    rw [absent empty]
    exact .nil
  · exact takes_writeBytes valid fits taken

/-- A text is taken in even if it is empty and so left out. -/
theorem takes_writeText {text : String} (fits : (Utf8.encode text).length ≤ longestPayload)
    (taken : step state ⟨number, .bytes (Utf8.encode text)⟩ = .ok state')
    (absent : text = "" → state' = state) :
    Takes depth step (writeNonempty number (Utf8.encode text)) state state' :=
  takes_writeNonempty valid fits taken fun empty => absent (Utf8.encode_eq_nil_iff.1 empty)

/-- The elements of a list are taken in one after the other; `listed` is the state in which some of
them have been. -/
theorem takes_repeated {α : Type} (spell : α → Bytes) (listed : List α → σ) {items : List α}
    (fits : ∀ item ∈ items, (spell item).length ≤ longestPayload)
    (taken : ∀ before, ∀ item ∈ items,
      step (listed before) ⟨number, .bytes (spell item)⟩ = .ok (listed (before ++ [item])))
    (before : List α) :
    Takes depth step (items.flatMap fun item => writeBytes number (spell item))
      (listed before) (listed (before ++ items)) := by
  -- Each element moves from the items to come to those before, so the state changes with it.
  induction items generalizing before with
  | nil =>
    rw [List.flatMap_nil, List.append_nil]
    exact .nil
  | cons item items ih =>
    have first : Takes depth step (writeBytes number (spell item)) (listed before)
        (listed (before ++ [item])) :=
      takes_writeBytes valid (fits item List.mem_cons_self) (taken before item List.mem_cons_self)
    have others := ih (fun other mem => fits other (List.mem_cons_of_mem item mem))
      (fun before other mem => taken before other (List.mem_cons_of_mem item mem))
      (before ++ [item])
    rw [List.append_assoc, List.singleton_append] at others
    rw [List.flatMap_cons]
    exact first.append others

end

end

/-! ## Lengths -/

/-- A field is longer than the bytes that it holds. -/
theorem length_le_writeBytes (number : Nat) (content : Bytes) :
    content.length ≤ (writeBytes number content).length := by
  rw [writeBytes, List.length_append]
  omega

/-- How long a field is depends on how many bytes it holds. -/
theorem length_writeBytes_congr (number : Nat) {content content' : Bytes}
    (length : content.length = content'.length) :
    (writeBytes number content).length = (writeBytes number content').length := by
  unfold writeBytes
  simp only [List.length_append, length]

/-- A field that may be left out is no shorter than the bytes that it holds. -/
theorem length_le_writeNonempty (number : Nat) (content : Bytes) :
    content.length ≤ (writeNonempty number content).length := by
  rw [writeNonempty]
  split
  · next empty => rw [empty]
  · exact length_le_writeBytes number content

/-- A field that is repeated for the elements of a list is no shorter than the bytes of each. -/
theorem length_le_repeated {α : Type} (number : Nat) (spell : α → Bytes) {item : α}
    {items : List α} (mem : item ∈ items) :
    (spell item).length ≤ (items.flatMap fun item => writeBytes number (spell item)).length := by
  have inside := length_le_writeBytes number (spell item)
  have part : (writeBytes number (spell item)).Sublist
      (items.flatMap fun item => writeBytes number (spell item)) :=
    List.sublist_flatten_of_mem (List.mem_map_of_mem mem)
  exact inside.trans part.length_le

end Wire

end Custody
