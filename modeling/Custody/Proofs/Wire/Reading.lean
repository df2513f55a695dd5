import Custody.Wire.Field

/-!
# What reading a message leads to

A number can be written in more bytes than it needs, but never in fewer than `Varint.write` uses
(`length_write_le_of_read`). So a field of bytes takes up at least its `Field.size`, the length of
its shortest written form, and no field holds more than `longestPayload` bytes (`readField_spec`).

`foldFields_reaches` is the principle by which a statement about what was read is proved. If every
field that fits on the wire keeps a statement about the reader's state and the bytes used up so far,
then the statement holds of the state at the end, and no more bytes were used up than there are.
For a message of two fields of bytes this bounds the written form of what was read
(`SetsOneOfTwo.length_le`).
-/

namespace Custody.Wire

/-- A number that is read takes up no fewer bytes than its shortest written form. -/
theorem Varint.length_write_le_of_read {most : Nat} {input rest : Bytes} {n : Nat}
    (h : read most input = some (n, rest)) : (write n).length + rest.length ≤ input.length := by
  induction most generalizing input n with
  | zero => simp [read] at h
  | succ most ih =>
    cases input with
    | nil => simp [read] at h
    | cons b tail =>
      unfold read at h
      split at h
      · next last =>
        -- The first byte is the last, and holds the whole number.
        obtain ⟨rfl, rfl⟩ := Prod.mk.inj (Option.some.inj h)
        have small : b.toNat < 128 := UInt8.lt_iff_toNat_lt.1 last
        rw [write, if_pos small, List.length_singleton, List.length_cons]
        omega
      · split at h
        · simp at h
        · next high rest' read =>
          obtain ⟨rfl, rfl⟩ := Prod.mk.inj (Option.some.inj h)
          have others := ih read
          have low : b.toNat - 128 < 128 := by have := b.toNat_lt; omega
          rw [List.length_cons, write]
          split
          · rw [List.length_singleton]
            have := length_read read
            omega
          · -- The shortest form has the same high groups, so it is longer by one byte at most.
            have groups : (b.toNat - 128 + 128 * high) / 128 = high := by omega
            rw [List.length_cons, groups]
            omega

/-- A text is read from its written form alone. -/
theorem readText_eq_ok_iff {content : Bytes} {text : String} :
    readText content = .ok text ↔ Utf8.encode text = content := by
  rw [← Utf8.decode?_eq_some_iff, readText]
  cases Utf8.decode? content with
  | none => simp
  | some read => simp

/-- The fewest bytes in which a field of bytes can be written; fields of other kinds do not count.
-/
def Field.size : Field → Nat
  | ⟨number, .bytes content⟩ => (writeBytes number content).length
  | ⟨_, .number _⟩ | ⟨_, .other⟩ => 0

/-- A field that may be left out is no longer than one that is written. -/
theorem length_writeNonempty_le (number : Nat) (content : Bytes) :
    (writeNonempty number content).length ≤ (writeBytes number content).length := by
  rw [writeNonempty]
  split
  · exact Nat.zero_le _
  · exact Nat.le_refl _

/-- A field holds no more bytes than a payload may announce. -/
def Field.Fits (field : Field) : Prop :=
  ∀ content, field.payload = .bytes content → content.length ≤ longestPayload

/-- A tag that announces bytes takes up no fewer bytes than its shortest written form. -/
theorem length_write_le_of_readTag {input rest : Bytes} {number : Nat}
    (h : readTag input = some (number, .bytes, rest)) :
    (Varint.write (8 * number + 2)).length + rest.length ≤ input.length := by
  unfold readTag at h
  split at h
  · simp at h
  · next tag rest' read =>
    split at h
    · obtain ⟨kind, announced, eq⟩ := Option.map_eq_some_iff.1 h
      obtain ⟨rfl, rfl, rfl⟩ : tag / 8 = number ∧ kind = .bytes ∧ rest' = rest := by
        simpa using eq
      have code : tag % 8 = 2 := by
        unfold Kind.ofNat? at announced
        split at announced <;> simp_all
      have whole : 8 * (tag / 8) + 2 = tag := by omega
      rw [whole]
      exact Varint.length_write_le_of_read read
    · simp at h

/-- Bytes that are read fit, and take up no fewer bytes than with their length in front. -/
theorem readPlain_bytes_spec {input rest : Bytes} {payload : Payload}
    (h : readPlain .bytes input = some (payload, rest)) :
    ∃ content, payload = .bytes content ∧ content.length ≤ longestPayload ∧
      (Varint.write content.length).length + content.length + rest.length ≤ input.length := by
  unfold readPlain at h
  simp only at h
  split at h
  · simp at h
  · next size rest' read =>
    split at h
    · next fits =>
      obtain ⟨⟨content, rest''⟩, taken, eq⟩ := Option.map_eq_some_iff.1 h
      obtain ⟨rfl, rfl⟩ := Prod.mk.inj eq
      have announced := Varint.length_write_le_of_read read
      unfold takeBytes at taken
      split at taken
      · next enough =>
        obtain ⟨rfl, rfl⟩ := Prod.mk.inj (Option.some.inj taken)
        have length : (rest'.take size).length = size := List.length_take_of_le enough
        refine ⟨_, rfl, by rw [length]; exact fits, ?_⟩
        rw [length, List.length_drop]
        omega
      · simp at taken
    · simp at h

/-- Nothing but a field of bytes is read as bytes. -/
theorem kind_eq_bytes_of_readPlain {kind : Kind} {input rest content : Bytes}
    (h : readPlain kind input = some (.bytes content, rest)) : kind = .bytes := by
  cases kind with
  | varint => simp [readPlain] at h
  | eightBytes => simp [readPlain] at h
  | bytes => rfl
  | groupStart => simp [readPlain] at h
  | groupEnd => simp [readPlain] at h
  | fourBytes => simp [readPlain] at h

/-- A field of bytes is read as its tag, its length and its bytes. -/
theorem readField_bytes {depth number : Nat} {input rest content : Bytes}
    (h : readField depth input = some (⟨number, .bytes content⟩, rest)) :
    ∃ behind, readTag input = some (number, .bytes, behind) ∧
      readPlain .bytes behind = some (.bytes content, rest) := by
  unfold readField at h
  split at h
  · simp at h
  · next number' kind behind tag =>
    split at h
    · simp at h
    · split at h
      · simp at h
      · split at h
        · simp at h
        · simp at h
      · next plain =>
        obtain ⟨⟨payload, rest'⟩, read, eq⟩ := Option.map_eq_some_iff.1 h
        obtain ⟨field, rfl⟩ := Prod.mk.inj eq
        obtain ⟨rfl, rfl⟩ := Field.mk.inj field
        obtain rfl := kind_eq_bytes_of_readPlain read
        exact ⟨behind, tag, read⟩

/-- A field that is read fits, and takes up no fewer bytes than its size. -/
theorem readField_spec {depth : Nat} {input rest : Bytes} {field : Field}
    (h : readField depth input = some (field, rest)) :
    field.size + rest.length ≤ input.length ∧ field.Fits := by
  obtain ⟨number, payload⟩ := field
  have shorter := length_readField h
  cases payload with
  | number n =>
    refine ⟨?_, fun content bytes => by simp at bytes⟩
    rw [Field.size]
    omega
  | other =>
    refine ⟨?_, fun content bytes => by simp at bytes⟩
    rw [Field.size]
    omega
  | bytes content =>
    obtain ⟨behind, tag, plain⟩ := readField_bytes h
    have front := length_write_le_of_readTag tag
    obtain ⟨content', same, fits, back⟩ := readPlain_bytes_spec plain
    obtain rfl := Payload.bytes.inj same
    refine ⟨?_, fun content' bytes => ?_⟩
    · rw [Field.size, writeBytes, List.length_append, List.length_append]
      omega
    · rw [← Payload.bytes.inj bytes]
      exact fits

/-- What every field that fits keeps, about the state and the bytes used up so far, holds when a
message has been read, and no more bytes were used up than the message has. -/
theorem foldFields_reaches {σ : Type} {depth : Nat} {step : σ → Field → Except Fault σ}
    {Holds : Nat → σ → Prop}
    (kept : ∀ used state field next, Holds used state → field.Fits →
      step state field = .ok next → Holds (used + field.size) next)
    (used : Nat) {state last : σ} {input : Bytes} (start : Holds used state)
    (read : foldFields depth step state input = .ok last) :
    ∃ more, more ≤ input.length ∧ Holds (used + more) last := by
  induction length : input.length using Nat.strongRecOn generalizing used state input with
  | _ n ih =>
    rw [foldFields] at read
    split at read
    · obtain rfl := Except.ok.inj read
      exact ⟨0, Nat.zero_le _, start⟩
    · split at read
      · simp at read
      · next field rest front =>
        split at read
        · simp at read
        · next next taken =>
          obtain ⟨size, fits⟩ := readField_spec front
          have shorter := length_readField front
          have moved := kept used state field next start fits taken
          obtain ⟨more, within, holds⟩ := ih rest.length (by omega) _ moved read rfl
          refine ⟨field.size + more, by omega, ?_⟩
          rw [← Nat.add_assoc]
          exact holds

/-- A message has two fields of bytes, and a field that is taken in sets one of them or neither. -/
def SetsOneOfTwo {σ : Type} (step : σ → Field → Except Fault σ) (first second : σ → Bytes) : Prop :=
  ∀ state field next, step state field = .ok next →
    (first next = first state ∧ second next = second state) ∨
    (field = ⟨1, .bytes (first next)⟩ ∧ second next = second state) ∨
    (field = ⟨2, .bytes (second next)⟩ ∧ first next = first state)

/-- Taking fields into a message of two adds no more bytes to its written form than they take up. -/
theorem SetsOneOfTwo.length_le {σ : Type} {depth : Nat} {step : σ → Field → Except Fault σ}
    {first second : σ → Bytes} (sets : SetsOneOfTwo step first second) {state last : σ}
    {input : Bytes} (read : foldFields depth step state input = .ok last) :
    (writeNonempty 1 (first last) ++ writeNonempty 2 (second last)).length ≤
      (writeNonempty 1 (first state) ++ writeNonempty 2 (second state)).length + input.length := by
  have kept : ∀ used (state : σ) field next,
      (writeNonempty 1 (first state) ++ writeNonempty 2 (second state)).length ≤ used →
        field.Fits → step state field = .ok next →
          (writeNonempty 1 (first next) ++ writeNonempty 2 (second next)).length ≤
            used + field.size := by
    intro used state field next within _ taken
    rw [List.length_append] at within ⊢
    -- The field that is set was at most as long as what was read, whatever it replaces.
    rcases sets state field next taken with ⟨same₁, same₂⟩ | ⟨rfl, same₂⟩ | ⟨rfl, same₁⟩
    · rw [same₁, same₂]
      omega
    · have set := length_writeNonempty_le 1 (first next)
      rw [same₂]
      simp only [Field.size]
      omega
    · have set := length_writeNonempty_le 2 (second next)
      rw [same₁]
      simp only [Field.size]
      omega
  obtain ⟨more, within, holds⟩ := foldFields_reaches kept _ (Nat.le_refl _) read
  omega

end Custody.Wire
