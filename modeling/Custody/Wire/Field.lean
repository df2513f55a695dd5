import Custody.Text.Utf8
import Custody.Wire.Varint

/-!
# Fields on the wire

A message is a sequence of fields. A field is a tag, which holds its number and the kind of its
payload, and the payload: a variable-length number, bytes with their length in front, four or
eight bytes, or the fields up to a matching end tag (a group). Groups and the payloads of two fixed
widths carry nothing that a message here uses; they are skipped. What stands in a group is read
only to find its end, so that even the field number zero, which no message has, may stand there.

Reading stops at the first fault. Messages and groups may nest up to a given depth; a group beyond
it makes the bytes corrupt. A message is read field by field with `foldFields`, so that the fault of
an earlier field wins over a later one.
-/

namespace Custody.Wire

/-- Why bytes are not a message. -/
inductive Fault where
  /-- The bytes do not split into fields. -/
  | corrupt
  /-- The bytes of a text field are not UTF-8. -/
  | badText
  /-- Messages nest too deeply. -/
  | tooDeep
deriving DecidableEq, Repr

/-- The wording of a fault in a message of the given type. -/
def Fault.message (type : String) (fault : Fault) : String :=
  "Error parsing message with type '" ++ type ++ "': " ++
    match fault with
    | .corrupt => "Wire format was corrupt"
    | .badText => "String field had bad UTF-8"
    | .tooDeep => "Exceeded upb_DecodeOptions_MaxDepth"

/-- What a field holds. -/
inductive Payload where
  | number (n : Nat)
  | bytes (content : Bytes)
  /-- A payload that is skipped. -/
  | other
deriving DecidableEq, Repr

/-- A field of a message. -/
structure Field where
  /-- The number that says which field it is. -/
  number : Nat
  /-- What it holds. -/
  payload : Payload
deriving DecidableEq, Repr

/-- The kinds of payload that a tag can announce. -/
inductive Kind where
  | varint | eightBytes | bytes | groupStart | groupEnd | fourBytes
deriving DecidableEq, Repr

/-- The kind that the low three bits of a tag stand for. -/
def Kind.ofNat? : Nat → Option Kind
  | 0 => some .varint
  | 1 => some .eightBytes
  | 2 => some .bytes
  | 3 => some .groupStart
  | 4 => some .groupEnd
  | 5 => some .fourBytes
  | _ => none

/-- The tag at the front of the input: the field's number and the payload's kind. -/
def readTag (input : Bytes) : Option (Nat × Kind × Bytes) :=
  match Varint.read 5 input with
  | none => none
  | some (tag, rest) =>
    if tag < UInt32.size then (Kind.ofNat? (tag % 8)).map fun kind => (tag / 8, kind, rest)
    else none

/-- The first bytes of the input, as many as `size` says, if there are so many. -/
def takeBytes (size : Nat) (input : Bytes) : Option (Bytes × Bytes) :=
  if size ≤ input.length then some (input.take size, input.drop size) else none

/-- The most bytes that a payload may announce. -/
def longestPayload : Nat := 0x7fffffff

/-- The payload at the front of the input, of a kind that is not a group. -/
def readPlain (kind : Kind) (input : Bytes) : Option (Payload × Bytes) :=
  match kind with
  | .varint => (Varint.read 10 input).map fun (n, rest) => (.number n, rest)
  | .eightBytes => (takeBytes 8 input).map fun (_, rest) => (.other, rest)
  | .fourBytes => (takeBytes 4 input).map fun (_, rest) => (.other, rest)
  | .bytes =>
    match Varint.read 5 input with
    | none => none
    | some (size, rest) =>
      if size ≤ longestPayload then
        (takeBytes size rest).map fun (content, rest) => (.bytes content, rest)
      else none
  | .groupStart | .groupEnd => none

/-- Reading a tag takes at least one byte off the input. -/
theorem length_readTag {input rest : Bytes} {number : Nat} {kind : Kind}
    (h : readTag input = some (number, kind, rest)) : rest.length < input.length := by
  unfold readTag at h
  split at h
  · simp at h
  · next tag rest' eq =>
    split at h
    · simp only [Option.map_eq_some_iff, Prod.mk.injEq] at h
      obtain ⟨_, _, _, _, rfl⟩ := h
      exact Varint.length_read eq
    · simp at h

/-- What `takeBytes` leaves is no longer than its input. -/
theorem length_takeBytes {size : Nat} {input content rest : Bytes}
    (h : takeBytes size input = some (content, rest)) : rest.length ≤ input.length := by
  unfold takeBytes at h
  split at h
  · simp only [Option.some.injEq, Prod.mk.injEq] at h
    simp [← h.2]
  · simp at h

/-- Reading a payload leaves no more than its input. -/
theorem length_readPlain {kind : Kind} {input rest : Bytes} {payload : Payload}
    (h : readPlain kind input = some (payload, rest)) : rest.length ≤ input.length := by
  cases kind with
  | varint =>
    simp only [readPlain, Option.map_eq_some_iff, Prod.mk.injEq] at h
    obtain ⟨⟨n, r⟩, eq, _, rfl⟩ := h
    exact Nat.le_of_lt (Varint.length_read eq)
  | eightBytes =>
    simp only [readPlain, Option.map_eq_some_iff, Prod.mk.injEq] at h
    obtain ⟨⟨c, r⟩, eq, _, rfl⟩ := h
    exact length_takeBytes eq
  | fourBytes =>
    simp only [readPlain, Option.map_eq_some_iff, Prod.mk.injEq] at h
    obtain ⟨⟨c, r⟩, eq, _, rfl⟩ := h
    exact length_takeBytes eq
  | bytes =>
    simp only [readPlain] at h
    split at h
    · simp at h
    · next size rest' eq =>
      split at h
      · simp only [Option.map_eq_some_iff, Prod.mk.injEq] at h
        obtain ⟨⟨c, r⟩, taken, _, rfl⟩ := h
        exact Nat.le_trans (length_takeBytes taken) (Nat.le_of_lt (Varint.length_read eq))
      · simp at h
  | groupStart => simp [readPlain] at h
  | groupEnd => simp [readPlain] at h

/-- What follows the end of all open groups, the innermost first in `groups`, if they end and at
most `depth` of them are ever open. -/
def skipGroups (depth : Nat) (groups : List Nat) (input : Bytes) : Option Bytes :=
  match groups with
  | [] => some input
  | innermost :: outer =>
    match _tag : readTag input with
    | none => none
    | some (number, .groupEnd, rest) =>
      if number = innermost then skipGroups depth outer rest else none
    | some (number, .groupStart, rest) =>
      if depth ≤ groups.length then none else skipGroups depth (number :: groups) rest
    | some (_, kind, rest) =>
      match _plain : readPlain kind rest with
      | none => none
      | some (_, rest) => skipGroups depth groups rest
termination_by input.length
decreasing_by
  · exact length_readTag ‹_›
  · exact length_readTag ‹_›
  · exact Nat.lt_of_le_of_lt (length_readPlain ‹_›) (length_readTag ‹_›)

/-- The field at the front of the input, where `depth` more messages or groups may nest. Its number
is not zero. -/
def readField (depth : Nat) (input : Bytes) : Option (Field × Bytes) :=
  match readTag input with
  | none => none
  | some (number, kind, rest) =>
    if number = 0 then none
    else
      match kind with
      | .groupEnd => none
      | .groupStart =>
        if depth = 0 then none
        else (skipGroups depth [number] rest).map fun rest => (⟨number, .other⟩, rest)
      | kind => (readPlain kind rest).map fun (payload, rest) => (⟨number, payload⟩, rest)

/-- Skipping groups leaves no more than the input. -/
theorem length_skipGroups {depth : Nat} {groups : List Nat} {input rest : Bytes}
    (h : skipGroups depth groups input = some rest) : rest.length ≤ input.length := by
  fun_induction skipGroups depth groups input <;>
    grind [→ length_readTag, → length_readPlain]

/-- Reading a field takes at least one byte off the input. -/
theorem length_readField {depth : Nat} {input rest : Bytes} {field : Field}
    (h : readField depth input = some (field, rest)) : rest.length < input.length := by
  unfold readField at h
  grind [Option.map_eq_some_iff, → length_readTag, → length_readPlain, → length_skipGroups]

/-- The fields of a message taken in one after the other, each by `step`. -/
def foldFields {σ : Type} (depth : Nat) (step : σ → Field → Except Fault σ) (state : σ)
    (input : Bytes) : Except Fault σ :=
  if input = [] then .ok state
  else
    match _field : readField depth input with
    | none => .error .corrupt
    | some (field, rest) =>
      match step state field with
      | .error fault => .error fault
      | .ok state => foldFields depth step state rest
termination_by input.length
decreasing_by exact length_readField ‹_›

/-- The text that a field's bytes hold. -/
def readText (content : Bytes) : Except Fault String :=
  match Utf8.decode? content with
  | some text => .ok text
  | none => .error .badText

/-- A field whose payload is a number. -/
def writeNumber (number n : Nat) : Bytes :=
  Varint.write (8 * number) ++ Varint.write n

/-- A field whose payload is bytes. -/
def writeBytes (number : Nat) (content : Bytes) : Bytes :=
  Varint.write (8 * number + 2) ++ Varint.write content.length ++ content

/-- A field whose payload is a number, left out if the number is zero. -/
def writeNonzero (number n : Nat) : Bytes :=
  if n = 0 then [] else writeNumber number n

/-- A field whose payload is bytes, left out if there are none. -/
def writeNonempty (number : Nat) (content : Bytes) : Bytes :=
  if content = [] then [] else writeBytes number content

end Custody.Wire
