import Custody.Rlp.Item

/-!
# Reading RLP items

`decode` reads one item that must fill its input exactly. Positions are counted from the headers
alone: a string that the input cuts short is read as what is left of it, and it is the count at
the end that refuses the input. Within a list, items are read until the count reaches the end that
the list's header announced; an item that passes this end is refused.

The causes of refusal are `Fault`, with their wording in `Fault.message`.
-/

namespace Custody.Rlp

/-- Why bytes are not one written item. -/
inductive Fault where
  /-- An item, or the one byte after `0x81`, was expected after the last byte. -/
  | tooShort
  /-- A byte that can stand for itself was written with a header. -/
  | longFormOfByte
  /-- The length of a long item starts with a zero byte. -/
  | paddedLength
  /-- A length below 56 was written in the long form. -/
  | longFormOfShort (isList : Bool)
  /-- An item of a list passes the end that the list announced. -/
  | itemPassesList
  /-- The item ends this many bytes before the end of the input, or after it if negative. -/
  | superfluous (count : Int)
deriving DecidableEq, Repr

/-- The wording of a fault. -/
def Fault.message : Fault → String
  | .tooShort => "RLP string too short"
  | .longFormOfByte => "Encoded as short string although single byte was possible"
  | .paddedLength => "Length starts with zero bytes"
  | .longFormOfShort false => "Long string prefix used for short string"
  | .longFormOfShort true => "Long list prefix used for short list"
  | .itemPassesList => "List length prefix announced a too small length"
  | .superfluous count => "RLP string ends with " ++ toString count ++ " superfluous bytes"

/-- What the first bytes of an item announce. -/
structure Header where
  /-- Whether the payload is a list of items. -/
  isList : Bool
  /-- The number of bytes before the payload; none if a byte stands for itself. -/
  offset : Nat
  /-- The number of bytes of the payload. -/
  size : Nat
deriving DecidableEq, Repr

/-- The number of bytes that an item announces in all. -/
def Header.extent (h : Header) : Nat :=
  h.offset + h.size

/-- The header of a long item, whose length fills `width` bytes of `rest`. -/
def Header.readLong (isList : Bool) (width : Nat) (rest : Bytes) : Except Fault Header :=
  if rest.head? = some 0 then .error .paddedLength
  else
    let size := Bytes.toNat (rest.take width)
    if size < 56 then .error (.longFormOfShort isList) else .ok ⟨isList, 1 + width, size⟩

/-- The header at the front of the input. -/
def Header.read : Bytes → Except Fault Header
  | [] => .error .tooShort
  | first :: rest =>
    let n := first.toNat
    if n < 0x80 then .ok ⟨false, 0, 1⟩
    else if n = 0x81 then
      match rest with
      | [] => .error .tooShort
      | b :: _ => if b < 0x80 then .error .longFormOfByte else .ok ⟨false, 1, 1⟩
    else if n < 0xb8 then .ok ⟨false, 1, n - 0x80⟩
    else if n < 0xc0 then readLong false (n - 0xb7) rest
    else if n < 0xf8 then .ok ⟨true, 1, n - 0xc0⟩
    else readLong true (n - 0xf7) rest

/-- A header that was read announces at least one byte, the input holds at least one, and a
list has a header of its own. -/
theorem Header.of_read {input : Bytes} {h : Header} (ok : Header.read input = .ok h) :
    0 < input.length ∧ 0 < h.extent ∧ (h.isList = true → 0 < h.offset) := by
  match input with
  | [] => simp [Header.read] at ok
  | [_] => grind [Header.read, Header.readLong, Header.extent]
  | _ :: _ :: _ => grind [Header.read, Header.readLong, Header.extent]

/-- The items of a list whose payload of `size` bytes stands at the front of the input. -/
def readItems (size : Nat) (input : Bytes) : Except Fault (List Item) :=
  if size = 0 then .ok []
  else
    match _read : Header.read input with
    | .error fault => .error fault
    | .ok h => do
      -- Where the input ends first, the payload is what is left of it.
      let payload := input.drop h.offset
      let item ← if _ : h.isList then Item.list <$> readItems h.size payload
        else .ok (.bytes (payload.take h.size))
      -- Only a whole item is held against the end of the list.
      if size < h.extent then .error .itemPassesList
      else (item :: ·) <$> readItems (size - h.extent) (input.drop h.extent)
termination_by input.length
decreasing_by
  · have bounds := Header.of_read ‹_›
    simp only [List.length_drop]
    omega
  · have bounds := Header.of_read ‹_›
    have := bounds.2.2 ‹_›
    simp only [List.length_drop]
    omega

/-- The item at the front of the input, with what it announces. -/
def readItem (input : Bytes) : Except Fault (Item × Header) := do
  let h ← Header.read input
  let payload := input.drop h.offset
  let item ← if h.isList then Item.list <$> readItems h.size payload
    else .ok (.bytes (payload.take h.size))
  .ok (item, h)

/-- The one item that the input is the written form of. -/
def decode (input : Bytes) : Except Fault Item := do
  let (item, h) ← readItem input
  if h.extent = input.length then .ok item
  else .error (.superfluous (Int.ofNat input.length - Int.ofNat h.extent))

end Custody.Rlp
