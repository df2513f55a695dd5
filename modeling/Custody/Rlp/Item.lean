import Custody.Bytes

/-!
# RLP items and how they are written

An item is a byte string or a list of items. A byte below `0x80` stands for itself; every other
string is its bytes after a header, and a list is the concatenation of its written items after a
header. The header holds the length of what follows: in the first byte up to 55, and above that
as a shortest big-endian number whose own length is in the first byte. Every item has exactly one
written form.
-/

namespace Custody.Rlp

/-- A byte string, or a list of items. -/
inductive Item where
  | bytes (content : Bytes)
  | list (items : List Item)

/-- The header of a payload of `size` bytes; `base` is the first byte of an empty payload. -/
def header (base size : Nat) : Bytes :=
  if size < 56 then [UInt8.ofNat (base + size)]
  else
    let length := Bytes.ofNat size
    UInt8.ofNat (base + 55 + length.length) :: length

/-- The written form of a byte string. -/
def encodeBytes (content : Bytes) : Bytes :=
  match content with
  | [b] => if b < 0x80 then [b] else header 0x80 1 ++ [b]
  | _ => header 0x80 content.length ++ content

mutual

/-- The written form of an item. -/
def Item.encode : Item → Bytes
  | .bytes content => encodeBytes content
  | .list items => header 0xc0 (encodeAll items).length ++ encodeAll items

/-- The written forms of several items, one after the other. -/
def encodeAll : List Item → Bytes
  | [] => []
  | item :: rest => item.encode ++ encodeAll rest

end

/-- A natural number as an item: its shortest big-endian spelling, empty for zero. -/
def Item.ofNat (n : Nat) : Item :=
  .bytes (Bytes.ofNat n)

end Custody.Rlp
