import Custody.Bytes

/-!
# Base-64 text

Four characters of the alphabet spell three bytes; equals signs pad the last four. Reading skips
characters outside the alphabet, and ends at the padding that completes a group.
-/

namespace Custody.Base64

/-- The value of a character of the alphabet. -/
def digit? (c : Char) : Option Nat :=
  if 'A' ≤ c ∧ c ≤ 'Z' then some (c.toNat - 'A'.toNat)
  else if 'a' ≤ c ∧ c ≤ 'z' then some (c.toNat - 'a'.toNat + 26)
  else if '0' ≤ c ∧ c ≤ '9' then some (c.toNat - '0'.toNat + 52)
  else if c = '+' then some 62
  else if c = '/' then some 63
  else none

/-- The bytes of whole groups of four values, and of the two or three values of a padded one. -/
def bytesOfDigits : List Nat → Bytes
  | a :: b :: c :: d :: rest =>
    UInt8.ofNat (4 * a + b / 16) :: UInt8.ofNat (16 * (b % 16) + c / 4) ::
      UInt8.ofNat (64 * (c % 4) + d) :: bytesOfDigits rest
  | [a, b, c] => [UInt8.ofNat (4 * a + b / 16), UInt8.ofNat (16 * (b % 16) + c / 4)]
  | [a, b] => [UInt8.ofNat (4 * a + b / 16)]
  | _ => []

/-- The values of the characters up to the padding that completes a group, or to the end if the
groups are whole; `place` values of the current group and `pads` equals signs after the last value
have been read. -/
def digits? (place pads : Nat) : List Char → Option (List Nat)
  | [] => if place = 0 then some [] else none
  | c :: rest =>
    if c = '=' then
      if 2 ≤ place ∧ 4 ≤ place + pads + 1 then some []
      else digits? place (if 2 ≤ place then pads + 1 else pads) rest
    else
      match digit? c with
      | none => digits? place pads rest
      | some n => (digits? ((place + 1) % 4) 0 rest).map (n :: ·)

/-- The bytes that a text spells. -/
def decode? (text : List Char) : Option Bytes :=
  (digits? 0 0 text).map bytesOfDigits

end Custody.Base64
