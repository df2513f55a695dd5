import Custody.Bytes

/-!
# Hex text

Bytes are written as pairs of hex digits. `Hex.encode` writes them in lower case with nothing
between the pairs. `Hex.decode?` reads more than that: digits of either case, and blanks (space,
tab, line feed, vertical tab, form feed, carriage return) before, between and after the pairs,
though never inside one. What is written reads back as the same bytes (`decode?_encode`).

`HexText.ofText?` is the form in which settings keep hex text: one leading `0x` or `0X` is
dropped, the rest must be readable, and the result is `0x` and that rest in lower case, its
blanks kept. Lower case denotes the same bytes (`decode?_map_toLower`), so the form is readable
again.
-/

namespace Custody.Hex

/-- The value of a hex digit of either case. -/
def digit? (c : Char) : Option Nat :=
  if '0' ≤ c ∧ c ≤ '9' then some (c.toNat - '0'.toNat)
  else if 'a' ≤ c ∧ c ≤ 'f' then some (c.toNat - 'a'.toNat + 10)
  else if 'A' ≤ c ∧ c ≤ 'F' then some (c.toNat - 'A'.toNat + 10)
  else none

/-- A character that may stand between pairs of digits. -/
def isBlank (c : Char) : Bool :=
  c = ' ' || ('\t' ≤ c && c ≤ '\r')

/-- The lower-case digit of a value below 16. -/
def digit (n : Nat) : Char :=
  if n < 10 then Char.ofNat ('0'.toNat + n) else Char.ofNat ('a'.toNat + (n - 10))

/-- The two digits of a byte. -/
def pair (b : UInt8) : List Char :=
  [digit (b.toNat / 16), digit (b.toNat % 16)]

/-- Bytes as lower-case hex digits. -/
def encode (bs : Bytes) : List Char :=
  bs.flatMap pair

/-- The bytes that hex text denotes, if it is pairs of digits with blanks around them. -/
def decode? : List Char → Option Bytes
  | [] => some []
  | [c] => if isBlank c then some [] else none
  | c :: d :: rest =>
    if isBlank c then decode? (d :: rest)
    else
      match digit? c, digit? d with
      | some high, some low => (decode? rest).map (UInt8.ofNat (16 * high + low) :: ·)
      | _, _ => none

/-- The number of a letter's lower case. -/
theorem toNat_toLower (c : Char) :
    c.toLower.toNat = if 65 ≤ c.toNat ∧ c.toNat ≤ 90 then c.toNat + 32 else c.toNat := by
  unfold Char.toLower
  split
  · next h =>
    have low : 65 ≤ c.toNat := h.1
    have high : c.toNat ≤ 90 := h.2
    rw [if_pos ⟨low, high⟩]
    change (c.val + 32).toNat = c.val.toNat + 32
    have same : c.val.toNat = c.toNat := rfl
    rw [UInt32.toNat_add]
    simp only [UInt32.reduceToNat]
    omega
  · next h => rw [if_neg fun range => h ⟨range.1, range.2⟩]

/-- A digit has the value of its lower case. -/
theorem digit?_toLower (c : Char) : digit? c.toLower = digit? c := by
  have le_iff : ∀ a b : Char, a ≤ b ↔ a.toNat ≤ b.toNat := fun _ _ => Iff.rfl
  have : 'A'.toNat = 65 ∧ 'F'.toNat = 70 ∧ 'a'.toNat = 97 := ⟨rfl, rfl, rfl⟩
  have : 'f'.toNat = 102 ∧ '0'.toNat = 48 ∧ '9'.toNat = 57 := ⟨rfl, rfl, rfl⟩
  simp only [digit?, le_iff, toNat_toLower]
  grind

/-- Blanks have no case. -/
theorem isBlank_toLower (c : Char) : isBlank c.toLower = isBlank c := by
  have le_iff : ∀ a b : Char, a ≤ b ↔ a.toNat ≤ b.toNat := fun _ _ => Iff.rfl
  have eq_iff : ∀ d : Char, d = ' ' ↔ d.toNat = 32 := fun _ => Char.toNat_inj.symm
  have : '\t'.toNat = 9 ∧ '\r'.toNat = 13 := ⟨rfl, rfl⟩
  simp only [isBlank, eq_iff, le_iff, toNat_toLower]
  grind

/-- Lower case denotes the same bytes. -/
theorem decode?_map_toLower (text : List Char) :
    decode? (text.map Char.toLower) = decode? text := by
  fun_induction decode? text <;> simp_all [decode?, digit?_toLower, isBlank_toLower]

/-- The digit of a value below 16 has that value. -/
theorem digit?_digit {n : Nat} (h : n < 16) : digit? (digit n) = some n := by
  have all : ∀ n, n < 16 → digit? (digit n) = some n := by decide
  exact all n h

/-- A digit is no blank. -/
theorem isBlank_digit {n : Nat} (h : n < 16) : isBlank (digit n) = false := by
  have all : ∀ n, n < 16 → isBlank (digit n) = false := by decide
  exact all n h

/-- Bytes written as digits read back. -/
theorem decode?_encode (bs : Bytes) : decode? (encode bs) = some bs := by
  induction bs with
  | nil => rfl
  | cons b rest ih =>
    have high : b.toNat / 16 < 16 := by have := b.toNat_lt; omega
    have low : b.toNat % 16 < 16 := Nat.mod_lt _ (by decide)
    change decode? (digit (b.toNat / 16) :: digit (b.toNat % 16) :: encode rest) = _
    rw [decode?, if_neg (by simp [isBlank_digit high]), digit?_digit high, digit?_digit low, ih]
    simp [Nat.div_add_mod]

/-- The text without one leading marker, `0x` or `0X`. -/
def stripMarker : List Char → List Char
  | '0' :: 'x' :: rest => rest
  | '0' :: 'X' :: rest => rest
  | text => text

/-- Bytes as marked hex text, the way messages and answers show them. -/
def display (bs : Bytes) : String :=
  String.ofList ('0' :: 'x' :: encode bs)

end Custody.Hex

namespace Custody

/-- Hex text in normal form. -/
structure HexText where
  /-- What follows the marker: pairs of lower-case digits, and blanks. -/
  digits : List Char
  /-- The text can be read. -/
  readable : (Hex.decode? digits).isSome = true
deriving DecidableEq

namespace HexText

/-- The normal form of a text, if it is hex text with or without a marker. -/
def ofText? (text : String) : Option HexText :=
  let digits := Hex.stripMarker text.toList
  if h : (Hex.decode? digits).isSome = true then
    some ⟨digits.map Char.toLower, by rw [Hex.decode?_map_toLower]; exact h⟩
  else none

/-- The text with its marker. -/
def text (t : HexText) : String :=
  String.ofList ('0' :: 'x' :: t.digits)

/-- The bytes that the text denotes. -/
def bytes (t : HexText) : Bytes :=
  (Hex.decode? t.digits).get t.readable

end HexText

end Custody
