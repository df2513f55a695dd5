import Custody.Text.Basic
import Custody.Text.Hex

/-!
# What hex text denotes

`Hex.Denotes` says without the reader which bytes hex text stands for: a byte for each pair of
digits, whatever blanks stand around the pairs. It is what the reader finds
(`decode?_eq_some_iff_denotes`). `Hex.Spells` allows a marker in front, of which texts never have to
be asked whether it is meant as one, since no hex text starts like it (`spells_iff`). The normal
form of a text denotes the bytes that the text spells (`HexText.spells_of_ofText?`).
-/

namespace Custody

namespace Hex

/-- Hex text denotes bytes: pairs of digits, with blanks before, between and after them. -/
inductive Denotes : List Char → Bytes → Prop
  /-- No text is no bytes. -/
  | nil : Denotes [] []
  /-- A blank counts for nothing. -/
  | blank {c : Char} {text : List Char} {bytes : Bytes} :
      isBlank c = true → Denotes text bytes → Denotes (c :: text) bytes
  /-- Two digits are a byte. -/
  | pair {c d : Char} {high low : Nat} {text : List Char} {bytes : Bytes} :
      digit? c = some high → digit? d = some low → Denotes text bytes →
        Denotes (c :: d :: text) (UInt8.ofNat (16 * high + low) :: bytes)

/-- No character is both a blank and a digit. -/
theorem isBlank_eq_false_of_digit? {c : Char} {n : Nat} (digit : digit? c = some n) :
    isBlank c = false := by
  have le_iff : ∀ a b : Char, a ≤ b ↔ a.toNat ≤ b.toNat := fun _ _ => Iff.rfl
  have eq_iff : ∀ d : Char, d = ' ' ↔ d.toNat = 32 := fun _ => Char.toNat_inj.symm
  have : 'A'.toNat = 65 ∧ 'a'.toNat = 97 ∧ '0'.toNat = 48 := ⟨rfl, rfl, rfl⟩
  have : '\t'.toNat = 9 ∧ '\r'.toNat = 13 := ⟨rfl, rfl⟩
  simp only [digit?, le_iff] at digit
  simp only [isBlank, eq_iff, le_iff]
  grind

/-- A blank in front does not change what is read. -/
theorem decode?_cons_of_isBlank {c : Char} (blank : isBlank c = true) (text : List Char) :
    decode? (c :: text) = decode? text := by
  cases text with
  | nil => simp [decode?, blank]
  | cons d rest => rw [decode?, if_pos blank]

/-- What is read of a text is what the text denotes. -/
theorem decode?_eq_some_iff_denotes {text : List Char} {bytes : Bytes} :
    decode? text = some bytes ↔ Denotes text bytes := by
  constructor
  · intro read
    fun_induction decode? text generalizing bytes with
    | case1 =>
      obtain rfl := Option.some.inj read
      exact .nil
    | case2 c blank =>
      obtain rfl := Option.some.inj read
      exact .blank blank .nil
    | case3 => cases read
    | case4 c d rest blank ih => exact .blank blank (ih read)
    | case5 c d rest blank high low second first ih =>
      obtain ⟨after, found, rfl⟩ := Option.map_eq_some_iff.1 read
      exact .pair first second (ih found)
    | case6 => cases read
  · intro denotes
    induction denotes with
    | nil => rfl
    | blank blank _ ih => rw [decode?_cons_of_isBlank blank, ih]
    | pair first second _ ih =>
      rw [decode?, isBlank_eq_false_of_digit? first, if_neg Bool.false_ne_true, first, second, ih]
      rfl

/-- A text spells bytes: it is hex text that denotes them, or that behind a marker. -/
inductive Spells : List Char → Bytes → Prop
  | bare {text : List Char} {bytes : Bytes} : Denotes text bytes → Spells text bytes
  | marked {x : Char} {text : List Char} {bytes : Bytes} :
      x = 'x' ∨ x = 'X' → Denotes text bytes → Spells ('0' :: x :: text) bytes

/-- A text with a marker spells what stands behind the marker: the marker is no pair of digits. -/
theorem spells_marked_iff {x : Char} {text : List Char} {bytes : Bytes}
    (marker : x = 'x' ∨ x = 'X') : Spells ('0' :: x :: text) bytes ↔ Denotes text bytes := by
  have no_digit : digit? x = none := by
    rcases marker with rfl | rfl <;> rfl
  constructor
  · intro spells
    cases spells with
    | marked _ denotes => exact denotes
    | bare denotes =>
      cases denotes with
      | blank blank => exact absurd blank (by decide)
      | pair _ second => simp [no_digit] at second
  · exact .marked marker

/-- What a text spells is what is read of it without its marker. -/
theorem spells_iff {text : List Char} {bytes : Bytes} :
    Spells text bytes ↔ decode? (stripMarker text) = some bytes := by
  rw [decode?_eq_some_iff_denotes]
  fun_cases stripMarker text with
  | case1 rest => exact spells_marked_iff (.inl rfl)
  | case2 rest => exact spells_marked_iff (.inr rfl)
  | case3 text lower upper =>
    constructor
    · intro spells
      cases spells with
      | bare denotes => exact denotes
      | marked marker =>
        obtain rfl | rfl := marker
        · exact absurd rfl (lower _)
        · exact absurd rfl (upper _)
    · exact .bare

/-- A text spells one byte string at most. -/
theorem Spells.unique {text : List Char} {bytes bytes' : Bytes} (spells : Spells text bytes)
    (spells' : Spells text bytes') : bytes = bytes' :=
  Option.some.inj ((spells_iff.1 spells).symm.trans (spells_iff.1 spells'))

/-- A dollar sign denotes nothing. -/
theorem Denotes.dollar_not_mem {text : List Char} {bytes : Bytes} (denotes : Denotes text bytes) :
    '$' ∉ text := by
  have blank_ne {c : Char} (blank : isBlank c = true) : '$' ≠ c := by
    rintro rfl
    exact absurd blank (by decide)
  have digit_ne {c : Char} {n : Nat} (digit : digit? c = some n) : '$' ≠ c := by
    rintro rfl
    exact absurd digit (by simp [digit?])
  induction denotes with
  | nil => exact List.not_mem_nil
  | blank blank _ ih => exact List.not_mem_cons_of_ne_of_not_mem (blank_ne blank) ih
  | pair first second _ ih =>
    exact List.not_mem_cons_of_ne_of_not_mem (digit_ne first)
      (List.not_mem_cons_of_ne_of_not_mem (digit_ne second) ih)

/-- A text that spells bytes has no dollar sign. -/
theorem Spells.dollar_not_mem {text : List Char} {bytes : Bytes} (spells : Spells text bytes) :
    '$' ∉ text := by
  cases spells with
  | bare denotes => exact denotes.dollar_not_mem
  | marked marker denotes =>
    have other := denotes.dollar_not_mem
    rcases marker with rfl | rfl <;> simp [other]

end Hex

namespace HexText

/-- The digits of hex text denote its bytes. -/
theorem denotes_bytes (t : HexText) : Hex.Denotes t.digits t.bytes :=
  Hex.decode?_eq_some_iff_denotes.1 (Option.some_get t.readable).symm

/-- The normal form of a text denotes the bytes that the text spells. -/
theorem spells_of_ofText? {text : String} {t : HexText} (read : ofText? text = some t) :
    Hex.Spells text.toList t.bytes := by
  rw [ofText?] at read
  split at read
  case isFalse => cases read
  case isTrue readable =>
    obtain rfl := Option.some.inj read
    rw [Hex.spells_iff, bytes]
    -- Lower case denotes the same bytes.
    simp only [Hex.decode?_map_toLower, Option.some_get]

/-- Hex text with its marker has no dollar sign. -/
theorem dollar_not_mem_text (t : HexText) : .char '$' ∉ (Text.ofString t.text).points := by
  have digits := t.denotes_bytes.dollar_not_mem
  simp [Text.ofString, Text.ofChars, text, digits]

end HexText

end Custody
