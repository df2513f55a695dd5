import Custody.Proofs.Settings.Checking
import Custody.Proofs.Text.Hex

/-!
# Blanks in hex text

Bringing hex text into normal form leaves its blanks where they are. Everything else about the
normal form is told by the bytes: without its blanks it is these written in lower case
(`Hex.Denotes.unspaced_eq`). So the normal form is the written bytes exactly if the text has no
blanks (`HexText.text_eq_display_iff`), and two texts have one normal form exactly if they spell the
same bytes and have the same blanks at the same places (`HexText.eq_iff_layout`).
-/

namespace Custody

namespace Hex

/-- Text without its blanks. -/
def unspaced (text : List Char) : List Char :=
  text.filter fun c => !isBlank c

/-- The blanks of a text, each at its place. -/
def layout (text : List Char) : List (Option Char) :=
  text.map fun c => if isBlank c then some c else none

/-- Two texts have the same blanks at the same places, not counting a marker. -/
def SameBlanks (text text' : List Char) : Prop :=
  layout (stripMarker text) = layout (stripMarker text')

/-! ## Letters and blanks in lower case -/

/-- The number of the digit of a value. -/
theorem toNat_digit {n : Nat} (h : n < 16) :
    (digit n).toNat = if n < 10 then 48 + n else 87 + n := by
  have all : ∀ n, n < 16 → (digit n).toNat = if n < 10 then 48 + n else 87 + n := by decide
  exact all n h

/-- The numbers of the hex digits, with their values. -/
theorem ranges_of_digit? {c : Char} {n : Nat} (value : digit? c = some n) :
    48 ≤ c.toNat ∧ c.toNat ≤ 57 ∧ n + 48 = c.toNat ∨
      97 ≤ c.toNat ∧ c.toNat ≤ 102 ∧ n + 87 = c.toNat ∨
      65 ≤ c.toNat ∧ c.toNat ≤ 70 ∧ n + 55 = c.toNat := by
  have le_iff : ∀ a b : Char, a ≤ b ↔ a.toNat ≤ b.toNat := fun _ _ => Iff.rfl
  have : 'A'.toNat = 65 ∧ 'F'.toNat = 70 ∧ 'a'.toNat = 97 := ⟨rfl, rfl, rfl⟩
  have : 'f'.toNat = 102 ∧ '0'.toNat = 48 ∧ '9'.toNat = 57 := ⟨rfl, rfl, rfl⟩
  simp only [digit?, le_iff] at value
  grind

/-- The numbers of the blanks. -/
theorem ranges_of_isBlank {c : Char} (blank : isBlank c = true) :
    c.toNat = 32 ∨ 9 ≤ c.toNat ∧ c.toNat ≤ 13 := by
  have le_iff : ∀ a b : Char, a ≤ b ↔ a.toNat ≤ b.toNat := fun _ _ => Iff.rfl
  have eq_iff : ∀ d : Char, d = ' ' ↔ d.toNat = 32 := fun _ => Char.toNat_inj.symm
  have : '\t'.toNat = 9 ∧ '\r'.toNat = 13 := ⟨rfl, rfl⟩
  simp only [isBlank, eq_iff, le_iff] at blank
  grind

/-- A hex digit has a value below 16. -/
theorem lt_of_digit? {c : Char} {n : Nat} (value : digit? c = some n) : n < 16 := by
  have ranges := ranges_of_digit? value
  omega

/-- In lower case a hex digit is the one that its value is written as. -/
theorem toLower_of_digit? {c : Char} {n : Nat} (value : digit? c = some n) :
    c.toLower = digit n := by
  have ranges := ranges_of_digit? value
  rw [← Char.toNat_inj, toNat_toLower, toNat_digit (lt_of_digit? value)]
  split_ifs <;> omega

/-- A blank is its own lower case. -/
theorem toLower_of_isBlank {c : Char} (blank : isBlank c = true) : c.toLower = c := by
  have ranges := ranges_of_isBlank blank
  rw [← Char.toNat_inj, toNat_toLower, if_neg (by omega)]

/-- Lower case has the same blanks. -/
theorem layout_map_toLower (text : List Char) : layout (text.map Char.toLower) = layout text := by
  unfold layout
  rw [List.map_map]
  refine List.map_congr_left fun c _ => ?_
  show (if isBlank c.toLower then some c.toLower else none) = _
  rw [isBlank_toLower]
  by_cases blank : isBlank c = true
  · rw [if_pos blank, if_pos blank, toLower_of_isBlank blank]
  · rw [if_neg blank, if_neg blank]

/-! ## What is left without blanks -/

/-- A blank does not stay. -/
theorem unspaced_cons_of_isBlank {c : Char} (blank : isBlank c = true) (text : List Char) :
    unspaced (c :: text) = unspaced text :=
  List.filter_cons_of_neg (by simp [blank])

/-- Another character stays. -/
theorem unspaced_cons_of_not_isBlank {c : Char} (other : isBlank c = false) (text : List Char) :
    unspaced (c :: text) = c :: unspaced text :=
  List.filter_cons_of_pos (by simp [other])

/-- The pair of digits of a byte that is put together from their values. -/
theorem pair_ofNat {high low : Nat} (hhigh : high < 16) (hlow : low < 16) :
    pair (UInt8.ofNat (16 * high + low)) = [digit high, digit low] := by
  have value : (UInt8.ofNat (16 * high + low)).toNat = 16 * high + low :=
    UInt8.toNat_ofNat_of_lt' (by show _ < 256; omega)
  have first : (16 * high + low) / 16 = high := by omega
  have second : (16 * high + low) % 16 = low := by omega
  unfold pair
  rw [value, first, second]

/-- Without its blanks and in lower case, text that denotes bytes is these as they are written. -/
theorem Denotes.unspaced_eq {text : List Char} {bytes : Bytes} (denotes : Denotes text bytes) :
    unspaced (text.map Char.toLower) = encode bytes := by
  induction denotes with
  | nil => rfl
  | @blank c text bytes blank _ ih =>
    have lower : isBlank c.toLower = true := (isBlank_toLower c).trans blank
    rw [List.map_cons, unspaced_cons_of_isBlank lower, ih]
  | @pair c d high low text bytes first second _ ih =>
    have hhigh := lt_of_digit? first
    have hlow := lt_of_digit? second
    rw [List.map_cons, List.map_cons, toLower_of_digit? first, toLower_of_digit? second,
      unspaced_cons_of_not_isBlank (isBlank_digit hhigh),
      unspaced_cons_of_not_isBlank (isBlank_digit hlow), ih]
    show _ = Hex.pair _ ++ encode bytes
    rw [pair_ofNat hhigh hlow]
    rfl

/-- Written bytes have no blanks. -/
theorem not_isBlank_of_mem_encode {bytes : Bytes} {c : Char} (mem : c ∈ encode bytes) :
    isBlank c = false := by
  obtain ⟨b, -, mem⟩ := List.mem_flatMap.1 mem
  have high : b.toNat / 16 < 16 := by have := b.toNat_lt; omega
  have low : b.toNat % 16 < 16 := Nat.mod_lt _ (by decide)
  obtain rfl | mem := List.mem_cons.1 mem
  · exact isBlank_digit high
  · obtain rfl := List.mem_singleton.1 mem
    exact isBlank_digit low

/-- A text is told by its blanks and by what is left without them. -/
theorem eq_of_layout {text text' : List Char} (left : unspaced text = unspaced text')
    (blanks : layout text = layout text') : text = text' := by
  induction text generalizing text' with
  | nil => exact (List.map_eq_nil_iff.1 blanks.symm).symm
  | cons c text ih =>
    obtain ⟨d, text', rfl⟩ : ∃ d rest, text' = d :: rest :=
      List.exists_cons_of_ne_nil (by rintro rfl; cases blanks)
    unfold layout at blanks
    rw [List.map_cons, List.map_cons, List.cons.injEq] at blanks
    obtain ⟨same, blanks⟩ := blanks
    -- Either both start with one blank, or both with a character that stays.
    cases blank : isBlank c with
    | true =>
      cases blank' : isBlank d with
      | true =>
        obtain rfl : c = d := by simpa [blank, blank'] using same
        rw [unspaced_cons_of_isBlank blank, unspaced_cons_of_isBlank blank] at left
        rw [ih left blanks]
      | false => simp [blank, blank'] at same
    | false =>
      cases blank' : isBlank d with
      | true => simp [blank, blank'] at same
      | false =>
        rw [unspaced_cons_of_not_isBlank blank, unspaced_cons_of_not_isBlank blank',
          List.cons.injEq] at left
        rw [left.1, ih left.2 blanks]

/-- A marker is no blank. -/
theorem forall_stripMarker_iff {text : List Char} :
    (∀ c ∈ stripMarker text, isBlank c = false) ↔ ∀ c ∈ text, isBlank c = false := by
  have marker : isBlank '0' = false ∧ isBlank 'x' = false ∧ isBlank 'X' = false := by decide
  fun_cases stripMarker text with
  | case1 rest => simp [marker]
  | case2 rest => simp [marker]
  | case3 => rfl

end Hex

namespace HexText

/-- The hex text of bytes, without blanks. -/
def ofBytes (bytes : Bytes) : HexText :=
  ⟨Hex.encode bytes, by rw [Hex.decode?_encode]; rfl⟩

/-- Hex text without its blanks. -/
def bare (t : HexText) : HexText :=
  ofBytes t.bytes

/-- The normal form is what stands behind the marker, in lower case. -/
theorem digits_of_ofText? {text : String} {t : HexText} (read : ofText? text = some t) :
    t.digits = (Hex.stripMarker text.toList).map Char.toLower := by
  rw [ofText?] at read
  split at read
  · obtain rfl := Option.some.inj read
    rfl
  · cases read

/-- A text that spells bytes has a normal form, which denotes them. -/
theorem exists_ofText?_of_spells {text : String} {bytes : Bytes}
    (spells : Hex.Spells text.toList bytes) : ∃ t, ofText? text = some t ∧ t.bytes = bytes := by
  have readable : (Hex.decode? (Hex.stripMarker text.toList)).isSome = true := by
    rw [Hex.spells_iff.1 spells]
    rfl
  have read : ofText? text = some _ := dif_pos readable
  exact ⟨_, read, (spells_of_ofText? read).unique spells⟩

/-- Hex texts denote the same bytes exactly if they are the same without their blanks. -/
theorem bare_eq_bare_iff {t t' : HexText} : t.bare = t'.bare ↔ t.bytes = t'.bytes := by
  constructor
  · intro same
    have digits : Hex.encode t.bytes = Hex.encode t'.bytes := congrArg HexText.digits same
    have read := Hex.decode?_encode t.bytes
    rw [digits, Hex.decode?_encode] at read
    exact (Option.some.inj read).symm
  · exact congrArg ofBytes

section Normal

variable {t t' : HexText} (normal : t.IsNormal) (normal' : t'.IsNormal)
include normal

/-- Without its blanks, the normal form is the written bytes. -/
theorem unspaced_digits : Hex.unspaced t.digits = Hex.encode t.bytes := by
  have written := t.denotes_bytes.unspaced_eq
  rwa [show t.digits.map Char.toLower = t.digits from normal] at written

/-- The normal form is the written bytes exactly if it has no blanks. -/
theorem digits_eq_encode_iff :
    t.digits = Hex.encode t.bytes ↔ ∀ c ∈ t.digits, Hex.isBlank c = false := by
  constructor
  · intro eq c mem
    rw [eq] at mem
    exact Hex.not_isBlank_of_mem_encode mem
  · intro none
    rw [← unspaced_digits normal, Hex.unspaced, List.filter_eq_self.2]
    intro c mem
    rw [none c mem]
    rfl

include normal'

/-- Hex text in normal form is told by its bytes and its blanks. -/
theorem eq_iff_layout :
    t = t' ↔ t.bytes = t'.bytes ∧ Hex.layout t.digits = Hex.layout t'.digits := by
  constructor
  · rintro rfl
    exact ⟨rfl, rfl⟩
  · rintro ⟨bytes, blanks⟩
    have left : Hex.unspaced t.digits = Hex.unspaced t'.digits := by
      rw [unspaced_digits normal, unspaced_digits normal', bytes]
    have digits := Hex.eq_of_layout left blanks
    obtain ⟨_, _⟩ := t
    obtain ⟨_, _⟩ := t'
    exact (mk.injEq ..).mpr digits

end Normal

variable {text text' : String} {t t' : HexText}

/-- The normal form of a text is the written bytes exactly if the text has no blanks. -/
theorem text_eq_display_iff (read : ofText? text = some t) :
    t.text = Hex.display t.bytes ↔ ∀ c ∈ text.toList, Hex.isBlank c = false := by
  have digits : t.text = Hex.display t.bytes ↔ t.digits = Hex.encode t.bytes := by
    unfold HexText.text Hex.display
    rw [String.ofList_inj]
    simp
  rw [digits, digits_eq_encode_iff (isNormal_of_ofText? read), digits_of_ofText? read,
    List.forall_mem_map, ← Hex.forall_stripMarker_iff]
  simp only [Hex.isBlank_toLower]

/-- Two texts have one normal form exactly if they spell the same bytes with the same blanks. -/
theorem eq_iff_sameBlanks (read : ofText? text = some t) (read' : ofText? text' = some t') :
    t = t' ↔ t.bytes = t'.bytes ∧ Hex.SameBlanks text.toList text'.toList := by
  rw [eq_iff_layout (isNormal_of_ofText? read) (isNormal_of_ofText? read'), digits_of_ofText? read,
    digits_of_ofText? read', Hex.layout_map_toLower, Hex.layout_map_toLower, Hex.SameBlanks]

end HexText

end Custody
