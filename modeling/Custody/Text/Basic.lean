/-!
# Texts of code points

The escapes of a document can spell half of a surrogate pair, which is no character. A `Text` is
therefore a sequence of code points, each a character or a surrogate. Where characters are asked
for, a text with a surrogate in it has none (`Text.toString?`); every string is a text, and is had
back from it, and from no other text (`toString?_eq_some_iff`).
-/

namespace Custody

/-- A code point: a character, or a surrogate. -/
inductive CodePoint where
  | char (c : Char)
  /-- The surrogate with the number `0xd800 + offset`. -/
  | surrogate (offset : Fin 0x800)
deriving DecidableEq, Repr

namespace CodePoint

/-- The number of a code point. -/
def toNat : CodePoint → Nat
  | .char c => c.toNat
  | .surrogate offset => 0xd800 + offset.val

/-- The code point of a number, if there is one. -/
def ofNat? (n : Nat) : Option CodePoint :=
  if h : n.isValidChar then some (.char (Char.ofNatAux n h))
  else if h : n - 0xd800 < 0x800 then some (.surrogate ⟨n - 0xd800, h⟩)
  else none

/-- The character that a code point is, if it is one. -/
def char? : CodePoint → Option Char
  | .char c => some c
  | .surrogate _ => none

/-- A code point as a character; the replacement character stands for a surrogate. -/
def shown : CodePoint → Char
  | .char c => c
  | .surrogate _ => '\ufffd'

end CodePoint

/-- A sequence of code points. -/
structure Text where
  /-- The code points. -/
  points : List CodePoint
deriving DecidableEq, Repr

namespace Text

/-- The text of some characters. -/
def ofChars (cs : List Char) : Text :=
  ⟨cs.map .char⟩

/-- The text of a string. -/
def ofString (s : String) : Text :=
  ofChars s.toList

instance : Coe String Text := ⟨ofString⟩

/-- The characters of a text, if it has no surrogates. -/
def chars? (t : Text) : Option (List Char) :=
  t.points.mapM CodePoint.char?

/-- The string that a text is, if it has no surrogates. -/
def toString? (t : Text) : Option String :=
  t.chars?.map String.ofList

/-- A text as a string in which replacement characters stand for its surrogates. -/
def shown (t : Text) : String :=
  String.ofList (t.points.map CodePoint.shown)

/-- Whether a text has no code points. -/
def isEmpty (t : Text) : Bool :=
  t.points.isEmpty

/-- A text made of characters has these characters. -/
@[simp] theorem chars?_ofChars (cs : List Char) : (ofChars cs).chars? = some cs := by
  induction cs with
  | nil => rfl
  | cons c rest ih =>
    simp only [chars?, ofChars, List.map_cons, List.mapM_cons, CodePoint.char?] at ih ⊢
    simp [ih]

/-- A string is had back from its text. -/
@[simp] theorem toString?_ofString (s : String) : (ofString s).toString? = some s := by
  simp [toString?, ofString]

/-- The characters of a text are had from the text of them alone. -/
theorem eq_ofChars_of_chars? {t : Text} {cs : List Char} (h : t.chars? = some cs) :
    t = ofChars cs := by
  obtain ⟨points⟩ := t
  induction points generalizing cs with
  | nil =>
    obtain rfl : [] = cs := by simpa [chars?] using h
    rfl
  | cons point rest ih =>
    cases point with
    | surrogate offset => simp [chars?, CodePoint.char?] at h
    | char c =>
      simp only [chars?, List.mapM_cons, CodePoint.char?, Option.pure_def, Option.bind_eq_bind,
        Option.bind_some, Option.bind_eq_some_iff, Option.some.injEq] at h ih
      obtain ⟨others, read, rfl⟩ := h
      have same : rest = others.map .char := Text.mk.inj (ih read)
      simp [ofChars, same]

/-- A string is had from its own text alone. -/
theorem toString?_eq_some_iff {t : Text} {s : String} : t.toString? = some s ↔ t = ofString s := by
  constructor
  · intro h
    obtain ⟨cs, read, rfl⟩ := Option.map_eq_some_iff.1 h
    rw [ofString, String.toList_ofList, ← eq_ofChars_of_chars? read]
  · rintro rfl
    exact toString?_ofString s

/-- Strings with one text are equal. -/
theorem ofString_injective {s t : String} (h : ofString s = ofString t) : s = t := by
  simpa using congrArg toString? h

end Text

end Custody
