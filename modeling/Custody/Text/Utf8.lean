import Custody.Bytes

/-!
# Text as bytes

Text is written in UTF-8. Reading accepts exactly what writing produces: no longer form of a
character, no surrogate and nothing above the last code point (`decode?_eq_some_iff`).
-/

namespace Custody.Utf8

/-- The bytes of a text. -/
def encode (text : String) : Bytes :=
  text.toUTF8.data.toList

/-- The text that bytes are the written form of. -/
def decode? (bs : Bytes) : Option String :=
  String.fromUTF8? ⟨⟨bs⟩⟩

/-- Written text reads back. -/
@[simp] theorem decode?_encode (text : String) : decode? (encode text) = some text := by
  exact dif_pos text.isValidUTF8

/-- Reading accepts exactly what writing produces. -/
theorem decode?_eq_some_iff {bs : Bytes} {text : String} :
    decode? bs = some text ↔ encode text = bs := by
  constructor
  · intro h
    simp only [decode?, String.fromUTF8?, Option.dite_none_right_eq_some] at h
    obtain ⟨_, h⟩ := h
    injection h with h
    rw [← h]
    rfl
  · rintro rfl
    exact decode?_encode text

end Custody.Utf8
