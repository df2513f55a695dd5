import Custody.Text.Basic
import Custody.Text.Utf8

/-!
# Texts that the system holds

Names and values that the system holds are bytes. Most are text in UTF-8, but they need not be: as a
text, a byte that is not part of a character there is a surrogate, from `0xdc80` to `0xdcff`
(`SystemText.decode`). Handed back to the system, such a surrogate is its byte again, so that what
the system holds is never changed on the way (`encode?_decode`). No other surrogate stands for
bytes, and a text with one cannot be handed over.
-/

namespace Custody

/-- The bytes that a code point is for the system. -/
def CodePoint.systemBytes? : CodePoint → Option Bytes
  | .char c => some (String.utf8EncodeChar c)
  | .surrogate offset =>
    if 0x480 ≤ offset.val ∧ offset.val < 0x500 then some [UInt8.ofNat (offset.val - 0x400)]
    else none

namespace SystemText

/-- The bytes that a text is for the system, if it can be handed over. -/
def encode? (t : Text) : Option Bytes :=
  (t.points.mapM CodePoint.systemBytes?).map List.flatten

/-- The surrogate that a byte becomes which is not part of a character. -/
def escaped (b : UInt8) : CodePoint :=
  .surrogate ⟨0x400 + b.toNat, by have := b.toNat_lt; omega⟩

/-- The character that bytes start with. -/
def firstChar? (bs : Bytes) : Option Char :=
  bs.toByteArray.utf8DecodeChar? 0

/-- The code points of the text that bytes of the system are. -/
def decodePoints : Bytes → List CodePoint
  | [] => []
  | b :: rest =>
    match firstChar? (b :: rest) with
    | some c => .char c :: decodePoints (rest.drop (c.utf8Size - 1))
    | none => escaped b :: decodePoints rest
termination_by bs => bs.length

/-- The text that bytes of the system are. -/
def decode (bs : Bytes) : Text :=
  ⟨decodePoints bs⟩

/-! ## Characters -/

/-- A character is written in as many bytes as its size tells. -/
theorem utf8EncodeChar_eq_cons (c : Char) :
    ∃ b rest, String.utf8EncodeChar c = b :: rest ∧ rest.length = c.utf8Size - 1 := by
  obtain ⟨b, rest, eq⟩ := List.exists_cons_of_ne_nil (String.utf8EncodeChar_ne_nil (c := c))
  have length := String.length_utf8EncodeChar c
  rw [eq, List.length_cons] at length
  exact ⟨b, rest, eq, by omega⟩

/-- A character in UTF-8 is read first. -/
theorem firstChar?_append (c : Char) (after : Bytes) :
    firstChar? (String.utf8EncodeChar c ++ after) = some c := by
  rw [firstChar?, List.toByteArray_append]
  exact ByteArray.utf8DecodeChar?_utf8EncodeChar_append

/-- Bytes start with the character that is read first, in UTF-8. -/
theorem eq_append_of_firstChar? {bs : Bytes} {c : Char} (read : firstChar? bs = some c) :
    ∃ after, bs = String.utf8EncodeChar c ++ after := by
  obtain ⟨⟨⟨after⟩⟩, eq⟩ := ByteArray.exists_of_utf8DecodeChar?_eq_some read
  have lists := congrArg (·.data.toList) eq
  refine ⟨after, ?_⟩
  simpa using lists

/-- A byte that starts no character is none of ASCII. -/
theorem le_of_firstChar?_eq_none {b : UInt8} {rest : Bytes}
    (unread : firstChar? (b :: rest) = none) : 0x80 ≤ b.toNat := by
  refine Nat.le_of_not_lt fun small => ?_
  have value : (Char.ofNat b.toNat).toNat = b.toNat := by
    have valid : b.toNat.isValidChar := .inl (by omega)
    rw [Char.ofNat, dif_pos valid]
    rfl
  have ascii : String.utf8EncodeChar (Char.ofNat b.toNat) = [b] := by
    have low : (Char.ofNat b.toNat).val.toNat ≤ 127 := by
      show (Char.ofNat b.toNat).toNat ≤ 127
      omega
    rw [String.utf8EncodeChar, if_pos low]
    show [UInt8.ofNat (Char.ofNat b.toNat).toNat] = [b]
    rw [value, UInt8.ofNat_toNat]
  have read := firstChar?_append (Char.ofNat b.toNat) rest
  rw [ascii, List.singleton_append, unread] at read
  cases read

/-- A character's bytes are decoded as the character. -/
theorem decodePoints_append (c : Char) (after : Bytes) :
    decodePoints (String.utf8EncodeChar c ++ after) = .char c :: decodePoints after := by
  have read := firstChar?_append c after
  obtain ⟨b, rest, eq, length⟩ := utf8EncodeChar_eq_cons c
  rw [eq, List.cons_append] at read ⊢
  rw [decodePoints, read]
  simp only [← length, List.drop_left]

/-! ## There and back -/

/-- A string in UTF-8 is its characters, one after the other. -/
theorem encode_eq_flatMap (s : String) :
    Utf8.encode s = s.toList.flatMap String.utf8EncodeChar := by
  have bytes : s.toByteArray = s.toList.utf8Encode := by
    rw [← String.toByteArray_ofList, String.ofList_toList]
  show s.toByteArray.data.toList = _
  rw [bytes, List.utf8Encode, List.data_toByteArray]

/-- A code point more is handed over before the others. -/
theorem encode?_cons {p : CodePoint} {points : List CodePoint} {first others : Bytes}
    (one : p.systemBytes? = some first) (rest : encode? ⟨points⟩ = some others) :
    encode? ⟨p :: points⟩ = some (first ++ others) := by
  obtain ⟨parts, read, rfl⟩ := Option.map_eq_some_iff.1 rest
  simp [encode?, List.mapM_cons, one, read]

/-- A string is handed over in UTF-8. -/
theorem encode?_ofString (s : String) : encode? (.ofString s) = some (Utf8.encode s) := by
  rw [encode_eq_flatMap, Text.ofString, Text.ofChars]
  induction s.toList with
  | nil => rfl
  | cons c rest ih => exact encode?_cons rfl ih

/-- Text in UTF-8 is the text that it was. -/
theorem decode_encode (s : String) : decode (Utf8.encode s) = .ofString s := by
  rw [encode_eq_flatMap, Text.ofString, Text.ofChars, decode, Text.mk.injEq]
  induction s.toList with
  | nil => rw [List.flatMap_nil, decodePoints, List.map_nil]
  | cons c rest ih => rw [List.flatMap_cons, decodePoints_append, ih, List.map_cons]

/-- A byte that is escaped is handed back. -/
theorem systemBytes?_escaped {b : UInt8} (high : 0x80 ≤ b.toNat) :
    (escaped b).systemBytes? = some [b] := by
  have below := b.toNat_lt
  have range : 0x480 ≤ 0x400 + b.toNat ∧ 0x400 + b.toNat < 0x500 := by omega
  rw [escaped, CodePoint.systemBytes?, if_pos range, Nat.add_sub_cancel_left, UInt8.ofNat_toNat]

/-- Whatever the system holds is handed back as it was. -/
theorem encode?_decode (bs : Bytes) : encode? (decode bs) = some bs := by
  rw [decode]
  fun_induction decodePoints bs with
  | case1 => rfl
  | case2 b rest c read ih =>
    obtain ⟨after, eq⟩ := eq_append_of_firstChar? read
    obtain ⟨d, others, written, length⟩ := utf8EncodeChar_eq_cons c
    have front : b :: rest = d :: (others ++ after) := by rw [eq, written, List.cons_append]
    obtain ⟨rfl, rfl⟩ := List.cons.inj front
    rw [← length, List.drop_left] at ih ⊢
    rw [eq]
    exact encode?_cons rfl ih
  | case3 b rest unread ih =>
    exact encode?_cons (systemBytes?_escaped (le_of_firstChar?_eq_none unread)) ih

end SystemText

end Custody
