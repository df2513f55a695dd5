import Custody.Proofs.Outcome
import Custody.Proofs.Yaml.Characters
import Custody.Yaml.Atom
import Mathlib.Data.List.TakeWhile

/-!
# Integers

An integer is written as its decimal digits, with a minus sign before those of a negative one. This
is a plain scalar that counts as an integer (`of_toString`), and as the one that was written
(`readInt_toString`).
-/

namespace Custody.Yaml

/-! ## Numerals -/

/-- The decimal digits of ASCII. -/
def asciiDigits : List Char :=
  "0123456789".toList

/-- The decimal digits of a number, the highest first; only zero's own start with a zero. -/
structure IsNumeral (text : List Char) (n : Nat) : Prop where
  /-- There is one. -/
  ne_nil : text ≠ []
  /-- All are digits. -/
  digits : ∀ c ∈ text, c ∈ asciiDigits
  /-- A leading zero is the only digit. -/
  leading : text.head? = some '0' → text = ['0']
  /-- They spell the number. -/
  value : Numeral.ofDigits 10 text = n

/-- The digit of a number below ten. -/
theorem isNumeral_digitChar {n : Nat} (small : n < 10) : IsNumeral [n.digitChar] n := by
  have all : ∀ n < 10, n.digitChar ∈ asciiDigits ∧ Numeral.ofDigits 10 [n.digitChar] = n := by
    decide
  obtain ⟨digit, value⟩ := all n small
  exact ⟨by simp, by simpa using digit, by simp, value⟩

/-- A digit more at the end of a numeral of a number that is not zero. -/
theorem IsNumeral.snoc {text : List Char} {n d : Nat} (numeral : IsNumeral text n) (pos : 0 < n)
    (small : d < 10) : IsNumeral (text ++ [d.digitChar]) (10 * n + d) where
  ne_nil := by simp
  digits c mem := by
    obtain mem | mem := List.mem_append.1 mem
    · exact numeral.digits c mem
    · exact (isNumeral_digitChar small).digits c mem
  leading zero := by
    obtain ⟨c, rest, rfl⟩ := List.exists_cons_of_ne_nil numeral.ne_nil
    have only := numeral.leading zero
    have none_left : n = 0 := by
      rw [← numeral.value, only]
      rfl
    omega
  value := by
    have last : ∀ d < 10, (Numeral.digit? 10 d.digitChar).getD 0 = d := by decide
    simp only [Numeral.ofDigits, List.foldl_append, List.foldl_cons, List.foldl_nil,
      last d small]
    rw [← numeral.value, Numeral.ofDigits]

/-- A number is written as a numeral of it. -/
theorem isNumeral_toDigits (n : Nat) : IsNumeral (Nat.toDigits 10 n) n := by
  induction n using Nat.strongRecOn with
  | ind n ih =>
    by_cases small : n < 10
    · rw [Nat.toDigits_of_lt_base small]
      exact isNumeral_digitChar small
    · rw [Nat.toDigits_of_base_le (by decide) (Nat.le_of_not_lt small)]
      have := (ih (n / 10) (by omega)).snoc (by omega) (Nat.mod_lt n (by decide : 0 < 10))
      rwa [Nat.div_add_mod] at this

/-- An integer is written as the digits of its magnitude, after the minus sign if it is negative. -/
theorem toList_toString (n : Int) :
    (toString n).toList = Nat.toDigits 10 n.natAbs ∧ 0 ≤ n ∨
      (toString n).toList = '-' :: Nat.toDigits 10 n.natAbs ∧ n < 0 := by
  cases n with
  | ofNat n =>
    refine .inl ⟨?_, Int.natCast_nonneg n⟩
    rw [Int.toString_eq_repr]
    exact Nat.toList_repr
  | negSucc n =>
    refine .inr ⟨?_, Int.negSucc_lt_zero n⟩
    rw [Int.toString_eq_repr, Int.repr, String.toList_append, Nat.toList_repr]
    rfl

/-- An integer is written as the numeral of its magnitude, after the minus sign if it is
negative. -/
theorem toString_cases (n : Int) :
    ∃ digits, IsNumeral digits n.natAbs ∧
      ((toString n).toList = digits ∧ 0 ≤ n ∨ (toString n).toList = '-' :: digits ∧ n < 0) :=
  ⟨_, isNumeral_toDigits n.natAbs, toList_toString n⟩

/-- An integer is written with digits and a minus sign. -/
theorem chars_of_isNumeral {text digits : List Char} {n : Nat} (numeral : IsNumeral digits n)
    (eq : text = digits ∨ text = '-' :: digits) : ∀ c ∈ text, c ∈ '-' :: asciiDigits := by
  obtain rfl | rfl := eq
  · exact fun c mem => List.mem_cons_of_mem _ (numeral.digits c mem)
  · intro c mem
    obtain rfl | mem := List.mem_cons.1 mem
    · exact List.mem_cons_self ..
    · exact List.mem_cons_of_mem _ (numeral.digits c mem)

/-! ## As plain scalars -/

/-- A digit is no mark, and none of the letters and signs of other scalars. -/
theorem ascii_digit {c : Char} (digit : c ∈ asciiDigits) :
    c.isDigit = true ∧ c ∉ "+-_.:bx~<=&*!\n".toList := by
  have all : ∀ c ∈ asciiDigits, c.isDigit = true ∧ c ∉ "+-_.:bx~<=&*!\n".toList :=
    forall_of_all (by decide)
  exact all c digit

/-- The sign of an integer is dropped. -/
theorem dropSign_toString {n : Int} {digits : List Char} (numeral : IsNumeral digits n.natAbs)
    {text : List Char} (eq : text = digits ∨ text = '-' :: digits) :
    Numeral.dropSign text = digits := by
  obtain rfl | rfl := eq
  · obtain ⟨c, rest, rfl⟩ := List.exists_cons_of_ne_nil numeral.ne_nil
    have mark := (ascii_digit (numeral.digits c (by simp))).2
    simp at mark
    simp [Numeral.dropSign, mark]
  · rfl

/-- A text without a mark is not split at it. -/
theorem splitAt_of_not_mem {α : Type} [BEq α] [LawfulBEq α] {mark : α} {text : List α}
    (absent : mark ∉ text) : splitAt mark text = [text] := by
  induction text with
  | nil => rfl
  | cons c rest ih =>
    rw [List.mem_cons, not_or] at absent
    have ne : (c == mark) = false := by simpa using Ne.symm absent.1
    simp [splitAt, ne, ih absent.2]

/-- A numeral has the spelling of an integer. -/
theorem isInt_of_isNumeral {text digits : List Char} {n : Nat} (numeral : IsNumeral digits n)
    (unsigned : Numeral.dropSign text = digits) : isInt text = true := by
  have colon : ':' ∉ digits := fun mem => (ascii_digit (numeral.digits _ mem)).2 (by decide)
  have allDigits : ∀ c ∈ digits, c.isDigit = true := fun c mem =>
    (ascii_digit (numeral.digits c mem)).1
  rw [isInt, unsigned]
  split
  · exact absurd (numeral.leading rfl) (by simp)
  · exact absurd (numeral.leading rfl) (by simp)
  · rfl
  · next rest _ _ other => exact absurd (numeral.leading rfl) (by simpa using other)
  · next first =>
    obtain ⟨c, rest, rfl⟩ := List.exists_cons_of_ne_nil numeral.ne_nil
    have zero : c ≠ '0' := by
      rintro rfl
      exact first rest rfl
    rw [splitAt_of_not_mem colon]
    simp only [List.forall_mem_cons] at allDigits
    have run : ∀ d ∈ rest, d.isDigit = true ∨ d = '_' := fun d mem => .inl (allDigits.2 d mem)
    simpa [isDigitRun, isRun, zero, allDigits.1] using run

/-- Digits alone, after a sign or not, have not the spelling of a number with a point. -/
theorem isDecimal_of_digits {text digits : List Char} (unsigned : Numeral.dropSign text = digits)
    (allDigits : ∀ c ∈ digits, c.isDigit = true) (point : '.' ∉ text) : isDecimal text = false := by
  have start (word : List Char) : digits ≠ '.' :: word := by
    rintro rfl
    exact absurd (allDigits '.' (by simp)) (by decide)
  have start' (word : List Char) : text ≠ '.' :: word := by
    rintro rfl
    simp at point
  have whole : digits.takeWhile (fun c => c.isDigit || c == '_') = digits :=
    List.takeWhile_eq_self_iff.2 fun c mem => by simp [allDigits c mem]
  rw [isDecimal, unsigned]
  simp only [List.any_cons, List.any_nil, beq_eq_false_iff_ne.2 (start _),
    beq_eq_false_iff_ne.2 (start' _), Bool.or_false, Bool.false_eq_true, if_false, whole,
    List.drop_length]
  exact start'

/-- An integer is written as a plain scalar that counts as an integer. -/
theorem of_toString (n : Int) : PlainType.of (toString n).toList = .int := by
  obtain ⟨digits, numeral, written⟩ := toString_cases n
  generalize (toString n).toList = text at written ⊢
  have eq : text = digits ∨ text = '-' :: digits := written.imp And.left And.left
  have unsigned := dropSign_toString numeral eq
  have allDigits : ∀ c ∈ digits, c.isDigit = true := fun c mem =>
    (ascii_digit (numeral.digits c mem)).1
  have chars := chars_of_isNumeral numeral eq
  -- Integers come after truth values and numbers with a point, so that it must be neither.
  have noBool : (boolSpellings.any fun entry => entry.1.toList == text) = false := by
    have letters : ∀ entry ∈ boolSpellings,
        (entry.1.toList.all fun c => decide (c ∈ '-' :: asciiDigits)) = false := by decide
    rw [List.any_eq_false]
    rintro ⟨word, b⟩ mem same
    rw [beq_iff_eq] at same
    have digits : (text.all fun c => decide (c ∈ '-' :: asciiDigits)) = true :=
      List.all_eq_true.2 fun c mem => decide_eq_true (chars c mem)
    rw [← same, letters _ mem] at digits
    exact Bool.false_ne_true digits
  have noDecimal : isDecimal text = false := isDecimal_of_digits unsigned allDigits fun mem =>
    absurd (chars '.' mem) (by decide)
  have noBreak : dropFinalBreak text = text := by
    refine if_neg fun last => ?_
    exact absurd (chars '\n' (List.mem_of_getLast? (by simpa using last))) (by decide)
  have notBreak : text ≠ ['\n'] := by
    rintro rfl
    exact absurd (chars '\n' (by simp)) (by decide)
  simp [PlainType.of, PlainType.ofLine, notBreak, noBreak, noBool, noDecimal,
    isInt_of_isNumeral numeral unsigned]

/-! ## As values -/

/-- A text with none of the characters around which it is trimmed. -/
theorem trimBoth_of_not {isOuter : Char → Bool} {text : List Char}
    (inner : ∀ c ∈ text, isOuter c = false) : trimBoth isOuter text = text := by
  have kept (text : List Char) (inner : ∀ c ∈ text, isOuter c = false) :
      text.dropWhile isOuter = text := by
    cases text with
    | nil => rfl
    | cons c rest => simp [inner c (by simp)]
  rw [trimBoth, kept text inner, kept text.reverse (by simpa using inner), List.reverse_reverse]

/-- A digit counts as itself in a numeral. -/
theorem plain_digit {c : Char} (digit : c ∈ asciiDigits) :
    Numeral.plainPoint (.char c) = c ∧ isAsciiWhite c = false ∧
      (Numeral.digit? 10 c).isSome = true := by
  have all : ∀ c ∈ asciiDigits, Numeral.plainPoint (.char c) = c ∧ isAsciiWhite c = false ∧
      (Numeral.digit? 10 c).isSome = true := forall_of_all (by decide)
  exact all c digit

/-- A numeral counts as it stands. -/
theorem plain_of_isNumeral {digits : List Char} {n : Nat} (numeral : IsNumeral digits n) :
    Numeral.plain ⟨digits.map .char⟩ = digits := by
  have same : (digits.map CodePoint.char).map Numeral.plainPoint = digits := by
    rw [List.map_map]
    exact (List.map_congr_left fun c mem => (plain_digit (numeral.digits c mem)).1).trans
      (List.map_id _)
  rw [Numeral.plain, same, trimBoth_of_not fun c mem => (plain_digit (numeral.digits c mem)).2.1]

/-- All characters of a numeral are counted. -/
theorem digitCount_of_isNumeral {digits : List Char} {n : Nat} (numeral : IsNumeral digits n) :
    Numeral.digitCount ⟨digits.map .char⟩ = digits.length := by
  have unsigned := dropSign_toString (n := n) numeral (.inl rfl)
  have all : digits.takeWhile Char.isDigit = digits :=
    List.takeWhile_eq_self_iff.2 fun c mem => (ascii_digit (numeral.digits c mem)).1
  rw [Numeral.digitCount, plain_of_isNumeral numeral, unsigned, all]

/-- A numeral spells its number. -/
theorem readInt_of_isNumeral {digits : List Char} {n : Nat} (numeral : IsNumeral digits n) :
    Numeral.readInt 10 ⟨digits.map .char⟩ = some (n : Int) := by
  have unsigned := dropSign_toString (n := n) numeral (.inl rfl)
  have unmarked : Numeral.dropMarker 10 digits = digits := by
    unfold Numeral.dropMarker
    split <;> simp [Numeral.marker?]
  have nonnegative : Numeral.isNegative digits = false := by
    obtain ⟨c, rest, rfl⟩ := List.exists_cons_of_ne_nil numeral.ne_nil
    have mark := (ascii_digit (numeral.digits c (by simp))).2
    simp at mark
    simp [Numeral.isNegative, mark]
  have someDigits :
      (digits.isEmpty || !digits.all fun c => (Numeral.digit? 10 c).isSome) = false := by
    have : digits.all (fun c => (Numeral.digit? 10 c).isSome) = true :=
      List.all_eq_true.2 fun c mem => (plain_digit (numeral.digits c mem)).2.2
    simp [this, numeral.ne_nil]
  simp [Numeral.readInt, plain_of_isNumeral numeral, unsigned, unmarked, someDigits, nonnegative,
    numeral.value]

variable [NumeralLimit]

/-- A numeral within the limit spells its number. -/
theorem intOfBase_of_isNumeral {digits : List Char} {n : Nat} (numeral : IsNumeral digits n)
    (short : NumeralLimit.exceeded? digits.length = none) :
    Atom.intOfBase 10 (digits.map .char) = .ok n := by
  unfold Atom.intOfBase
  rw [if_pos rfl, digitCount_of_isNumeral numeral, readInt_of_isNumeral numeral]
  simp only [short]

/-- An integer is read from its numeral, given its sign. -/
theorem readInt_of_sign {t : Text} {negative : Bool} {digits : List Char} {n : Nat}
    (numeral : IsNumeral digits n) (short : NumeralLimit.exceeded? digits.length = none)
    (sign : Atom.splitSign (Atom.withoutUnderscores t) = (negative, digits.map .char)) :
    Atom.readInt t = .ok (if negative then -n else n) := by
  obtain ⟨c, rest, rfl⟩ := List.exists_cons_of_ne_nil numeral.ne_nil
  have colon : CodePoint.char ':' ∉ (c :: rest).map CodePoint.char := by
    simp only [List.mem_map, CodePoint.char.injEq, exists_eq_right]
    exact fun mem => (ascii_digit (numeral.digits _ mem)).2 (by decide)
  rw [Atom.readInt, sign]
  by_cases zero : c = '0'
  · subst zero
    obtain ⟨-, rfl⟩ := List.cons.inj (numeral.leading rfl)
    have : n = 0 := by
      rw [← numeral.value]
      rfl
    subst this
    rfl
  · have magnitude : (splitAt (.char ':') ((c :: rest).map CodePoint.char)).mapM
        (Atom.intOfBase 10) = .ok [(n : Int)] := by
      rw [splitAt_of_not_mem colon, List.mapM_cons, intOfBase_of_isNumeral numeral short]
      rfl
    simp only [List.map_cons] at magnitude ⊢
    simp [zero, magnitude, Atom.ofSexagesimal]

/-- An integer within the limit is read as it was written. -/
theorem readInt_toString {n : Int} (admitted : NumeralLimit.Admits n) :
    Atom.readInt (.ofString (toString n)) = .ok n := by
  have numeral := isNumeral_toDigits n.natAbs
  have written := toList_toString n
  have short : NumeralLimit.exceeded? (Nat.toDigits 10 n.natAbs).length = none := admitted
  generalize Nat.toDigits 10 n.natAbs = digits at numeral written short
  have underscore : ∀ c ∈ digits, c ≠ '_' := by
    intro c mem same
    subst same
    exact (ascii_digit (numeral.digits _ mem)).2 (by decide)
  have kept (text : List Char) (clean : ∀ c ∈ text, c ≠ '_') :
      Atom.withoutUnderscores (.ofChars text) = .ofChars text := by
    simpa [Atom.withoutUnderscores, Text.ofChars] using clean
  obtain ⟨eq, nonneg⟩ | ⟨eq, negative⟩ := written
  · have sign : Atom.splitSign (Atom.withoutUnderscores (.ofString (toString n))) =
        (false, digits.map .char) := by
      rw [Text.ofString, eq, kept digits underscore]
      obtain ⟨c, rest, rfl⟩ := List.exists_cons_of_ne_nil numeral.ne_nil
      have mark := (ascii_digit (numeral.digits c (by simp))).2
      simp at mark
      simp [Atom.splitSign, Text.ofChars, mark]
    rw [readInt_of_sign numeral short sign, if_neg Bool.false_ne_true,
      Int.natAbs_of_nonneg nonneg]
  · have sign : Atom.splitSign (Atom.withoutUnderscores (.ofString (toString n))) =
        (true, digits.map .char) := by
      rw [Text.ofString, eq, kept _ (by simpa using underscore)]
      rfl
    rw [readInt_of_sign numeral short sign, if_pos rfl,
      Int.ofNat_natAbs_of_nonpos (Int.le_of_lt negative), Int.neg_neg]

end Custody.Yaml
