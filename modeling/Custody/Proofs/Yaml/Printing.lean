import Custody.Proofs.Yaml.DoubleQuoted
import Custody.Proofs.Yaml.Integers
import Custody.Yaml.Token

/-!
# What documents are written with

Documents hold nothing but printable ASCII and line feeds (`isSimple_document`), if the names of
their fields do. Such a text may be read as a document, and its line ends are line feeds already.
-/

namespace Custody.Yaml

/-! ## Simple texts -/

/-- The empty text is simple. -/
@[simp] theorem isSimple_nil : isSimple [] = true := rfl

/-- A text is simple if both its parts are. -/
@[simp] theorem isSimple_append (a b : List Char) :
    isSimple (a ++ b) = (isSimple a && isSimple b) := by
  simp [isSimple]

/-- Spaces are simple. -/
@[simp] theorem isSimple_replicate (n : Nat) : isSimple (List.replicate n ' ') = true := by
  simp [isSimple]

/-- A line end and spaces are simple. -/
@[simp] theorem isSimple_newLine (column : Nat) : isSimple (newLine column) = true := by
  rw [newLine, isSimple_cons]
  exact ⟨.inl rfl, isSimple_replicate column⟩

/-- Printable characters are simple. -/
theorem isSimple_of_shown {text : List Char} (shown : ∀ c ∈ text, IsShown c) :
    isSimple text = true := by
  rw [isSimple, List.all_eq_true]
  intro c mem
  have := shown c mem
  simp [IsShown] at this
  simp [this]

/-- The line ends of a simple text are line feeds. -/
theorem unifyLineEnds_of_isSimple {text : List Char} (simple : isSimple text = true) :
    unifyLineEnds text = text := by
  induction text with
  | nil => rfl
  | cons c text ih =>
    obtain ⟨kind, simple⟩ := isSimple_cons.1 simple
    have carriage : c ≠ '\r' := by
      obtain rfl | shown := kind
      · decide
      · exact shown.ne (by decide)
    rw [unifyLineEnds, ih simple]
    · rintro _ rfl
      exact absurd rfl carriage
    · exact carriage

/-- A simple text may be a document. -/
theorem all_isPrintable_of_isSimple {text : List Char} (simple : isSimple text = true) :
    text.all isPrintable = true := by
  rw [isSimple, List.all_eq_true] at simple
  rw [List.all_eq_true]
  intro c mem
  have := simple c mem
  simp at this
  simp [isPrintable]
  tauto

/-! ## Texts -/

/-- A plain text is written simply if it is simple. -/
theorem isSimple_writePlain {text : List Char} (simple : isSimple text = true)
    (indent column : Nat) (previous : Char) :
    isSimple (writePlain indent column previous text) = true := by
  induction text generalizing column previous with
  | nil => rfl
  | cons c text ih =>
    obtain ⟨kind, simple⟩ := isSimple_cons.1 simple
    rw [writePlain]
    split
    · simp [ih simple]
    · exact isSimple_cons.2 ⟨kind, ih simple _ _⟩

/-- A text is written simply in single quotes if it is simple. -/
theorem isSimple_writeSingleQuoted {text : List Char} (simple : isSimple text = true)
    (indent column : Nat) (previous : Option Char) :
    isSimple (writeSingleQuoted indent column previous text) = true := by
  induction text generalizing column previous with
  | nil => rfl
  | cons c text ih =>
    obtain ⟨kind, simple⟩ := isSimple_cons.1 simple
    have ih (column : Nat) (previous : Option Char) := ih simple column previous
    have quotes : isSimple ['\'', '\''] = true := by decide
    have breaks : isSimple ['\n', '\n'] = true ∧ isSimple ['\n'] = true := by decide
    rw [writeSingleQuoted]
    split_ifs <;> simp_all [isSimple_cons]

/-- A hex digit is printable. -/
theorem shown_hexDigits (width n : Nat) : ∀ c ∈ hexDigits width n, IsShown c := by
  have digits : ∀ d < 16, IsShown
      (if d < 10 then Char.ofNat ('0'.toNat + d) else Char.ofNat ('A'.toNat + (d - 10))) := by
    decide
  induction width generalizing n with
  | zero => simp [hexDigits]
  | succ width ih =>
    intro c mem
    rw [hexDigits, List.mem_append, List.mem_singleton] at mem
    obtain mem | rfl := mem
    · exact ih _ c mem
    · exact digits _ (Nat.mod_lt n (by decide))

/-- An escape is written simply. -/
theorem isSimple_escape (p : CodePoint) : isSimple (escape p) = true := by
  have letters : ∀ entry ∈ shortEscapes, IsShown entry.2 := by decide
  refine isSimple_of_shown fun c mem => ?_
  rw [escape] at mem
  split at mem
  · next e short =>
    obtain ⟨d, -, short⟩ := Option.bind_eq_some_iff.1 short
    obtain ⟨before, after, eq, -⟩ := List.lookup_eq_some_iff.1 short
    have letter : IsShown e := letters (d, e) (by rw [eq]; simp)
    simp only [List.mem_cons, List.not_mem_nil, or_false] at mem
    obtain rfl | rfl := mem
    · decide
    · exact letter
  · have long (mark : Char) (shown : IsShown mark) (width : Nat)
        (mem : c ∈ '\\' :: mark :: hexDigits width p.toNat) : IsShown c := by
      simp only [List.mem_cons] at mem
      obtain rfl | rfl | mem := mem
      · decide
      · exact shown
      · exact shown_hexDigits _ _ c mem
    split_ifs at mem
    · exact long 'x' (by decide) 2 mem
    · exact long 'u' (by decide) 4 mem
    · exact long 'U' (by decide) 8 mem

/-- A text is always written simply in double quotes. -/
theorem isSimple_writeDoubleQuoted (points : List CodePoint) (indent column : Nat)
    {held : List Char} (simple : isSimple held = true) (first : Bool) :
    isSimple (writeDoubleQuoted indent column held first points) = true := by
  have turn : isSimple ('\\' :: newLine indent) = true :=
    isSimple_cons.2 ⟨.inr (by decide), isSimple_newLine indent⟩
  have mark (space : Bool) : isSimple (if space then ['\\'] else []) = true := by
    cases space <;> decide
  induction points generalizing column held first with
  | nil =>
    rw [writeDoubleQuoted, isSimple_append, simple]
    rfl
  | cons p points ih =>
    rw [writeDoubleQuoted]
    cases bare : needsEscape p with
    | true =>
      have further (column : Nat) := ih column (rfl : isSimple [] = true) false
      rw [if_pos rfl]
      dsimp only
      split
      · simp only [isSimple_append, simple, isSimple_escape, turn, mark, further, Bool.and_self]
      · simp only [isSimple_append, simple, isSimple_escape, further, Bool.and_self]
    | false =>
      obtain ⟨c, rfl, shown, -⟩ := eq_char_of_not_needsEscape bare
      have one : isSimple [c] = true := isSimple_cons.2 ⟨.inr shown, rfl⟩
      rw [if_neg (by simp), CodePoint.shown]
      dsimp only
      split
      · simp only [isSimple_append, simple, turn, mark, ih _ one, Bool.and_self]
      · exact ih _ (by rw [isSimple_append, simple, one]; rfl) _

/-- A text is always written simply. -/
theorem isSimple_writeText (indent column : Nat) (t : Text) :
    isSimple (writeText indent column t) = true := by
  have spaced {text : List Char} (simple : isSimple text = true) : isSimple (' ' :: text) = true :=
    isSimple_cons.2 ⟨.inr (by decide), simple⟩
  rw [writeText]
  split
  · next text quoted =>
    obtain ⟨-, fits⟩ := Option.filter_eq_some_iff.1 quoted
    have simple : isSimple text = true := (Bool.and_eq_true_iff.1 fits).1
    split
    · exact spaced (isSimple_writePlain simple _ _ _)
    · exact spaced (isSimple_cons.2 ⟨.inr (by decide), isSimple_writeSingleQuoted simple _ _ _⟩)
  · exact spaced (isSimple_cons.2 ⟨.inr (by decide), isSimple_writeDoubleQuoted _ _ _ rfl _⟩)

/-! ## Documents -/

/-- The characters of the names of fields. -/
def nameLetters : List Char :=
  "abcdefghijklmnopqrstuvwxyz_".toList

/-- A name of a record's field, as it is written. -/
structure IsFieldName (name : List Char) : Prop where
  /-- It has a character. -/
  ne_nil : name ≠ []
  /-- All characters are those of names. -/
  letters : ∀ c ∈ name, c ∈ nameLetters
  /-- It counts as a text. -/
  type_eq : PlainType.of name = .text
  /-- It is short enough for a key. -/
  short : name.length ≤ Scanner.longestKey

/-- A character of a name is printable and no mark. -/
theorem IsFieldName.char {c : Char} {name : List Char} (isName : IsFieldName name)
    (mem : c ∈ name) :
    IsShown c ∧ c ≠ ' ' ∧ c ≠ ':' ∧
      "#,[]\x7b\x7d&*!|>'\"%@\x60".toList.contains c = false ∧
      "?:-".toList.contains c = false ∧ c ≠ '-' ∧ c ≠ '.' := by
  have all : ∀ c ∈ nameLetters, IsShown c ∧ c ≠ ' ' ∧ c ≠ ':' ∧
      "#,[]\x7b\x7d&*!|>'\"%@\x60".toList.contains c = false ∧
      "?:-".toList.contains c = false ∧ c ≠ '-' ∧ c ≠ '.' := forall_of_all (by decide)
  exact all c (isName.letters c mem)

namespace Written

/-- What can be written with so many levels of collections. -/
inductive Fits : (levels : Nat) → Written → Prop
  | text {levels : Nat} (s : Text) : Fits levels (.text s)
  | int {levels : Nat} (n : Int) : Fits levels (.int n)
  | list {levels : Nat} {items : List Written} (fit : ∀ item ∈ items, Fits levels item) :
      Fits (levels + 1) (.list items)
  | record {levels : Nat} {fields : List (String × Written)}
      (names : ∀ field ∈ fields, IsFieldName field.1.toList)
      (distinct : (fields.map Prod.fst).Nodup) (fit : ∀ field ∈ fields, Fits levels field.2) :
      Fits (levels + 1) (.record fields)

/-- Items are written simply if each is. -/
theorem isSimple_writeItems {items : List Written} {indent : Nat}
    (each : ∀ item ∈ items, isSimple (writeItem indent item) = true) (placed : Bool) :
    isSimple (writeItems indent placed items) = true := by
  induction items generalizing placed with
  | nil => rfl
  | cons item items ih =>
    rw [List.forall_mem_cons] at each
    have dash : IsShown '-' := by decide
    cases placed <;> simp [writeItems, isSimple_cons, dash, each.1, ih each.2]

/-- Fields are written simply if the value of each is. -/
theorem isSimple_writeFields {fields : List (String × Written)} {indent : Nat}
    (names : ∀ field ∈ fields, IsFieldName field.1.toList)
    (each : ∀ field ∈ fields, ∀ column, isSimple (writeField indent column field.2) = true)
    (placed : Bool) : isSimple (writeFields indent placed fields) = true := by
  induction fields generalizing placed with
  | nil => rfl
  | cons field fields ih =>
    rw [List.forall_mem_cons] at names each
    have name : isSimple field.1.toList = true :=
      isSimple_of_shown fun c mem => (names.1.char mem).1
    have colon : IsShown ':' := by decide
    cases placed <;> simp [writeFields, isSimple_cons, name, colon, each.1, ih names.2 each.2]

/-- What can be written is written simply. -/
theorem isSimple_of_fits {levels : Nat} {v : Written} (fits : Fits levels v) :
    ∀ indent, (∀ column, isSimple (writeField indent column v) = true) ∧
      isSimple (writeItem indent v) = true := by
  have space : IsShown ' ' := by decide
  have brackets : isSimple " []\n".toList = true ∧ isSimple " \x7b\x7d\n".toList = true := by
    decide
  intro indent
  induction fits generalizing indent with
  | text t => simp [writeField, writeItem, isSimple_writeText, isSimple_cons]
  | int n =>
    obtain ⟨digits, numeral, written⟩ := toString_cases n
    have chars := chars_of_isNumeral numeral (written.imp And.left And.left)
    have all : ∀ c ∈ '-' :: asciiDigits, IsShown c := forall_of_all (by decide)
    have simple : isSimple (toString n).toList = true :=
      isSimple_of_shown fun c mem => all c (chars c mem)
    have line : isSimple (' ' :: (toString n).toList ++ ['\n']) = true := by
      rw [isSimple_append, isSimple_cons.2 ⟨.inr space, simple⟩]
      rfl
    exact ⟨fun _ => by rw [writeField]; exact line, by rw [writeItem]; exact line⟩
  | @list levels items _ each =>
    have items_simple (indent : Nat) (placed : Bool) :=
      isSimple_writeItems (fun item mem => (each item mem indent).2) placed
    cases items with
    | nil => simp only [writeField, writeItem, brackets, implies_true, and_self]
    | cons item items => simp [writeField, writeItem, isSimple_cons, items_simple, space]
  | @record levels fields names distinct _ each =>
    have fields_simple (indent : Nat) (placed : Bool) :=
      isSimple_writeFields names (fun field mem => (each field mem indent).1) placed
    cases fields with
    | nil => simp only [writeField, writeItem, brackets, implies_true, and_self]
    | cons field fields => simp [writeField, writeItem, isSimple_cons, fields_simple, space]

/-- A document is written simply. -/
theorem isSimple_document {levels : Nat} {fields : List (String × Written)}
    (fits : Fits levels (.record fields)) : isSimple (document fields) = true := by
  cases fields with
  | nil => decide
  | cons field fields =>
    cases fits with
    | record names distinct fit =>
      exact isSimple_writeFields names (fun f mem => (isSimple_of_fits (fit f mem) 0).1) false

end Written

end Custody.Yaml
