import Custody.Bytes
import Custody.Text.Basic
import Custody.Text.Hex
import Custody.Text.Printable

/-!
# Texts in quotes

The form in which messages show a text that may hold anything: in single quotes, or in double quotes
if only single ones occur in it; a backslash stands before the quote and before itself, and what is
not printable is an escape.
-/

namespace Custody

/-- The lower-case hex digits of a number, as many as two for each byte of `width`. -/
def escapeDigits (width n : Nat) : List Char :=
  Hex.encode (Bytes.ofNatWide width n)

/-- A code point between the given quotes. -/
def quotePoint (quote : Char) (p : CodePoint) : List Char :=
  let escape : List Char :=
    if p.toNat ≤ 0xff then '\\' :: 'x' :: escapeDigits 1 p.toNat
    else if p.toNat ≤ 0xffff then '\\' :: 'u' :: escapeDigits 2 p.toNat
    else '\\' :: 'U' :: escapeDigits 4 p.toNat
  match p with
  | .surrogate _ => escape
  | .char c =>
    if c = quote ∨ c = '\\' then ['\\', c]
    else if c = '\t' then ['\\', 't']
    else if c = '\n' then ['\\', 'n']
    else if c = '\r' then ['\\', 'r']
    else if isPrintableChar c then [c]
    else escape

/-- The quotes that a text is put in. -/
def Text.quote (t : Text) : Char :=
  if .char '\'' ∈ t.points ∧ .char '"' ∉ t.points then '"' else '\''

/-- A text in quotes. -/
def Text.quoted (t : Text) : List Char :=
  t.quote :: t.points.flatMap (quotePoint t.quote) ++ [t.quote]

end Custody
