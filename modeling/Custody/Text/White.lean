/-!
# White space

The characters that Unicode counts as white space.
-/

namespace Custody

/-- Whether a character is white space. -/
def isWhite (c : Char) : Bool :=
  ('\t' ≤ c && c ≤ '\r') || c == ' ' || c == '\x85' || c == '\u00a0' || c == '\u1680' ||
    ('\u2000' ≤ c && c ≤ '\u200a') || c == '\u2028' || c == '\u2029' || c == '\u202f' ||
    c == '\u205f' || c == '\u3000'

/-- Whether a character is white space in ASCII. -/
def isAsciiWhite (c : Char) : Bool :=
  ('\t' ≤ c && c ≤ '\r') || c == ' '

/-- A text without the characters of a kind around it. -/
def trimBoth (isOuter : Char → Bool) (text : List Char) : List Char :=
  ((text.dropWhile isOuter).reverse.dropWhile isOuter).reverse

end Custody
