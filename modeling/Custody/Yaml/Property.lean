import Custody.Text.Utf8
import Custody.Yaml.Scalar

/-!
# Anchors, tags and directives

The written forms of what stands around a document's nodes: names of anchors, tags (a handle and a
suffix, or a URI between angle brackets), and the directives that name a version or a tag's handle.
Each function reads from the front of a text and returns what is left.
-/

namespace Custody.Yaml

/-- Whether a character may stand in a name: of an anchor, a tag's handle or a directive. -/
def isNameChar (c : Char) : Bool :=
  ('0' ≤ c && c ≤ '9') || ('A' ≤ c && c ≤ 'Z') || ('a' ≤ c && c ≤ 'z') || c == '-' || c == '_'

/-- Whether a character may stand in a tag's URI. -/
def isUriChar (c : Char) : Bool :=
  isNameChar c || "-;/?:@&=+$,_.!~*'()[]%".toList.contains c

/-- The bytes that percent escapes spell, and what is left. -/
def readPercentBytes : List Char → Option (Bytes × List Char)
  | '%' :: a :: b :: rest =>
    match Hex.digit? a, Hex.digit? b with
    | some high, some low =>
      (readPercentBytes rest).map fun (bs, left) => (UInt8.ofNat (16 * high + low) :: bs, left)
    | _, _ => none
  | '%' :: _ => none
  | text => some ([], text)

/-- A URI, in which percent escapes spell the bytes of characters. -/
def readUriWithin : (fuel : Nat) → List Char → Option (List Char × List Char)
  | 0, text => some ([], text)
  | fuel + 1, text =>
    match text with
    | [] => some ([], [])
    | c :: rest =>
      if c == '%' then
        match readPercentBytes text with
        | none => none
        | some (bs, rest) =>
          match Utf8.decode? bs with
          | none => none
          | some s => (readUriWithin fuel rest).map fun (more, left) => (s.toList ++ more, left)
      else if isUriChar c then (readUriWithin fuel rest).map fun (more, left) => (c :: more, left)
      else some ([], text)

/-- A URI of at least one character. -/
def readUri (text : List Char) : Option (List Char × List Char) :=
  if text.head?.any isUriChar then readUriWithin text.length text else none

/-- A tag's handle, read from its first exclamation mark: that mark alone before a space, or a
name between two. -/
def readHandle (text : List Char) : Option (List Char × List Char) :=
  match text with
  | '!' :: rest =>
    if rest.head? == some ' ' then some (['!'], rest)
    else
      let name := rest.takeWhile isNameChar
      match rest.drop name.length with
      | '!' :: left => some ('!' :: name ++ ['!'], left)
      | _ => none
  | _ => none

/-- A tag, read from its first exclamation mark: its handle, if it has one, and what follows. -/
def readTag (text : List Char) : Option (Option (List Char) × List Char × List Char) := do
  let rest := text.drop 1
  let (handle, suffix, left) ←
    match rest with
    | '<' :: uri =>
      match readUri uri with
      | some (suffix, '>' :: left) => some (none, suffix, left)
      | _ => none
    | _ =>
      if atSpace rest then some (none, ['!'], rest)
      else
        let word := rest.takeWhile fun c => !(c == ' ' || isBreak c)
        if word.contains '!' then
          match readHandle text with
          | some (handle, uri) =>
            (readUri uri).map fun (suffix, left) => (some handle, suffix, left)
          | none => none
        else (readUri rest).map fun (suffix, left) => (some ['!'], suffix, left)
  if atSpaceNoTab left then some (handle, suffix, left) else none

/-- The name of an anchor, read from after its mark. -/
def readAnchor (text : List Char) : Option (List Char × List Char) :=
  let name := text.takeWhile isNameChar
  let left := text.drop name.length
  let ends := atSpace left || left.head?.any ("?:,]\x7d%@\x60".toList.contains ·)
  if name.isEmpty || !ends then none else some (name, left)

/-- What a directive says. -/
inductive Directive where
  /-- The version of the language, of which only the first number counts. -/
  | version (major : Nat)
  /-- What a handle stands for. -/
  | tag (handle uri : List Char)
  | other
deriving DecidableEq, Repr

/-- A run of digits as a number. -/
def readDigits (text : List Char) : Option (Nat × List Char) :=
  let digits := text.takeWhile Char.isDigit
  if digits.isEmpty then none
  else some (digits.foldl (fun n c => 10 * n + (c.toNat - '0'.toNat)) 0, text.drop digits.length)

/-- A directive, read from after its mark, with the line end after it. -/
def readDirective (text : List Char) : Option (Directive × List Char) := do
  let name := text.takeWhile isNameChar
  let rest := text.drop name.length
  if name.isEmpty || !atSpaceNoTab rest then none
  else
    let value := rest.dropWhile (· == ' ')
    let (directive, left) ←
      if name == "YAML".toList then
        match readDigits value with
        | some (major, '.' :: minor) =>
          match readDigits minor with
          | some (_, left) => if atSpaceNoTab left then some (.version major, left) else none
          | none => none
        | _ => none
      else if name == "TAG".toList then
        match readHandle value with
        | some (handle, ' ' :: uri) =>
          match readUri (uri.dropWhile (· == ' ')) with
          | some (uri, left) =>
            if atSpaceNoTab left then some (Directive.tag handle uri, left) else none
          | none => none
        | _ => none
      else some (.other, rest.dropWhile (!isBreak ·))
    let left ← skipIgnoredLine left
    some (directive, left)

end Custody.Yaml
