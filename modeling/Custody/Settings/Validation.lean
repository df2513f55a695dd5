import Custody.Settings.Basic
import Custody.Settings.Integer
import Custody.Text.Placeholder
import Custody.Text.Utf8

/-!
# Validating settings

`Settings.ofValue` makes settings of a value, or lists everything that is wrong with it, in the
order of the fields. A mapping's fields may be left out where there is a default; fields that are
not known are ignored. Ids are integers that are not negative, but a boolean, a number with a
point that is an integer, and a text that spells one are taken for the integer.
-/

namespace Custody

/-- A step from a value to one within it. -/
inductive Step where
  | field (name : String)
  | index (i : Nat)
deriving DecidableEq, Repr

/-- What can be wrong with a value. -/
inductive FlawKind where
  /-- A required field is not there. -/
  | missing
  /-- Not a mapping. -/
  | notAMapping
  /-- Not a list. -/
  | notAList
  /-- Not a text. -/
  | notAText
  /-- Bytes that are not the written form of a text. -/
  | brokenText
  /-- Not hex text. -/
  | notHex
  /-- Nothing that is taken for an integer. -/
  | notAnInteger
  /-- A text that spells no integer. -/
  | unreadableInteger
  /-- A number or text that is too long or too large for an integer. -/
  | oversizedInteger
  /-- A number with a point that is no integer. -/
  | fractional
  /-- An infinity, or no number. -/
  | notFinite
  /-- A negative integer. -/
  | negative
deriving DecidableEq, Repr

/-- Something that is wrong with a value, and where. -/
structure Flaw where
  /-- The steps from the whole value. -/
  location : List Step
  /-- What is wrong there. -/
  kind : FlawKind
deriving DecidableEq, Repr

/-- What a value was taken for, or everything that is wrong with it. -/
abbrev Checked (α : Type) := Except (List Flaw) α

namespace Checked

/-- A value that is wrong as a whole. -/
def fail {α : Type} (kind : FlawKind) : Checked α :=
  .error [⟨[], kind⟩]

/-- What is wrong, seen from one step further out. -/
def within {α : Type} (step : Step) (c : Checked α) : Checked α :=
  c.mapError fun flaws => flaws.map fun f => { f with location := step :: f.location }

/-- Two results together, or everything that is wrong with either. -/
def both {α β : Type} (a : Checked α) (b : Checked β) : Checked (α × β) :=
  match a, b with
  | .ok x, .ok y => .ok (x, y)
  | .ok _, .error flaws => .error flaws
  | .error flaws, .ok _ => .error flaws
  | .error flaws, .error more => .error (flaws ++ more)

/-- The results for the items of a list from the given index on, or everything that is wrong with
any. -/
def each {α : Type} (check : Value → Checked α) (index : Nat) : List Value → Checked (List α)
  | [] => .ok []
  | item :: rest =>
    (both ((check item).within (.index index)) (each check (index + 1) rest)).map
      fun (a, as) => a :: as

/-- The result for a field that must be there. -/
def required {α : Type} (name : String) (check : Value → Checked α)
    (entries : List (Value × Value)) : Checked α :=
  match Value.field? name entries with
  | some value => (check value).within (.field name)
  | none => .error [⟨[.field name], .missing⟩]

/-- The result for a field, or the default where it is left out. -/
def optional {α : Type} (name : String) (default : α) (check : Value → Checked α)
    (entries : List (Value × Value)) : Checked α :=
  match Value.field? name entries with
  | some value => (check value).within (.field name)
  | none => .ok default

end Checked

namespace Value

/-- The entries of a mapping. -/
def asMapping : Value → Checked (List (Value × Value))
  | .map entries => .ok entries
  | _ => Checked.fail .notAMapping

/-- The items of a list. A set is taken for a list. -/
def asList : Value → Checked (List Value)
  | .list items => .ok items
  | .set size => .ok (List.replicate size .opaqueValue)
  | _ => Checked.fail .notAList

/-- A text. The written form of a text is taken for it. -/
def asText : Value → Checked Text
  | .text s => .ok s
  | .bytes content =>
    match Utf8.decode? content with
    | some s => .ok (.ofString s)
    | none => Checked.fail .brokenText
  | _ => Checked.fail .notAText

/-- Hex text in normal form. -/
def asHex (value : Value) : Checked HexText :=
  match value.asText with
  | .error flaws => .error flaws
  | .ok s =>
    match s.toString?.bind HexText.ofText? with
    | some hex => .ok hex
    | none => Checked.fail .notHex

/-- The flaw that a fault of an integer is. -/
def integerFlaw : Settings.IntegerFault → FlawKind
  | .unreadable => .unreadableInteger
  | .oversized => .oversizedInteger
  | .fractional => .fractional
  | .notFinite => .notFinite

/-- An integer, or the flaw that its fault is. -/
def ofInteger : Except Settings.IntegerFault Int → Checked Int
  | .ok n => .ok n
  | .error fault => Checked.fail (integerFlaw fault)

/-- What is taken for an integer. -/
def asInteger : Value → Checked Int
  | .int n => .ok n
  | .bool b => .ok (if b then 1 else 0)
  | .decimal x => ofInteger (Settings.integerOfDouble x)
  | .text s =>
    match s.chars? with
    | some cs => ofInteger (Settings.integerOfText cs)
    | none => Checked.fail .brokenText
  | .bytes content =>
    match Utf8.decode? content with
    | some s => ofInteger (Settings.integerOfText s.toList)
    | none => Checked.fail .unreadableInteger
  | _ => Checked.fail .notAnInteger

/-- An integer that is not negative. -/
def asId (value : Value) : Checked Nat :=
  match value.asInteger with
  | .error flaws => .error flaws
  | .ok n => if n < 0 then Checked.fail .negative else .ok n.toNat

end Value

open Checked

/-- A wallet's settings. -/
def WalletSettings.ofValue (value : Value) : Checked WalletSettings :=
  match value.asMapping with
  | .error flaws => .error flaws
  | .ok entries =>
    (both (optional "type" (.ofString "ethereum") Value.asText entries)
      (both (optional "chain" (.ofString "ethereum") Value.asText entries)
        (required "public_key" Value.asHex entries))).map
      fun (type, chain, publicKey) => ⟨type, chain, publicKey⟩

/-- An entry of a directory. -/
def ParticipantSettings.ofValue (value : Value) : Checked ParticipantSettings :=
  match value.asMapping with
  | .error flaws => .error flaws
  | .ok entries =>
    (both (required "abbreviation" Value.asText entries)
      (required "address" Value.asText entries)).map
      fun (abbreviation, address) => ⟨abbreviation, address⟩

/-- A list, each of whose items is checked. -/
def Value.asListOf {α : Type} (check : Value → Checked α) (value : Value) : Checked (List α) :=
  match value.asList with
  | .error flaws => .error flaws
  | .ok items => each check 0 items

/-- A policy's settings. -/
def PolicySettings.ofValue (value : Value) : Checked PolicySettings :=
  match value.asMapping with
  | .error flaws => .error flaws
  | .ok entries =>
    (both (required "id" Value.asId entries)
      (both (required "name" Value.asText entries)
        (both (optional "type" (.ofString Settings.policyType) Value.asText entries)
          (both (required "data" Value.asHex entries)
            (optional "participants" [] (Value.asListOf ParticipantSettings.ofValue)
              entries))))).map
      fun (id, name, type, data, participants) => ⟨id, name, type, data, participants⟩

/-- A treasury's settings. -/
def Settings.ofValue (value : Value) : Checked Settings :=
  match value.asMapping with
  | .error flaws => .error flaws
  | .ok entries =>
    (both (optional "name" (.ofString "treasury") Value.asText entries)
      (both (optional "wallets" [] (Value.asListOf WalletSettings.ofValue) entries)
        (optional "policies" [] (Value.asListOf PolicySettings.ofValue) entries))).map
      fun (name, wallets, policies) => ⟨name, wallets, policies⟩

end Custody
