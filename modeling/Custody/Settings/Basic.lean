import Custody.Text.Hex
import Custody.Yaml.Written

/-!
# Settings

The settings of a treasury: its name, its wallets, each by type, chain and public key, and its
approval policies, each by id, name, type, expression and directory. Keys and expressions are hex
text in normal form, so that the bytes they denote are always there.

`Settings.written` is how settings are laid out as a document.
-/

namespace Custody

/-- A wallet as it is set. -/
structure WalletSettings where
  /-- The type of the wallet. -/
  type : Text
  /-- The name of its chain. -/
  chain : Text
  /-- Its public key. -/
  publicKey : HexText
deriving DecidableEq

/-- The type of policy that there is. -/
def Settings.policyType : String := "blackbird"

/-- An entry of a policy's directory as it is set. -/
structure ParticipantSettings where
  /-- The name by which expressions refer to the participant. -/
  abbreviation : Text
  /-- The participant's address. -/
  address : Text
deriving DecidableEq

/-- An approval policy as it is set. -/
structure PolicySettings where
  /-- The policy's number. -/
  id : Nat
  /-- Its name for display. -/
  name : Text
  /-- The type of the policy. -/
  type : Text
  /-- The bytes of its expression. -/
  data : HexText
  /-- Its directory. -/
  participants : List ParticipantSettings
deriving DecidableEq

/-- The settings of a treasury. -/
structure Settings where
  /-- The treasury's name. -/
  name : Text
  /-- Its wallets. -/
  wallets : List WalletSettings
  /-- Its approval policies. -/
  policies : List PolicySettings
deriving DecidableEq

open Yaml (Written)

/-- A wallet's fields in a document. -/
def WalletSettings.written (w : WalletSettings) : Written :=
  .record [("type", .text w.type), ("chain", .text w.chain),
    ("public_key", .text w.publicKey.text)]

/-- A participant's fields in a document. -/
def ParticipantSettings.written (p : ParticipantSettings) : Written :=
  .record [("abbreviation", .text p.abbreviation), ("address", .text p.address)]

/-- A policy's fields in a document. -/
def PolicySettings.written (p : PolicySettings) : Written :=
  .record [("id", .int p.id), ("name", .text p.name), ("type", .text p.type),
    ("data", .text p.data.text), ("participants", .list (p.participants.map (·.written)))]

namespace Settings

/-- The fields of settings in a document. -/
def fields (s : Settings) : List (String × Written) :=
  [("name", .text s.name), ("wallets", .list (s.wallets.map (·.written))),
    ("policies", .list (s.policies.map (·.written)))]

/-- Settings as a value. -/
def toValue (s : Settings) : Value :=
  (Written.record s.fields).toValue

/-- Settings as the text of a document. -/
def save [NumeralLimit] (s : Settings) : Except Yaml.LongNumeral String :=
  (Written.dump s.fields).map String.ofList

end Settings

end Custody
