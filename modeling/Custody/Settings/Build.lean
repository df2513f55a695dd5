import Custody.Envelope.Registry
import Custody.Settings.Basic
import Custody.Wallet

/-!
# What settings are for

The wallets and the policies' envelopes that settings describe, in their order. Each is built or
none: the first that cannot be ends the building. A policy is packed, and then read back from its
envelope and validated, so that what is stored is what was validated.
-/

namespace Custody.Settings

/-- The wallets. -/
def buildWallets (s : Settings) : Except Wallet.Fault (List Wallet) :=
  s.wallets.mapM fun w => Wallet.build w.type.shown w.publicKey.bytes w.chain.shown

/-- Why a policy's envelope cannot be built. -/
inductive PolicyFault where
  /-- There is no such type of policy. -/
  | unsupportedType (id : Nat) (name type : String)
  /-- The policy's directory has a text that has no written form. -/
  | unencodable
  /-- The packed policy cannot be read back. -/
  | unpack (fault : UnpackFault Empty)
  /-- The policy is not valid. -/
  | invalid (fault : Approval.ValidateFault Approval.Flaw)

/-- The wording of a type of policy that there is not. -/
def unsupportedTypeMessage (id : Nat) (name type : String) : String :=
  "Policy " ++ toString id ++ " ('" ++ name ++ "') has unsupported type '" ++ type ++
    "'. Supported types: " ++ listing [policyType]

/-- The participant that settings describe, if both its texts are strings. -/
def toParticipant? (p : ParticipantSettings) : Option Approval.Participant := do
  let abbreviation ← p.abbreviation.toString?
  let address ← p.address.toString?
  some { abbreviation, address }

/-- The policy that settings describe. -/
def toPolicy (p : PolicySettings) : Except PolicyFault Approval.Policy :=
  if p.type ≠ Text.ofString policyType then
    .error (.unsupportedType p.id p.name.shown p.type.shown)
  else
    match p.participants.mapM toParticipant? with
    | some participants => .ok ⟨p.data.bytes, participants⟩
    | none => .error .unencodable

/-- The envelope of the policy that settings describe, validated. -/
def buildPolicy (p : PolicySettings) : Except PolicyFault Envelope :=
  match toPolicy p with
  | .error fault => .error fault
  | .ok policy =>
    let envelope : Envelope := ⟨p.id, p.name, .of policy⟩
    -- What is validated is what was read back, not what was packed.
    match envelope.unpackApproval with
    | .error fault => .error (.unpack fault)
    | .ok stored =>
      match stored.validate .expression with
      | .error fault => .error (.invalid fault)
      | .ok () => .ok envelope

/-- The envelopes of the policies. -/
def buildPolicies (s : Settings) : Except PolicyFault (List Envelope) :=
  s.policies.mapM buildPolicy

end Custody.Settings
