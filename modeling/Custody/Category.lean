import Custody.Envelope.Registry
import Custody.Ethereum.Payment

/-!
# Categories of faults

Faults fall into categories, and categories into broader ones, so that a caller can react to, say,
every fault of reading a transaction alike. `Category.ancestors` lists the broader categories, the
nearest first; the faults of the library are sorted into the categories here. A list in the place
of a quantity, and a transaction that cannot be written for signing, are in none.
-/

namespace Custody

/-- A category of faults. -/
inductive Category where
  /-- Every fault of a treasury. -/
  | treasury
  /-- A value that is not as it should be, of whatever kind. -/
  | badValue
  /-- A transaction that is not a transfer. -/
  | parse
  /-- Bytes that are not a transaction. -/
  | decode
  /-- A transaction whose value and call data are not those of a transfer. -/
  | shapeViolation
  /-- Call data that is not a token transfer. -/
  | tokenCall
  /-- Call data that is too short. -/
  | shortPayload
  /-- Call data of another method. -/
  | selectorMismatch
  /-- Call data with a malformed recipient. -/
  | malformedAddress
  /-- Bytes that are not a public key. -/
  | publicKey
  /-- Every fault of policies and their envelopes. -/
  | policy
  /-- An envelope that does not lead to a policy. -/
  | unknownPolicyType
  /-- A policy that is not valid. -/
  | invalidPolicy
  /-- An empty directory. -/
  | emptyParticipants
  /-- A fault of certain abbreviations. -/
  | abbreviations
  /-- Abbreviations that are missing from the directory. -/
  | missingParticipant
  /-- Abbreviations that the directory repeats. -/
  | duplicateParticipant
  /-- Bytes that are not an approval expression. -/
  | invalidExpression
  /-- Approvers who do not satisfy the expression. -/
  | notSatisfied
deriving DecidableEq, Repr

namespace Category

/-- The broader categories, the nearest first. -/
def ancestors : Category → List Category
  | .treasury => []
  | .badValue => []
  | .parse => [.treasury, .badValue]
  | .decode => [.parse, .treasury, .badValue]
  | .shapeViolation => [.parse, .treasury, .badValue]
  | .tokenCall => [.parse, .treasury, .badValue]
  | .shortPayload => [.tokenCall, .parse, .treasury, .badValue]
  | .selectorMismatch => [.tokenCall, .parse, .treasury, .badValue]
  | .malformedAddress => [.tokenCall, .parse, .treasury, .badValue]
  | .publicKey => [.treasury, .badValue]
  | .policy => [.treasury]
  | .unknownPolicyType => [.policy, .treasury]
  | .invalidPolicy => [.policy, .treasury]
  | .emptyParticipants => [.invalidPolicy, .policy, .treasury]
  | .abbreviations => [.invalidPolicy, .policy, .treasury]
  | .missingParticipant => [.abbreviations, .invalidPolicy, .policy, .treasury]
  | .duplicateParticipant => [.abbreviations, .invalidPolicy, .policy, .treasury]
  | .invalidExpression => [.invalidPolicy, .policy, .treasury]
  | .notSatisfied => [.policy, .treasury]

/-- Whether a category is another one or falls into it. -/
def Within (c broader : Category) : Prop :=
  c = broader ∨ broader ∈ c.ancestors

instance (c broader : Category) : Decidable (c.Within broader) :=
  inferInstanceAs (Decidable (_ ∨ _))

end Category

/-- The category of a fault of reading a transaction. -/
def Ethereum.Transaction.Fault.category? : Ethereum.Transaction.Fault → Option Category
  | .listAsQuantity _ => none
  | _ => some .decode

/-- The category of a fault of reading a token transfer call. -/
def Ethereum.TokenCall.Fault.category : Ethereum.TokenCall.Fault → Category
  | .tooShort _ => .shortPayload
  | .otherMethod _ => .selectorMismatch
  | .malformedRecipient => .malformedAddress

/-- The category of a fault of reading a payment. -/
def Ethereum.Payment.Fault.category? : Ethereum.Payment.Fault → Option Category
  | .transaction fault => fault.category?
  | .noRecipient | .valueAndData | .neitherValueNorData => some .shapeViolation
  | .call fault => some fault.category
  | .unsignable _ => none

/-- The category of a fault of validating a policy, given that of the evaluator's failures. -/
def Approval.ValidateFault.category {ε : Type} (failures : ε → Category) :
    Approval.ValidateFault ε → Category
  | .noParticipants => .emptyParticipants
  | .duplicates _ => .duplicateParticipant
  | .missing _ => .missingParticipant
  | .evaluator failure => failures failure

/-- The category of a fault of verifying a policy, given that of the evaluator's failures. -/
def Approval.VerifyFault.category {ε : Type} (failures : ε → Category) :
    Approval.VerifyFault ε → Category
  | .notSatisfied _ => .notSatisfied
  | .evaluator failure => failures failure

end Custody
