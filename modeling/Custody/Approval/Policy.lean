import Custody.Approval.Evaluator

/-!
# Policies

A policy is an expression and a directory that maps the abbreviations in it to the addresses of
participants. `Policy.validate` asks that the directory is not empty, names nobody twice, and lists
everyone to whom the expression refers; listing more is allowed. `Policy.verify` asks that the
approvers satisfy the expression. Both work with any evaluator.

On the wire a policy is a message of the expression's bytes and one message per participant.
-/

namespace Custody.Approval

/-- An entry of a directory. -/
structure Participant where
  /-- The name by which expressions refer to the participant. -/
  abbreviation : String
  /-- The participant's address. -/
  address : String
deriving DecidableEq, Repr

/-- An approval policy. -/
structure Policy where
  /-- The bytes of the expression. -/
  data : Bytes
  /-- The directory. -/
  participants : List Participant
deriving DecidableEq, Repr

/-- Why a policy is not valid. -/
inductive ValidateFault (ε : Type) where
  /-- The directory is empty. -/
  | noParticipants
  /-- The directory lists these abbreviations more than once. -/
  | duplicates (names : NameSet)
  /-- The expression refers to these abbreviations, which the directory does not list. -/
  | missing (names : NameSet)
  /-- The evaluator failed. -/
  | evaluator (failure : ε)

/-- The wording of a fault, given that of the evaluator's failures. -/
def ValidateFault.message {ε : Type} (wording : ε → String) : ValidateFault ε → String
  | .noParticipants => "policy has no participants"
  | .duplicates names =>
    "participant abbreviations listed more than once: " ++ String.intercalate ", " names.toList
  | .missing names =>
    "policy references participants missing from the directory: " ++
      String.intercalate ", " names.toList
  | .evaluator failure => wording failure

/-- Why approvers do not unlock a policy. -/
inductive VerifyFault (ε : Type) where
  /-- They do not satisfy the expression. They are listed in code point order. -/
  | notSatisfied (approvers : List String)
  /-- The evaluator failed. -/
  | evaluator (failure : ε)

/-- The wording of a fault, given that of the evaluator's failures. -/
def VerifyFault.message {ε : Type} (wording : ε → String) : VerifyFault ε → String
  | .notSatisfied approvers =>
    let listed := String.intercalate ", " approvers
    "policy not satisfied by approvers: " ++ if listed = "" then "<none>" else listed
  | .evaluator failure => wording failure

/-- The names that a list holds more than once. -/
def repeated (names : List String) : NameSet :=
  NameSet.ofList (names.filter fun name => 1 < names.count name)

/-- The written form of a participant. -/
def Participant.encode (p : Participant) : Bytes :=
  Wire.writeNonempty 1 (Utf8.encode p.abbreviation) ++ Wire.writeNonempty 2 (Utf8.encode p.address)

/-- A field of the message taken into the participant. -/
def Participant.addField (p : Participant) : Wire.Field → Except Wire.Fault Participant
  | ⟨1, .bytes content⟩ =>
    match Wire.readText content with
    | .error fault => .error fault
    | .ok abbreviation => .ok { p with abbreviation }
  | ⟨2, .bytes content⟩ =>
    match Wire.readText content with
    | .error fault => .error fault
    | .ok address => .ok { p with address }
  | _ => .ok p

namespace Policy

/-- The abbreviations that the directory lists, in its order. -/
def abbreviations (p : Policy) : List String :=
  p.participants.map (·.abbreviation)

/-- Succeeds if the directory is in order and lists everyone to whom the expression refers. -/
def validate {ε : Type} (e : Evaluator ε) (p : Policy) : Except (ValidateFault ε) Unit :=
  let duplicates := repeated p.abbreviations
  if p.participants.isEmpty then .error .noParticipants
  else if !duplicates.isEmpty then .error (.duplicates duplicates)
  else
    match e.participants p.data with
    | .error failure => .error (.evaluator failure)
    | .ok referenced =>
      let missing := referenced.diff (.ofList p.abbreviations)
      if missing.isEmpty then .ok () else .error (.missing missing)

/-- Succeeds if the approvers satisfy the expression. -/
def verify {ε : Type} (e : Evaluator ε) (approvers : NameSet) (payload : Payload) (p : Policy) :
    Except (VerifyFault ε) Unit :=
  match e.evaluate p.data approvers payload with
  | .error failure => .error (.evaluator failure)
  | .ok true => .ok ()
  | .ok false => .error (.notSatisfied approvers.toList)

/-- The written form of a policy. -/
def encode (p : Policy) : Bytes :=
  Wire.writeNonempty 1 p.data ++ p.participants.flatMap fun q => Wire.writeBytes 2 q.encode

/-- How many levels of messages may nest in a policy's. -/
def maxDepth : Nat := 100

/-- A field of the message taken into the policy. -/
def addField (p : Policy) : Wire.Field → Except Wire.Fault Policy
  | ⟨1, .bytes data⟩ => .ok { p with data }
  | ⟨2, .bytes content⟩ =>
    match Wire.foldFields (maxDepth - 1) Participant.addField ⟨"", ""⟩ content with
    | .error fault => .error fault
    | .ok participant => .ok { p with participants := p.participants ++ [participant] }
  | _ => .ok p

/-- The full name of the message that holds a policy. -/
def messageType : String := "treasury_core.policy.BlackbirdPolicy"

/-- The policy that bytes are a message of. -/
def decode (raw : Bytes) : Except Wire.Fault Policy :=
  Wire.foldFields maxDepth addField ⟨[], []⟩ raw

/-- The wording of a fault of `decode`. -/
def decodeFaultMessage (fault : Wire.Fault) : String :=
  "Invalid Blackbird policy: " ++ fault.message messageType

end Policy

end Custody.Approval
