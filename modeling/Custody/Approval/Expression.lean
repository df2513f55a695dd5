import Custody.Approval.Node

/-!
# Approval expressions

Bytes are an approval expression if they are a message of a tree in which every node makes sense:
a leaf names a signer and has no children, and an inner node has children, of which it does not
ask for more than there are, nor for none. `Expression.decode` checks this from the root down and
from left to right, and stops at the first flaw.

An expression refers to the names on its leaves, `Node.signers`, and a set of approvers satisfies
it as `Node.approvedBy` says.
-/

namespace Custody.Approval

/-- Why bytes are not an approval expression. -/
inductive Flaw where
  /-- The bytes are not a message of a tree. -/
  | unreadable (fault : Wire.Fault)
  /-- A leaf names no signer. -/
  | unnamedSigner
  /-- A leaf has children. -/
  | signerWithChildren (name : String)
  /-- A node is of no known kind. -/
  | unknownKind (kind : UInt32)
  /-- A node that asks for all of its children, or for a number of them, has none. -/
  | childless (kind : UInt32)
  /-- A node asks for no children, or for more than it has. -/
  | thresholdOutOfRange (threshold : UInt32) (count : Nat)
deriving DecidableEq, Repr

/-- The wording of a flaw. -/
def Flaw.message : Flaw → String
  | .unreadable fault =>
    "Invalid approval expression: " ++ fault.message "treasury_core.policy.PolicyNode"
  | .unnamedSigner => "Signer node without an abbreviation."
  | .signerWithChildren name => "Signer node '" ++ name ++ "' has children."
  | .unknownKind kind => "Unknown expression node type " ++ toString kind.toNat ++ "."
  | .childless kind =>
    (if kind = Node.allKind then "ALL" else "THRESHOLD") ++ " node has no children."
  | .thresholdOutOfRange threshold count =>
    "Threshold " ++ toString threshold.toNat ++ " is out of range for " ++ toString count ++
      " children."

namespace Node

mutual

/-- Succeeds if every node of the tree makes sense. -/
def check : Node → Except Flaw Unit
  | ⟨kind, threshold, children, signer⟩ =>
    if kind = signerKind then
      if signer = "" then .error .unnamedSigner
      else if children.length ≠ 0 then .error (.signerWithChildren signer)
      else .ok ()
    else if kind ≠ allKind ∧ kind ≠ thresholdKind then .error (.unknownKind kind)
    else if children.length = 0 then .error (.childless kind)
    else if kind = thresholdKind ∧ ¬ (0 < threshold.toNat ∧ threshold.toNat ≤ children.length) then
      .error (.thresholdOutOfRange threshold children.length)
    else checkAll children

/-- Succeeds if every node of several trees makes sense. -/
def checkAll : List Node → Except Flaw Unit
  | [] => .ok ()
  | node :: rest =>
    match node.check with
    | .error flaw => .error flaw
    | .ok () => checkAll rest

end

mutual

/-- The names on the leaves of a tree, from left to right. -/
def signers : Node → List String
  | ⟨kind, _, children, signer⟩ =>
    if kind = signerKind then [signer] else signersOfAll children

/-- The names on the leaves of several trees. -/
def signersOfAll : List Node → List String
  | [] => []
  | node :: rest => node.signers ++ signersOfAll rest

end

mutual

/-- Whether a set of approvers satisfies a tree: a leaf if it names one of them, and an inner node
if all of its children, or as many as it asks for, are satisfied. -/
def approvedBy (approvers : NameSet) : Node → Bool
  | ⟨kind, threshold, children, signer⟩ =>
    if kind = signerKind then decide (signer ∈ approvers)
    else
      let approved := countApproved approvers children
      if kind = allKind then approved == children.length else threshold.toNat ≤ approved

/-- How many of several trees a set of approvers satisfies. -/
def countApproved (approvers : NameSet) : List Node → Nat
  | [] => 0
  | node :: rest => (if node.approvedBy approvers then 1 else 0) + countApproved approvers rest

end

end Node

namespace Expression

/-- The tree of an approval expression. -/
def decode (blob : Bytes) : Except Flaw Node := do
  let node ← (Node.decode blob).mapError .unreadable
  node.check
  .ok node

/-- The participants to whom an approval expression refers. -/
def participants (blob : Bytes) : Except Flaw NameSet := do
  let node ← decode blob
  .ok (NameSet.ofList node.signers)

/-- Whether a set of approvers satisfies an approval expression. -/
def evaluate (blob : Bytes) (approvers : NameSet) : Except Flaw Bool := do
  let node ← decode blob
  .ok (node.approvedBy approvers)

end Expression

end Custody.Approval
