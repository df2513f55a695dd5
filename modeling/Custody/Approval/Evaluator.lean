import Custody.Approval.Expression
import Custody.Value

/-!
# Evaluators

A policy does not read its expression itself: it hands the bytes to an evaluator, which says to
whom they refer and whether a set of approvers satisfies them. An evaluator may look at the payload
that is to be approved, and may fail in its own way; `Evaluator.expression`, the usual one, reads
approval expressions and does not look at the payload.
-/

namespace Custody.Approval

/-- What is to be approved, such as the digest of a transfer. Only evaluators give a meaning to
it. -/
structure Payload where
  /-- The bytes to be approved. -/
  data : Bytes := []
  /-- What else is known about them. -/
  metadata : List (String × Value) := []

/-- A strategy that understands the bytes of an expression; its failures are of type `ε`. -/
structure Evaluator (ε : Type) where
  /-- The participants to whom an expression refers. -/
  participants : (expression : Bytes) → Except ε NameSet
  /-- Whether approvers satisfy an expression. -/
  evaluate : (expression : Bytes) → (approvers : NameSet) → Payload → Except ε Bool

/-- The evaluator of approval expressions. -/
def Evaluator.expression : Evaluator Flaw where
  participants := Expression.participants
  evaluate blob approvers _ := Expression.evaluate blob approvers

end Custody.Approval
