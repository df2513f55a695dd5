import Custody.Ethereum.CallData
import Custody.Ethereum.Transaction

/-!
# Payments

A transaction is a payment if it moves either the native currency or a token: a native payment
sets only the value, and a token payment has no value and call data that is a token transfer call.
`Payment.parse` reads a payment from a transaction's bytes; `Payment.ofTokenCall` reads a token
payment from a transaction whose value it does not look at.
-/

namespace Custody.Ethereum

/-- A transfer of the native currency or of a token. -/
structure Payment where
  /-- The recipient's address. -/
  recipient : Bytes
  /-- How much is moved. -/
  amount : Nat
  /-- The token's contract, or none for the native currency. -/
  contract : Option Bytes
  /-- The digest that is signed. -/
  dataForSigning : Bytes
deriving DecidableEq, Repr

namespace Payment

/-- Why a transaction is not a payment. -/
inductive Fault where
  /-- The bytes are not a transaction. -/
  | transaction (fault : Transaction.Fault)
  /-- The recipient is empty. -/
  | noRecipient
  /-- Both the value and the call data are set. -/
  | valueAndData
  /-- Neither the value nor the call data is set. -/
  | neitherValueNorData
  /-- The call data is not a token transfer. -/
  | call (fault : TokenCall.Fault)
  /-- The transaction cannot be written for signing. -/
  | unsignable (fault : Transaction.EncodeFault)
deriving DecidableEq, Repr

/-- The wording of a fault. -/
def Fault.message : Fault → String
  | .transaction fault => fault.message
  | .noRecipient =>
    "Invalid Ethereum transaction: recipient is empty (contract creation is not a transfer)."
  | .valueAndData =>
    "Invalid Ethereum transaction: both value and data are set. For normal ETH transfers set " ++
      "only value, for contract calls (e.g. ERC-20 transfers) set only data."
  | .neitherValueNorData =>
    "Invalid Ethereum transaction: both value and data are empty. For normal ETH transfers set " ++
      "only value, for contract calls (e.g. ERC-20 transfers) set only data."
  | .call fault => fault.message
  | .unsignable fault => fault.message

/-- The digest that is signed, or why there is none. -/
def digest (chainId : Int) (tx : Transaction) : Except Fault Bytes :=
  (tx.signingHash chainId).mapError .unsignable

/-- The token payment that a transaction's call data asks for. -/
def ofTokenCall (chainId : Int) (tx : Transaction) : Except Fault Payment := do
  let call ← (TokenCall.decode tx.data).mapError .call
  let dataForSigning ← digest chainId tx
  .ok ⟨call.recipient, call.amount, some tx.recipient, dataForSigning⟩

/-- The payment that a transaction makes. -/
def ofTransaction (chainId : Int) (tx : Transaction) : Except Fault Payment :=
  if tx.recipient = [] then .error .noRecipient
  else if tx.value > 0 then
    if tx.data ≠ [] then .error .valueAndData
    else do
      let dataForSigning ← digest chainId tx
      .ok ⟨tx.recipient, tx.value.toNat, none, dataForSigning⟩
  else if tx.data = [] then .error .neitherValueNorData
  else ofTokenCall chainId tx

/-- The payment that the bytes of a transaction make. -/
def parse (chainId : Int) (raw : Bytes) : Except Fault Payment := do
  let tx ← (Transaction.decode raw).mapError .transaction
  ofTransaction chainId tx

end Payment

end Custody.Ethereum
