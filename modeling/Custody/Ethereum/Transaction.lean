import Custody.Hash.Keccak
import Custody.Rlp.Decode
import Custody.Text.Hex

/-!
# Legacy transactions

A legacy transaction is a written RLP list of its fields: six of them if it is unsigned, or nine
with the three of a signature. `Transaction.decode` reads both forms, and an unsigned transaction
has zeros for its signature. A quantity is written as its shortest big-endian spelling; the empty
list is read as zero too, and a list that is not empty makes the reading break off with
`Fault.listAsQuantity`.

What is signed on a chain is the digest of `Transaction.signingImage`: the written form of the
nine fields with the chain's id in place of `v`, and zeros for `r` and `s`. It exists unless a
quantity is negative or the recipient has a wrong length.
-/

namespace Custody.Ethereum

/-- The fields of a transaction. -/
inductive Field where
  | nonce | gasPrice | gas | recipient | value | data | v | r | s
deriving DecidableEq, Repr

/-- The name of a field as messages show it. -/
def Field.name : Field → String
  | .nonce => "nonce"
  | .gasPrice => "gas_price"
  | .gas => "gas"
  | .recipient => "to"
  | .value => "value"
  | .data => "data"
  | .v => "v"
  | .r => "r"
  | .s => "s"

/-- A legacy transaction. -/
structure Transaction where
  /-- The sender's running number. -/
  nonce : Int
  /-- The price of a unit of gas. -/
  gasPrice : Int
  /-- The most gas to be used. -/
  gas : Int
  /-- The recipient's address, or nothing when a contract is created. -/
  recipient : Bytes
  /-- The amount of native currency moved. -/
  value : Int
  /-- The call data. -/
  data : Bytes
  /-- The signature's recovery number. -/
  v : Int := 0
  /-- The first half of the signature. -/
  r : Int := 0
  /-- The second half of the signature. -/
  s : Int := 0
deriving DecidableEq, Repr

namespace Transaction

/-- What can be wrong with an item that stands for a field. -/
inductive FieldFlaw where
  /-- A quantity starts with a zero byte. -/
  | notMinimal
  /-- A recipient has neither 0 nor 20 bytes. -/
  | invalidLength
  /-- A list stands where bytes are expected. -/
  | list
deriving DecidableEq, Repr

/-- The wording of a field's flaw. -/
def FieldFlaw.message : FieldFlaw → String
  | .notMinimal => "Invalid serialization (not minimal length)"
  | .invalidLength => "<class 'bytes'> has invalid length"
  | .list => "Objects of type list cannot be deserialized"

/-- Why bytes are not a legacy transaction. -/
inductive Fault where
  /-- There are no bytes. -/
  | empty
  /-- The first byte does not start a list. -/
  | unsupportedEnvelope (first : UInt8)
  /-- The bytes are not one written item. -/
  | notAnItem (fault : Rlp.Fault)
  /-- The item for a field does not fit it. -/
  | badField (field : Field) (flaw : FieldFlaw)
  /-- The list has neither 6 nor 9 items. -/
  | fieldCount (count : Nat)
  /-- A list that is not empty stands where a quantity is expected. -/
  | listAsQuantity (field : Field)
deriving DecidableEq, Repr

/-- The wording of a fault. A list in the place of a quantity has none of its own. -/
def Fault.message : Fault → String
  | .empty => "Invalid Ethereum transaction: empty input."
  | .unsupportedEnvelope first =>
    "Invalid Ethereum transaction: unsupported envelope prefix " ++ Hex.display [first] ++
      ", only legacy RLP transactions are supported."
  | .notAnItem fault => "Invalid Ethereum transaction: " ++ fault.message
  | .badField field flaw =>
    "Invalid Ethereum transaction: Deserialization failed because of field " ++ field.name ++
      " (\"" ++ flaw.message ++ "\")"
  | .fieldCount count =>
    "Invalid Ethereum transaction: expected 6 or 9 fields, got " ++ toString count ++ "."
  | .listAsQuantity _ => ""

/-- The number that an item spells in the place of a quantity. -/
def readQuantity (field : Field) : Rlp.Item → Except Fault Int
  | .bytes [] => .ok 0
  | .bytes (b :: rest) =>
    if b = 0 then .error (.badField field .notMinimal) else .ok (Bytes.toNat (b :: rest))
  | .list [] => .ok 0
  | .list (_ :: _) => .error (.listAsQuantity field)

/-- Whether an address has a length that a recipient may have. -/
def isRecipient (address : Bytes) : Bool :=
  address.length == 0 || address.length == 20

/-- The address that an item holds in the place of the recipient. -/
def readRecipient : Rlp.Item → Except Fault Bytes
  | .bytes address =>
    if isRecipient address then .ok address else .error (.badField .recipient .invalidLength)
  | .list _ => .error (.badField .recipient .list)

/-- The bytes that an item holds in the place of the call data. -/
def readData : Rlp.Item → Except Fault Bytes
  | .bytes data => .ok data
  | .list _ => .error (.badField .data .list)

/-- The transaction whose fields are the given items: six, or nine with a signature. -/
def ofItems : List Rlp.Item → Except Fault Transaction
  | [nonce, gasPrice, gas, recipient, value, data] => do
    let nonce ← readQuantity .nonce nonce
    let gasPrice ← readQuantity .gasPrice gasPrice
    let gas ← readQuantity .gas gas
    let recipient ← readRecipient recipient
    let value ← readQuantity .value value
    let data ← readData data
    .ok { nonce, gasPrice, gas, recipient, value, data }
  | [nonce, gasPrice, gas, recipient, value, data, v, r, s] => do
    let nonce ← readQuantity .nonce nonce
    let gasPrice ← readQuantity .gasPrice gasPrice
    let gas ← readQuantity .gas gas
    let recipient ← readRecipient recipient
    let value ← readQuantity .value value
    let data ← readData data
    let v ← readQuantity .v v
    let r ← readQuantity .r r
    let s ← readQuantity .s s
    .ok { nonce, gasPrice, gas, recipient, value, data, v, r, s }
  | items => .error (.fieldCount items.length)

/-- The transaction that bytes are the written form of. -/
def decode (raw : Bytes) : Except Fault Transaction :=
  match raw with
  | [] => .error .empty
  | first :: _ =>
    if first < 0xc0 then .error (.unsupportedEnvelope first)
    else
      match Rlp.decode raw with
      | .error fault => .error (.notAnItem fault)
      | .ok (.bytes content) => .error (.fieldCount content.length)
      | .ok (.list items) => ofItems items

/-- Why a transaction has no written form. -/
inductive EncodeFault where
  /-- A quantity is negative. -/
  | negative (field : Field)
  /-- The recipient has neither 0 nor 20 bytes. -/
  | recipientLength
deriving DecidableEq, Repr

/-- The wording of a fault. -/
def EncodeFault.message : EncodeFault → String
  | .negative field =>
    "Serialization failed because of field " ++ field.name ++
      " (\"Cannot serialize negative integers\")"
  | .recipientLength => "Serialization failed because of field to (\"Object has invalid length\")"

/-- A quantity as an item. -/
def writeQuantity (field : Field) (n : Int) : Except EncodeFault Rlp.Item :=
  if n < 0 then .error (.negative field) else .ok (.ofNat n.toNat)

/-- The recipient as an item. -/
def writeRecipient (address : Bytes) : Except EncodeFault Rlp.Item :=
  if isRecipient address then .ok (.bytes address) else .error .recipientLength

/-- The items of the six fields that are signed. -/
def unsignedItems (tx : Transaction) : Except EncodeFault (List Rlp.Item) := do
  let nonce ← writeQuantity .nonce tx.nonce
  let gasPrice ← writeQuantity .gasPrice tx.gasPrice
  let gas ← writeQuantity .gas tx.gas
  let recipient ← writeRecipient tx.recipient
  let value ← writeQuantity .value tx.value
  .ok [nonce, gasPrice, gas, recipient, value, .bytes tx.data]

/-- The items of all nine fields. -/
def signedItems (tx : Transaction) : Except EncodeFault (List Rlp.Item) := do
  let unsigned ← tx.unsignedItems
  let v ← writeQuantity .v tx.v
  let r ← writeQuantity .r tx.r
  let s ← writeQuantity .s tx.s
  .ok (unsigned ++ [v, r, s])

/-- The written form without a signature: a list of six items. -/
def encodeUnsigned (tx : Transaction) : Except EncodeFault Bytes :=
  tx.unsignedItems.map fun items => (Rlp.Item.list items).encode

/-- The written form with a signature: a list of nine items. -/
def encodeSigned (tx : Transaction) : Except EncodeFault Bytes :=
  tx.signedItems.map fun items => (Rlp.Item.list items).encode

/-- The bytes whose digest is signed on a chain. -/
def signingImage (tx : Transaction) (chainId : Int) : Except EncodeFault Bytes :=
  { tx with v := chainId, r := 0, s := 0 }.encodeSigned

/-- The digest that is signed on a chain. -/
def signingHash (tx : Transaction) (chainId : Int) : Except EncodeFault Bytes :=
  (tx.signingImage chainId).map Keccak.keccak256

end Transaction

end Custody.Ethereum
