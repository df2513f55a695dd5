import Custody.Text.Hex

/-!
# Token transfer calls

The call data of a token transfer is the four-byte selector of `transfer(address,uint256)`, the
recipient's address in the last 20 bytes of a 32-byte word, and the amount as a 32-byte word.
Bytes after the second word are not looked at.
-/

namespace Custody.Ethereum

/-- The first four bytes of the digest of `transfer(address,uint256)`. -/
def transferSelector : Bytes := [0xa9, 0x05, 0x9c, 0xbb]

/-- The bytes of a word of call data. -/
def wordSize : Nat := 32

/-- The bytes of a token transfer call: the selector and two words. -/
def transferCallSize : Nat := transferSelector.length + 2 * wordSize

/-- What a token transfer call asks for. -/
structure TokenCall where
  /-- The recipient's 20-byte address. -/
  recipient : Bytes
  /-- How many of the token's units are moved. -/
  amount : Nat
deriving DecidableEq, Repr

namespace TokenCall

/-- Why call data is not a token transfer. -/
inductive Fault where
  /-- There are fewer bytes than a selector and two words. -/
  | tooShort (length : Nat)
  /-- Another method is called. -/
  | otherMethod (selector : Bytes)
  /-- The recipient's word does not start with 12 zero bytes. -/
  | malformedRecipient
deriving DecidableEq, Repr

/-- The wording of a fault. -/
def Fault.message : Fault → String
  | .tooShort length =>
    "Invalid ERC-20 transfer: data is too short (" ++ toString length ++ " bytes, need " ++
      toString transferCallSize ++ ")."
  | .otherMethod selector =>
    "Invalid ERC-20 transfer: method " ++ Hex.display selector ++
      " is not transfer(address,uint256) (" ++ Hex.display transferSelector ++ ")."
  | .malformedRecipient => "Invalid ERC-20 transfer: recipient address is not 20 bytes."

/-- The token transfer that call data asks for. -/
def decode (data : Bytes) : Except Fault TokenCall :=
  let selector := data.take 4
  let recipient := (data.drop 4).take wordSize
  let amount := (data.drop (4 + wordSize)).take wordSize
  if data.length < transferCallSize then .error (.tooShort data.length)
  else if selector ≠ transferSelector then .error (.otherMethod selector)
  else if (recipient.take 12).any (· != 0) then .error .malformedRecipient
  else .ok ⟨recipient.drop 12, Bytes.toNat amount⟩

/-- The call data of a token transfer. -/
def encode (call : TokenCall) : Bytes :=
  transferSelector ++ List.replicate 12 0 ++ call.recipient ++ Bytes.ofNatWide wordSize call.amount

end TokenCall

end Custody.Ethereum
