import Custody.Bytes

/-!
# Transfers

A transfer says where an amount of a coin goes, whatever chain it was read from. The coin is named
by its identifier: the chain's coin prefix for the native currency, and the prefix followed by the
contract's address for a token.
-/

namespace Custody

/-- The byte that ends a coin prefix. -/
def slash : UInt8 := 0x2f

/-- An outgoing transfer. -/
structure Transfer where
  /-- The recipient's address. -/
  recipient : Bytes
  /-- How much is moved, in the coin's smallest unit. -/
  amount : Nat
  /-- Which coin is moved. -/
  coinIdentifier : Bytes
  /-- The bytes whose signature authorizes the transfer. -/
  dataForSigning : Bytes
deriving DecidableEq, Repr

namespace Transfer

/-- A transfer of the given amount, if it is not negative. -/
def ofAmount? (recipient : Bytes) (amount : Int) (coinIdentifier dataForSigning : Bytes) :
    Option Transfer :=
  if amount < 0 then none else some ⟨recipient, amount.toNat, coinIdentifier, dataForSigning⟩

/-- What follows the first slash of the coin identifier, unless it is empty: the token's
contract. -/
def contract (t : Transfer) : Option Bytes :=
  match t.coinIdentifier.dropWhile (· != slash) with
  | _ :: b :: rest => some (b :: rest)
  | _ => none

/-- Whether a token is moved, not the native currency. -/
def isToken (t : Transfer) : Bool :=
  t.contract.isSome

end Transfer

end Custody
