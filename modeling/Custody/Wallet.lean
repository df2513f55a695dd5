import Custody.Address
import Custody.Chain
import Custody.Ethereum.Payment
import Custody.Text.Listing
import Custody.Transfer

/-!
# Wallets

A wallet is a public key on a chain. It reads the bytes of its own unsigned transactions as
transfers: the coin identifier of a payment is the chain's coin prefix, followed by the contract's
address for a token. Wallets are built by type, chain name and key; of several faults the type's is
reported first, then the chain's, then the key's.
-/

namespace Custody

/-- A wallet on a chain with Ethereum's transaction format. -/
structure Wallet where
  /-- The key that the wallet's address belongs to. -/
  key : PublicKey
  /-- The chain whose id its signatures commit to. -/
  chain : Chain
deriving DecidableEq

namespace Wallet

/-- The text of the wallet's address. -/
def address (w : Wallet) : String :=
  Address.checksummed w.key.address

/-- A payment on a chain as a transfer. -/
def describe (chain : Chain) (payment : Ethereum.Payment) : Transfer where
  recipient := payment.recipient
  amount := payment.amount
  coinIdentifier := chain.coinPrefix ++ payment.contract.getD []
  dataForSigning := payment.dataForSigning

/-- The transfer that the bytes of a transaction make. -/
def parse (w : Wallet) (raw : Bytes) : Except Ethereum.Payment.Fault Transfer :=
  (Ethereum.Payment.parse w.chain.chainId raw).map (describe w.chain)

/-- The types of wallet there are. -/
def types : List String := ["ethereum"]

/-- Why a wallet cannot be built. -/
inductive Fault where
  /-- There is no such type of wallet. -/
  | unknownType (type : String)
  /-- There is no such chain. -/
  | unknownChain (name : String)
  /-- The bytes are not a public key. -/
  | key (fault : PublicKey.Fault)
deriving DecidableEq, Repr

/-- The wording of a fault. -/
def Fault.message : Fault → String
  | .unknownType type =>
    "Unknown wallet type '" ++ type ++ "'. Supported wallet types: " ++ listing types
  | .unknownChain name => "Unknown chain '" ++ name ++ "'. Available: " ++ listing Chain.names
  | .key fault => fault.message

/-- The known chain of a name, or the fault that there is none. -/
def findChain (name : String) : Except Fault Chain :=
  match Chain.find? name with
  | some chain => .ok chain
  | none => .error (.unknownChain name)

/-- The wallet of a type, with the key that the bytes encode, on the chain of a name. -/
def build (type : String) (publicKey : Bytes) (chainName : String) : Except Fault Wallet :=
  if type ∉ types then .error (.unknownType type)
  else do
    let chain ← findChain chainName
    let key ← (PublicKey.load publicKey).mapError .key
    .ok ⟨key, chain⟩

end Wallet

end Custody
