import Custody.Bytes

/-!
# Chains

A chain has a name, the id that its signatures commit to, and the symbol of its native currency.
Symbols are ASCII, which is what makes a chain's coin prefix a byte string: the symbol and a slash.
Three chains are known by name.
-/

namespace Custody

/-- Whether every character of a text is ASCII. -/
def isAscii (text : String) : Bool :=
  text.toList.all (·.toNat < 128)

/-- A blockchain network whose transactions have Ethereum's format. -/
structure Chain where
  /-- The name under which the chain is looked up. -/
  name : String
  /-- The number that signatures on this chain commit to. -/
  chainId : Int
  /-- The symbol of the native currency. -/
  symbol : String
  /-- Symbols are ASCII. -/
  ascii : isAscii symbol = true := by decide
deriving DecidableEq

namespace Chain

/-- A chain with the given fields, if its symbol is ASCII. -/
def ofFields? (name : String) (chainId : Int) (symbol : String) : Option Chain :=
  if h : isAscii symbol = true then some ⟨name, chainId, symbol, h⟩ else none

/-- The coin identifier of the native currency: the symbol and a slash. -/
def coinPrefix (chain : Chain) : Bytes :=
  chain.symbol.toList.map (fun c => UInt8.ofNat c.toNat) ++ [0x2f]

/-- Ethereum's main network. -/
def ethereum : Chain := { name := "ethereum", chainId := 1, symbol := "ETH" }

/-- The test network Sepolia. -/
def sepolia : Chain := { name := "sepolia", chainId := 11155111, symbol := "ETH" }

/-- The test network Holesky. -/
def holesky : Chain := { name := "holesky", chainId := 17000, symbol := "ETH" }

/-- The chains that are known by name, in the order in which they are listed. -/
def known : List Chain := [ethereum, sepolia, holesky]

/-- The names of the known chains. -/
def names : List String := known.map (·.name)

/-- The known chain of a name. -/
def find? (name : String) : Option Chain :=
  known.find? (·.name == name)

end Chain

end Custody
