import Custody.Hash.Keccak
import Custody.PublicKey

/-!
# Addresses

The address of a public key is the last 20 bytes of the digest of its coordinates. Its text is
hex with a checksum in the letters' case: the digit at place `i` is written in upper case if the
`i`-th hex digit of the digest of the lower-case text is 8 or more.
-/

namespace Custody

/-- The 20-byte address of a public key. -/
def PublicKey.address (key : PublicKey) : Bytes :=
  (Keccak.keccak256 key.toBytes).drop 12

namespace Address

/-- The half bytes of a byte string in order. -/
def nibbles (bs : Bytes) : List Nat :=
  bs.flatMap fun b => [b.toNat / 16, b.toNat % 16]

/-- The text of an address, with the checksum in the case of its letters. -/
def checksummed (address : Bytes) : String :=
  let digits := Hex.encode address
  let digest := Keccak.keccak256 (digits.map fun c => UInt8.ofNat c.toNat)
  String.ofList ('0' :: 'x' ::
    digits.zipWith (fun c n => if n < 8 then c else c.toUpper) (nibbles digest))

end Address

end Custody
