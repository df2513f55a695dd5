import Custody.Curve.Secp256k1
import Custody.Text.Hex

/-!
# Public keys

A public key is a pair of 256-bit coordinates. It is loaded from one of three encodings: 33 bytes
(the parity of the second coordinate as `02` or `03`, then the first coordinate), 64 bytes (both
coordinates), or 65 bytes (`04`, then both). A key given by both coordinates is accepted if
compressing and decompressing it gives the same coordinates; a compressed key is accepted as it
stands.
-/

namespace Custody

/-- The two coordinates of a public key. -/
structure PublicKey where
  /-- The first coordinate. -/
  x : Nat
  /-- The second coordinate. -/
  y : Nat
deriving DecidableEq, Repr

namespace PublicKey

/-- Why bytes are not a public key. -/
inductive Fault where
  /-- No encoding has this length, or the 65 bytes do not start with `04`. -/
  | unsupportedLength (length : Nat)
  /-- The 33 bytes start with neither `02` nor `03`. -/
  | badParityByte (first : UInt8)
  /-- The coordinates are not those of a point. -/
  | notOnCurve
deriving DecidableEq, Repr

/-- The wording of a fault. -/
def Fault.message : Fault → String
  | .unsupportedLength length =>
    "Unsupported public key encoding (" ++ toString length ++ " bytes); expected a 33-byte " ++
      "compressed, 64-byte raw or 65-byte 0x04-prefixed key."
  | .badParityByte first =>
    "Invalid secp256k1 public key: Unexpected compressed public key format: Must start with " ++
      "0x02 or 0x03, but starts with " ++ Hex.display [first]
  | .notOnCurve => "Invalid secp256k1 public key: point is not on the curve."

/-- Both coordinates, 32 bytes each. -/
def toBytes (key : PublicKey) : Bytes :=
  Bytes.ofNatWide 32 key.x ++ Bytes.ofNatWide 32 key.y

/-- The compressed encoding: the parity of the second coordinate, then the first. -/
def compress (key : PublicKey) : Bytes :=
  (if key.y % 2 = 0 then 0x02 else 0x03) :: Bytes.ofNatWide 32 key.x

/-- The key over a first coordinate, with the second of the given parity. -/
def lift (x : Nat) (odd : Bool) : PublicKey :=
  ⟨x, Secp256k1.liftX x odd⟩

/-- The key that 33 bytes encode. -/
def decompress (first : UInt8) (rest : Bytes) : Except Fault PublicKey :=
  if first = 0x02 then .ok (lift (Bytes.toNat rest) false)
  else if first = 0x03 then .ok (lift (Bytes.toNat rest) true)
  else .error (.badParityByte first)

/-- The key whose coordinates are spelled by 64 bytes, if lifting its first coordinate gives its
second. -/
def ofCoordinates (raw : Bytes) : Except Fault PublicKey :=
  let key : PublicKey := ⟨Bytes.toNat (raw.take 32), Bytes.toNat (raw.drop 32)⟩
  if lift key.x (key.y % 2 == 1) = key then .ok key else .error .notOnCurve

/-- The key that bytes encode in one of the three encodings. -/
def load (raw : Bytes) : Except Fault PublicKey :=
  match raw with
  | [] => .error (.unsupportedLength 0)
  | first :: rest =>
    if raw.length = 33 then decompress first rest
    else if raw.length = 64 then ofCoordinates raw
    else if raw.length = 65 ∧ first = 0x04 then ofCoordinates rest
    else .error (.unsupportedLength raw.length)

end PublicKey

end Custody
