import Custody.Approval.Policy
import Custody.Text.Basic

/-!
# Envelopes

An envelope stores a policy of some type: an id, a name for display, and the policy's bytes with
the type URL that says how to read them. Ids are any natural numbers and names any texts, but only
ids below `2^64` can be written, and only names that are strings.

On the wire the packed policy is a message within the envelope's, always written; if it occurs
again, its fields are taken into the same packed policy.
-/

namespace Custody

/-- Bytes with the type URL that says how to read them. -/
structure Packed where
  /-- The type URL. -/
  typeUrl : String
  /-- The bytes. -/
  value : Bytes
deriving DecidableEq, Repr

/-- A stored policy. -/
structure Envelope where
  /-- The policy's number. -/
  id : Nat
  /-- The policy's name for display. -/
  name : Text
  /-- The policy's bytes and type. -/
  packed : Packed
deriving DecidableEq, Repr

/-- The type URL of a message. -/
def typeUrlOf (messageType : String) : String :=
  "/" ++ messageType

/-- The things that can be packed into an envelope. -/
class Packable (α : Type) where
  /-- The type URL under which they are stored. -/
  typeUrl : String
  /-- Their written form. -/
  encode : α → Bytes

instance : Packable Approval.Policy where
  typeUrl := typeUrlOf Approval.Policy.messageType
  encode := Approval.Policy.encode

/-- A thing's written form with its type URL. -/
def Packed.of {α : Type} [Packable α] (a : α) : Packed :=
  ⟨Packable.typeUrl α, Packable.encode a⟩

namespace Packed

/-- The written form. -/
def encode (p : Packed) : Bytes :=
  Wire.writeNonempty 1 (Utf8.encode p.typeUrl) ++ Wire.writeNonempty 2 p.value

/-- A field of the message taken into the packed policy. -/
def addField (p : Packed) : Wire.Field → Except Wire.Fault Packed
  | ⟨1, .bytes content⟩ =>
    match Wire.readText content with
    | .error fault => .error fault
    | .ok typeUrl => .ok { p with typeUrl }
  | ⟨2, .bytes value⟩ => .ok { p with value }
  | _ => .ok p

end Packed

namespace Envelope

/-- An envelope with the given id, if it is not negative. -/
def ofId? (id : Int) (name : Text) (packed : Packed) : Option Envelope :=
  if id < 0 then none else some ⟨id.toNat, name, packed⟩

/-- An envelope that holds a thing, whether or not it is a policy. -/
def wrap? {α : Type} [Packable α] (id : Int) (name : Text) (a : α) : Option Envelope :=
  ofId? id name (.of a)

/-- Why an envelope has no written form. -/
inductive EncodeFault where
  /-- The id does not fit into 64 bits. -/
  | idTooLarge (id : Nat)
  /-- The name has a surrogate in it. -/
  | brokenName
deriving DecidableEq, Repr

/-- The wording of a fault. A broken name has none of its own. -/
def EncodeFault.message : EncodeFault → String
  | .idTooLarge id => "Value out of range: " ++ toString id
  | .brokenName => ""

/-- The written form of an envelope. -/
def encode (e : Envelope) : Except EncodeFault Bytes :=
  if UInt64.size ≤ e.id then .error (.idTooLarge e.id)
  else
    match e.name.toString? with
    | none => .error .brokenName
    | some name =>
      .ok (Wire.writeNonzero 1 e.id ++ Wire.writeNonempty 2 (Utf8.encode name) ++
        Wire.writeBytes 3 e.packed.encode)

/-- How many levels of messages may nest in an envelope's. -/
def maxDepth : Nat := 100

/-- A field of the message taken into the envelope. -/
def addField (e : Envelope) : Wire.Field → Except Wire.Fault Envelope
  | ⟨1, .number n⟩ => .ok { e with id := n % UInt64.size }
  | ⟨2, .bytes content⟩ =>
    match Wire.readText content with
    | .error fault => .error fault
    | .ok name => .ok { e with name := .ofString name }
  | ⟨3, .bytes content⟩ =>
    match Wire.foldFields (maxDepth - 1) Packed.addField e.packed content with
    | .error fault => .error fault
    | .ok packed => .ok { e with packed }
  | _ => .ok e

/-- The envelope that bytes are a message of. -/
def decode (raw : Bytes) : Except Wire.Fault Envelope :=
  Wire.foldFields maxDepth addField ⟨0, .ofString "", ⟨"", []⟩⟩ raw

/-- The wording of a fault of `decode`. -/
def decodeFaultMessage (fault : Wire.Fault) : String :=
  "Invalid policy envelope: " ++ fault.message "treasury_core.policy.Policy"

end Envelope

end Custody
