import Custody.Envelope.Basic

/-!
# Registries

A registry binds type URLs to decoders. A binding is made once: registering the same decoder again
changes nothing, and registering another one is refused. Decoders are told apart by their names, of
type `δ`; what they do is a function from names. `Envelope.unpack` reads the policy in an envelope
with the decoder that a registry binds to its type URL.
-/

namespace Custody

/-- Decoders by type URL, in the order in which they were registered. -/
structure Registry (δ : Type) where
  /-- The type URLs with their decoders. -/
  bindings : List (String × δ) := []
deriving DecidableEq

/-- What can be registered: a decoder under a type URL, or a class of policies. -/
inductive Registration (δ : Type) where
  | decoder (typeUrl : String) (decoder : δ)
  /-- A class of policies, which has a type URL and a decoder. -/
  | policyClass (typeUrl : String) (decoder : δ)
  /-- A class of policies that declares no type URL. -/
  | untypedClass
  /-- A class of other things. -/
  | otherClass
deriving DecidableEq

namespace Registry

variable {δ : Type} [DecidableEq δ]

/-- Why a registration is refused. -/
inductive Fault where
  /-- Another decoder is bound to the type URL. -/
  | taken (typeUrl : String)
  /-- The class is one of policies, but has no type URL. -/
  | noTypeUrl
  /-- The class is not one of policies. -/
  | notAPolicyClass
deriving DecidableEq, Repr

/-- The wording of a fault. Those of classes have none of their own. -/
def Fault.message : Fault → String
  | .taken typeUrl => "Type URL '" ++ typeUrl ++ "' is already registered."
  | .noTypeUrl | .notAPolicyClass => ""

/-- The decoder bound to a type URL. -/
def find? (typeUrl : String) (r : Registry δ) : Option δ :=
  r.bindings.lookup typeUrl

/-- The type URLs that are bound, in order of registration. -/
def typeUrls (r : Registry δ) : List String :=
  r.bindings.map (·.1)

/-- The registry with a decoder bound to a type URL. -/
def bind (typeUrl : String) (decoder : δ) (r : Registry δ) : Except Fault (Registry δ) :=
  match r.find? typeUrl with
  | none => .ok ⟨r.bindings ++ [(typeUrl, decoder)]⟩
  | some bound => if bound = decoder then .ok r else .error (.taken typeUrl)

/-- The registry after a registration. -/
def register (registration : Registration δ) (r : Registry δ) : Except Fault (Registry δ) :=
  match registration with
  | .decoder typeUrl decoder | .policyClass typeUrl decoder => r.bind typeUrl decoder
  | .untypedClass => .error .noTypeUrl
  | .otherClass => .error .notAPolicyClass

end Registry

/-- What a decoder makes of stored bytes. -/
inductive Decoded (π ε : Type) where
  | policy (p : π)
  /-- A thing of the named type that is not a policy. -/
  | other (typeName : String)
  /-- Nothing, since the bytes are not a written form. -/
  | unreadable (reason : String)
  /-- Nothing, since the decoder broke. -/
  | broken (failure : ε)

/-- Why the policy in an envelope cannot be read. -/
inductive UnpackFault (ε : Type) where
  /-- The type URL and the bytes do not lead to a policy. -/
  | unknownType (typeUrl reason : String)
  /-- The decoder broke. -/
  | broken (failure : ε)

/-- The wording of a type URL that leads to no policy; the reason may be empty. -/
def unknownTypeMessage (typeUrl reason : String) : String :=
  "unknown policy type '" ++ typeUrl ++ "'" ++ if reason = "" then "" else ": " ++ reason

/-- The policy in an envelope, read with the decoder that the registry binds to its type URL;
`run` says what the decoders do. -/
def Envelope.unpack {δ π ε : Type} (run : δ → Bytes → Decoded π ε) (r : Registry δ)
    (e : Envelope) : Except (UnpackFault ε) π :=
  let typeUrl := e.packed.typeUrl
  match r.find? typeUrl with
  | none => .error (.unknownType typeUrl "no decoder registered")
  | some decoder =>
    match run decoder e.packed.value with
    | .policy p => .ok p
    | .other typeName =>
      .error (.unknownType typeUrl (typeName ++ " is not a policy variant"))
    | .unreadable reason =>
      .error (.unknownType typeUrl ("payload does not decode: " ++ reason))
    | .broken failure => .error (.broken failure)

/-- The policy in an envelope, read with the registry that is given, or with the default one if none
is. -/
def Envelope.unpackWith {δ π ε : Type} (run : δ → Bytes → Decoded π ε) (default : Registry δ)
    (given : Option (Registry δ)) (e : Envelope) : Except (UnpackFault ε) π :=
  e.unpack run (given.getD default)

/-- The decoders that the default registry knows. -/
inductive BuiltInDecoder where
  /-- Reads approval policies. -/
  | approvalPolicy
deriving DecidableEq, Repr

/-- What approval policies' decoder makes of stored bytes. -/
def decodeApprovalPolicy {ε : Type} (raw : Bytes) : Decoded Approval.Policy ε :=
  match Approval.Policy.decode raw with
  | .ok p => .policy p
  | .error fault => .unreadable (Approval.Policy.decodeFaultMessage fault)

/-- What the built-in decoders do; none of them breaks. -/
def BuiltInDecoder.run : BuiltInDecoder → Bytes → Decoded Approval.Policy Empty
  | .approvalPolicy => decodeApprovalPolicy

/-- The default registry, which knows approval policies, by a name for their decoder. -/
def Registry.withApprovalPolicy {δ : Type} (decoder : δ) : Registry δ :=
  ⟨[(Packable.typeUrl Approval.Policy, decoder)]⟩

/-- The policy in an envelope, read with the default registry. -/
def Envelope.unpackApproval (e : Envelope) : Except (UnpackFault Empty) Approval.Policy :=
  e.unpack BuiltInDecoder.run (Registry.withApprovalPolicy .approvalPolicy)

/-- Registries by name; those never registered with are empty, or as they were at the start. -/
abbrev Registries (ι δ : Type) := ι → Registry δ

/-- The registries after a registration with the one of the given name. A refused registration
changes nothing. -/
def Registries.register {ι δ : Type} [DecidableEq ι] [DecidableEq δ] (name : ι)
    (registration : Registration δ) (all : Registries ι δ) :
    Except Registry.Fault (Registries ι δ) :=
  match (all name).register registration with
  | .error fault => .error fault
  | .ok r => .ok fun other => if other = name then r else all other

end Custody
