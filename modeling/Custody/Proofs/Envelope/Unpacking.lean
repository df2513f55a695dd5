import Custody.Proofs.Envelope.Registration

/-!
# Unpacking after any history

A registry is used in two ways: something is registered with it, or the policy in an envelope is
read with it. Reading leaves the registry as it is, so after any uses of a fresh registry it shows
the bindings that the registrations among them asked for (`shows_afterUses`).

`unpackWith_afterUses` says what is read from an envelope then. It is decided by the first
registration of the envelope's type URL alone: its decoder gets the envelope's bytes, and what it
makes of them is the answer, except that anything but a policy is reported under the envelope's type
URL. A decoder that breaks is the one fault that is handed on as it is. The default registry is of
no account, not even if the registry that is given is empty.
-/

namespace Custody

variable {δ π ε : Type}

namespace Registry

/-- What is done with a registry. -/
inductive Use (δ : Type) where
  /-- Something is registered, or its registration is refused. -/
  | registration (registration : Registration δ)
  /-- The policy in an envelope is read. -/
  | unpacking (e : Envelope)

/-- The binding that a use asks for. -/
def Use.binding? : Use δ → Option (String × δ)
  | .registration asked => asked.binding?
  | .unpacking _ => none

variable [DecidableEq δ]

/-- The registry after a use of it. -/
def afterUse (r : Registry δ) : Use δ → Registry δ
  | .registration registration => r.after registration
  | .unpacking _ => r

/-- The registry after several uses of it. -/
def afterUses (r : Registry δ) (uses : List (Use δ)) : Registry δ :=
  uses.foldl afterUse r

/-- Uses of a registry make it show the bindings that they ask for. -/
theorem shows_afterUses {r : Registry δ} {log : List (String × δ)} (shown : r.Shows log)
    (uses : List (Use δ)) : (r.afterUses uses).Shows (log ++ uses.filterMap Use.binding?) := by
  induction uses generalizing r log with
  | nil =>
    rw [List.filterMap_nil, List.append_nil]
    exact shown
  | cons use later ih =>
    have first : r.afterUses (use :: later) = (r.afterUse use).afterUses later := rfl
    have next : (r.afterUse use).Shows (log ++ use.binding?.toList) := by
      cases use with
      | registration asked => exact shown.after asked
      | unpacking e =>
        show r.Shows (log ++ [])
        rwa [List.append_nil]
    have split : (use :: later).filterMap Use.binding? =
        use.binding?.toList ++ later.filterMap Use.binding? := by
      rw [List.filterMap_eq_flatMap_toList, List.filterMap_eq_flatMap_toList, List.flatMap_cons]
    rw [first, split, ← List.append_assoc]
    exact ih next

end Registry

namespace Envelope

/-- Without a decoder for its type URL, an envelope cannot be read. -/
theorem unpack_of_unbound {run : δ → Bytes → Decoded π ε} {r : Registry δ} {e : Envelope}
    (unbound : r.find? e.packed.typeUrl = none) :
    e.unpack run r = .error (.unknownType e.packed.typeUrl "no decoder registered") := by
  unfold unpack
  simp only [unbound]

/-- With a decoder for its type URL, an envelope is read as what the decoder makes of its bytes. -/
theorem unpack_of_bound {run : δ → Bytes → Decoded π ε} {r : Registry δ} {e : Envelope}
    {decoder : δ} (bound : r.find? e.packed.typeUrl = some decoder) :
    e.unpack run r =
      match run decoder e.packed.value with
      | .policy p => .ok p
      | .other typeName =>
        .error (.unknownType e.packed.typeUrl (typeName ++ " is not a policy variant"))
      | .unreadable reason =>
        .error (.unknownType e.packed.typeUrl ("payload does not decode: " ++ reason))
      | .broken failure => .error (.broken failure) := by
  cases made : run decoder e.packed.value with
  | policy p => simp only [unpack, bound, made]
  | other typeName => simp only [unpack, bound, made]
  | unreadable reason => simp only [unpack, bound, made]
  | broken failure => simp only [unpack, bound, made]

/-- A type URL that is reported is the envelope's. -/
theorem typeUrl_eq_of_unpack {run : δ → Bytes → Decoded π ε} {r : Registry δ} {e : Envelope}
    {typeUrl reason : String} (failed : e.unpack run r = .error (.unknownType typeUrl reason)) :
    typeUrl = e.packed.typeUrl := by
  cases found : r.find? e.packed.typeUrl with
  | none =>
    rw [unpack_of_unbound found] at failed
    exact (UnpackFault.unknownType.inj (Except.error.inj failed)).1.symm
  | some decoder =>
    rw [unpack_of_bound found] at failed
    cases made : run decoder e.packed.value with
    | policy p => simp [made] at failed
    | other typeName =>
      simp only [made] at failed
      exact (UnpackFault.unknownType.inj (Except.error.inj failed)).1.symm
    | unreadable cause =>
      simp only [made] at failed
      exact (UnpackFault.unknownType.inj (Except.error.inj failed)).1.symm
    | broken failure => simp [made] at failed

/-- After any uses of a fresh registry, reading an envelope's policy with it is decided by the first
registration of the envelope's type URL. Without one the type is unknown. With one, its decoder
reads the envelope's bytes: a policy is the answer, anything else and unreadable bytes are an
unknown type, and a decoder that breaks is handed on. A type that is reported as unknown is the
envelope's, and the registry stays as it was. -/
theorem unpackWith_afterUses [DecidableEq δ] (run : δ → Bytes → Decoded π ε)
    (default : Registry δ) (uses : List (Registry.Use δ)) (e : Envelope) :
    let r := Registry.afterUses ⟨[]⟩ uses
    let typeUrl := e.packed.typeUrl
    let first := (uses.filterMap Registry.Use.binding?).lookup typeUrl
    let answer := e.unpackWith run default (some r)
    (first = none → answer = .error (.unknownType typeUrl "no decoder registered")) ∧
    (∀ decoder, first = some decoder →
      (∀ p, run decoder e.packed.value = .policy p → answer = .ok p) ∧
      (∀ typeName, run decoder e.packed.value = .other typeName →
        answer = .error (.unknownType typeUrl (typeName ++ " is not a policy variant"))) ∧
      (∀ reason, run decoder e.packed.value = .unreadable reason →
        answer = .error (.unknownType typeUrl ("payload does not decode: " ++ reason))) ∧
      ∀ failure, run decoder e.packed.value = .broken failure →
        answer = .error (.broken failure)) ∧
    (∀ reported reason, answer = .error (.unknownType reported reason) → reported = typeUrl) ∧
    r.afterUse (.unpacking e) = r := by
  intro r typeUrl first answer
  have shown : r.Shows (uses.filterMap Registry.Use.binding?) :=
    Registry.shows_afterUses Registry.shows_nil uses
  have found : r.find? typeUrl = first := shown.find?_eq typeUrl
  have given : answer = e.unpack run r := rfl
  refine ⟨fun unregistered => ?_, fun decoder registered => ?_, fun reported reason failed => ?_,
    rfl⟩
  · rw [unregistered] at found
    rw [given]
    exact unpack_of_unbound found
  · rw [registered] at found
    rw [given, unpack_of_bound found]
    refine ⟨?_, ?_, ?_, ?_⟩
    · intro p made
      rw [made]
    · intro typeName made
      rw [made]
    · intro reason made
      rw [made]
    · intro failure made
      rw [made]
  · rw [given] at failed
    exact typeUrl_eq_of_unpack failed

/-- Of two decoders for one type URL the first is the one that reads, whatever the default registry
binds, and an empty registry reads nothing. -/
theorem unpackWith_afterUses_refused :
    let run : Bool → Bytes → Decoded Bytes Empty := fun reads raw =>
      if reads then .policy raw else .other "GenesisState"
    let e : Envelope := ⟨1, "withdrawals", "/a", [7]⟩
    let uses : List (Registry.Use Bool) := [.unpacking e, .registration .otherClass,
      .registration (.decoder "/a" true), .registration (.policyClass "/a" false)]
    let default : Registry Bool := ⟨[("/a", false)]⟩
    e.unpackWith run default (some (Registry.afterUses ⟨[]⟩ uses)) = .ok [7] ∧
      e.unpackWith run default (some ⟨[]⟩) =
        .error (.unknownType "/a" "no decoder registered") := by
  intro run e uses default
  obtain ⟨-, read, -, -⟩ := unpackWith_afterUses run default uses e
  obtain ⟨unread, -, -, -⟩ := unpackWith_afterUses run default [] e
  exact ⟨(read true (by decide)).1 [7] rfl, unread rfl⟩

end Envelope

end Custody
