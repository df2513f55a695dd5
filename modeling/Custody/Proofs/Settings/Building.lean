import Custody.Proofs.Approval.Meaning
import Custody.Proofs.Settings.Storage
import Mathlib.Data.List.Nodup

/-!
# Building the policies of settings

What settings say about a policy is put here without the functions that build it. `Describes`
relates an entry to the policy that it is about, and `InOrder` says what an entry has to be like for
that policy to be used: of the one type that there is, with a directory that lists somebody, nobody
twice, and every name on a leaf of the tree that the expression is a message of. `FailsWith` says
what is reported of an entry that is not in order.

An entry that is about a policy is built if it is in order (`buildPolicy_of_inOrder`), and fails
with what is reported of it if it is not (`exists_failsWith`). Since a policy is packed and read
back before it is validated, this needs that it fits into a message. `buildPolicies_eq_ok_or_first`
carries both from one entry to all.
-/

namespace Custody

open Approval (Node)

/-! ## Entries -/

/-- An entry is about a policy: its hex text denotes the policy's bytes, and its participants are
the policy's, in their order. -/
structure PolicySettings.Describes (p : PolicySettings) (policy : Approval.Policy) : Prop where
  /-- The hex text denotes the expression. -/
  data : Hex.decode? p.data.digits = some policy.data
  /-- The participants are those of the policy's directory. -/
  directory : p.participants =
    policy.participants.map fun q => ⟨.ofString q.abbreviation, .ofString q.address⟩

/-- An entry is about a policy that fits into a message. -/
def PolicySettings.Packs (p : PolicySettings) : Prop :=
  ∃ policy, p.Describes policy ∧ policy.encode.length ≤ Wire.longestPayload

/-- An entry's policy can be used. -/
structure PolicySettings.InOrder (p : PolicySettings) : Prop where
  /-- It is of the one type that there is. -/
  type : p.type = .ofString Settings.policyType
  /-- The directory lists somebody. -/
  somebody : p.participants ≠ []
  /-- It lists nobody twice. -/
  once : (p.participants.map (·.abbreviation)).Nodup
  /-- The hex text denotes an approval expression, and everyone on a leaf of its tree is listed. -/
  listed : ∃ blob tree, Hex.decode? p.data.digits = some blob ∧
    Approval.Expression.decode blob = .ok tree ∧
    ∀ leaf : Node, leaf.OccursIn tree → leaf.kind = Node.signerKind →
      Text.ofString leaf.signer ∈ p.participants.map (·.abbreviation)

/-- What is reported of an entry that is not in order: that there is no such type, or else what is
wrong with its policy. -/
inductive PolicySettings.FailsWith (p : PolicySettings) : Settings.PolicyFault → Prop
  /-- It is of another type. -/
  | unsupported : p.type ≠ .ofString Settings.policyType →
      FailsWith p (.unsupportedType p.id p.name.shown p.type.shown)
  /-- It is of the right type, and its policy is not valid. -/
  | invalid {policy : Approval.Policy} {fault : Approval.ValidateFault Approval.Flaw} :
      p.type = .ofString Settings.policyType → p.Describes policy →
      policy.validate .expression = .error fault → FailsWith p (.invalid fault)

namespace Settings

/-- A participant's settings describe the participant that has their texts. -/
theorem toParticipant?_eq_some_iff {q : ParticipantSettings} {participant : Approval.Participant} :
    toParticipant? q = some participant ↔
      (⟨.ofString participant.abbreviation, .ofString participant.address⟩ :
        ParticipantSettings) = q := by
  obtain ⟨abbreviation, address⟩ := q
  obtain ⟨a, b⟩ := participant
  simp only [toParticipant?, Option.bind_eq_bind, Option.bind_eq_some_iff, Option.some.injEq,
    Text.toString?_eq_some_iff, ParticipantSettings.mk.injEq, Approval.Participant.mk.injEq]
  constructor
  · rintro ⟨a, rfl, b, rfl, rfl, rfl⟩
    exact ⟨rfl, rfl⟩
  · rintro ⟨rfl, rfl⟩
    exact ⟨a, rfl, b, rfl, rfl, rfl⟩

/-- The participants that settings describe are those that have their texts, in their order. -/
theorem mapM_toParticipant?_eq_some {participants : List Approval.Participant} :
    (participants.map fun q => (⟨.ofString q.abbreviation, .ofString q.address⟩ :
      ParticipantSettings)).mapM toParticipant? = some participants := by
  induction participants with
  | nil => rfl
  | cons q rest ih =>
    rw [List.map_cons, List.mapM_cons, toParticipant?_eq_some_iff.2 rfl, ih]
    rfl

variable {p : PolicySettings} {policy : Approval.Policy} (described : p.Describes policy)
include described

/-- An entry of the right type gives the policy that it is about. -/
theorem toPolicy_of_describes (type : p.type = .ofString policyType) :
    toPolicy p = .ok policy := by
  have bytes : policy.data = p.data.bytes := by
    rw [HexText.bytes]
    simp only [described.data, Option.get_some]
  have listed : p.participants.mapM toParticipant? = some policy.participants := by
    rw [described.directory]
    exact mapM_toParticipant?_eq_some
  exact toPolicy_eq_ok_iff.2 ⟨type, policy.participants, listed, by rw [← bytes]⟩

/-- A policy has the abbreviations of the entry that is about it. -/
theorem map_abbreviation_of_describes :
    p.participants.map (·.abbreviation) = policy.abbreviations.map Text.ofString := by
  rw [described.directory, Approval.Policy.abbreviations, List.map_map, List.map_map]
  rfl

/-- An entry of the right type is in order exactly if the policy that it is about is valid. -/
theorem validate_eq_ok_iff_inOrder (type : p.type = .ofString policyType) :
    policy.validate .expression = .ok () ↔ p.InOrder := by
  have names := map_abbreviation_of_describes described
  -- The entry has texts where the policy has strings; no two strings have one text.
  have mem_names (name : String) :
      Text.ofString name ∈ p.participants.map (·.abbreviation) ↔ name ∈ policy.abbreviations := by
    rw [names, List.mem_map_of_injective fun _ _ => Text.ofString_injective]
  have somebody : p.participants ≠ [] ↔ policy.participants ≠ [] := by
    rw [described.directory, Ne, List.map_eq_nil_iff]
  have once : (p.participants.map (·.abbreviation)).Nodup ↔ policy.abbreviations.Nodup := by
    rw [names, List.nodup_map_iff fun _ _ => Text.ofString_injective]
  rw [Approval.Policy.validate_eq_ok_iff, ← somebody, ← once, Approval.Expression.participants_eq]
  simp only [Outcome.map_eq_ok]
  -- The names that an expression refers to are collected from its tree, those on the leaves.
  constructor
  · rintro ⟨nonempty, distinct, _, ⟨tree, decoded, rfl⟩, referenced⟩
    have wf := (Approval.Expression.decode_eq_ok_iff.1 decoded).2
    refine ⟨type, nonempty, distinct, _, tree, described.data, decoded, ?_⟩
    intro leaf occurs isLeaf
    rw [mem_names]
    apply referenced
    rw [NameSet.mem_ofList]
    exact (Node.mem_signers_iff wf).2 ⟨leaf, occurs, isLeaf, rfl⟩
  · rintro ⟨-, nonempty, distinct, blob, tree, denoted, decoded, listed⟩
    obtain rfl := Option.some.inj (described.data.symm.trans denoted)
    have wf := (Approval.Expression.decode_eq_ok_iff.1 decoded).2
    refine ⟨nonempty, distinct, _, ⟨tree, decoded, rfl⟩, ?_⟩
    intro name referenced
    rw [NameSet.mem_ofList] at referenced
    obtain ⟨leaf, occurs, isLeaf, rfl⟩ := (Node.mem_signers_iff wf).1 referenced
    exact (mem_names leaf.signer).1 (listed leaf occurs isLeaf)

variable (fits : policy.encode.length ≤ Wire.longestPayload)
include fits

/-- An entry in order is built as the envelope that has its id and name and packs its policy. -/
theorem buildPolicy_of_inOrder (inOrder : p.InOrder) :
    buildPolicy p = .ok ⟨p.id, p.name, .of policy⟩ := by
  have made := toPolicy_of_describes described inOrder.type
  have unpacked : (⟨p.id, p.name, .of policy⟩ : Envelope).unpackApproval = .ok policy :=
    Envelope.unpackApproval_of rfl fits
  have valid := (validate_eq_ok_iff_inOrder described inOrder.type).2 inOrder
  exact buildPolicy_eq_ok_iff.2 ⟨policy, policy, made, rfl, unpacked, valid⟩

/-- An entry that is not in order fails with what is reported of it. -/
theorem exists_failsWith (out : ¬ p.InOrder) :
    ∃ fault, p.FailsWith fault ∧ buildPolicy p = .error fault := by
  by_cases type : p.type = .ofString policyType
  · have made := toPolicy_of_describes described type
    have unpacked : (⟨p.id, p.name, .of policy⟩ : Envelope).unpackApproval = .ok policy :=
      Envelope.unpackApproval_of rfl fits
    cases checked : policy.validate .expression with
    | ok _ => exact absurd ((validate_eq_ok_iff_inOrder described type).1 checked) out
    | error fault =>
      refine ⟨.invalid fault, .invalid type described checked, ?_⟩
      simp only [buildPolicy, made, unpacked, checked]
  · -- The type is looked at before anything else.
    have refused : toPolicy p = .error (.unsupportedType p.id p.name.shown p.type.shown) := by
      rw [toPolicy, if_pos type]
    refine ⟨_, .unsupported type, ?_⟩
    simp only [buildPolicy, refused]

omit described fits

/-! ## All entries -/

/-- An entry that packs is built exactly if it is in order. -/
theorem exists_buildPolicy_iff (packs : p.Packs) : (∃ e, buildPolicy p = .ok e) ↔ p.InOrder := by
  obtain ⟨policy, described, fits⟩ := packs
  constructor
  · rintro ⟨e, built⟩
    by_contra out
    obtain ⟨fault, -, failed⟩ := exists_failsWith described fits out
    simp [failed] at built
  · intro inOrder
    exact ⟨_, buildPolicy_of_inOrder described fits inOrder⟩

/-- All entries are built, or the first that is not in order is reported. The envelopes are built if
and only if every entry is in order. There is then one for each entry, in their order, with the
entry's id and name and the type URL of policies, and it unpacks to the policy that the entry is
about. Otherwise the building fails with what is reported of the first entry that is not in order,
whatever comes after it. -/
theorem buildPolicies_eq_ok_or_first (s : Settings) (packs : ∀ p ∈ s.policies, p.Packs) :
    ((∃ envelopes, s.buildPolicies = .ok envelopes) ↔ ∀ p ∈ s.policies, p.InOrder) ∧
    (∀ envelopes, s.buildPolicies = .ok envelopes →
      List.Forall₂ (fun p e => e.id = p.id ∧ e.name = p.name ∧
        e.packed.typeUrl = typeUrlOf Approval.Policy.messageType ∧
        ∃ policy, p.Describes policy ∧ e.unpackApproval = .ok policy) s.policies envelopes) ∧
    ∀ before p later, s.policies = before ++ p :: later →
      (∀ q ∈ before, q.InOrder) → ¬ p.InOrder →
        ∃ fault, p.FailsWith fault ∧
          ∀ rest, { s with policies := before ++ p :: rest }.buildPolicies = .error fault := by
  refine ⟨?_, ?_, ?_⟩
  · rw [buildPolicies, Outcome.exists_mapM_eq_ok_iff]
    exact forall₂_congr fun p mem => exists_buildPolicy_iff (packs p mem)
  · intro envelopes built
    have each := Outcome.mapM_eq_ok.1 built
    refine (List.forall₂_and_left ..).2 ⟨packs, each⟩ |>.imp ?_
    rintro p e ⟨⟨policy, described, fits⟩, built⟩
    have inOrder := (exists_buildPolicy_iff ⟨policy, described, fits⟩).1 ⟨e, built⟩
    have made := buildPolicy_of_inOrder described fits inOrder
    -- The envelope is the one that packs the policy, and that is what it is unpacked to.
    obtain rfl := Except.ok.inj (built.symm.trans made)
    exact ⟨rfl, rfl, rfl, policy, described, Envelope.unpackApproval_of rfl fits⟩
  · intro before p later split ready out
    rw [split] at packs
    obtain ⟨policy, described, fits⟩ := packs p (by simp)
    obtain ⟨fault, reported, failed⟩ := exists_failsWith described fits out
    have succeed : ∀ q ∈ before, ∃ e, buildPolicy q = .ok e := by
      intro q mem
      have packed := packs q (List.mem_append_left _ mem)
      exact (exists_buildPolicy_iff packed).2 (ready q mem)
    exact ⟨fault, reported, fun rest => Outcome.mapM_eq_error_of_first succeed failed rest⟩

/-- The settings of a policy that asks for the one participant that it lists denote its bytes. -/
theorem decode?_single (id : Nat) :
    Hex.decode? (singlePolicy id).data.digits = some singleApproval.data := by
  show Hex.decode? "0803220161".toList = _
  decide +kernel

/-- An entry that is in order is followed by one that lists nobody, and that by one of another type:
it is the one that lists nobody that is reported. -/
theorem buildPolicies_eq_ok_or_first_deserted :
    let deserted : PolicySettings := { singlePolicy 2 with participants := [] }
    let foreign : PolicySettings := { singlePolicy 3 with type := "redbird" }
    (Settings.mk "treasury" [] [singlePolicy 1, deserted, foreign]).buildPolicies =
      .error (.invalid .noParticipants) := by
  intro deserted foreign
  have about : (singlePolicy 1).Describes singleApproval := ⟨decode?_single 1, rfl⟩
  have aboutNobody : deserted.Describes { singleApproval with participants := [] } :=
    ⟨decode?_single 2, rfl⟩
  have aboutForeign : foreign.Describes singleApproval := ⟨decode?_single 3, rfl⟩
  have packs : ∀ p ∈ [singlePolicy 1, deserted, foreign], p.Packs := by
    simp only [List.forall_mem_cons, List.not_mem_nil, false_implies, implies_true, and_true]
    exact ⟨⟨_, about, by decide +kernel⟩, ⟨_, aboutNobody, by decide +kernel⟩,
      ⟨_, aboutForeign, by decide +kernel⟩⟩
  have valid : singleApproval.validate .expression = .ok () :=
    Outcome.eq_ok_of_isOk (by decide +kernel)
  have ready : ∀ q ∈ [singlePolicy 1], q.InOrder := by
    rw [List.forall_mem_singleton]
    exact (validate_eq_ok_iff_inOrder about rfl).1 valid
  have out : ¬ deserted.InOrder := fun inOrder => inOrder.somebody rfl
  obtain ⟨fault, reported, failed⟩ :=
    (buildPolicies_eq_ok_or_first ⟨"treasury", [], _⟩ packs).2.2 [singlePolicy 1] deserted [foreign]
      rfl ready out
  refine (failed [foreign]).trans ?_
  cases reported with
  | unsupported other => exact absurd rfl other
  | @invalid policy fault _ described checked =>
    have nobody : policy.participants = [] := List.map_eq_nil_iff.1 described.directory.symm
    rw [Approval.Policy.validate, nobody] at checked
    obtain rfl := Except.error.inj checked
    rfl

end Settings

end Custody
