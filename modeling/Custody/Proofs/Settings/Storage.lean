import Custody.Proofs.Envelope.Storage
import Custody.Settings.Build

/-!
# Storing the policies of settings

Building a policy's envelope looks at the type, the directory and the expression
(`buildPolicy_eq_ok_iff`). It does not look at the id and the name: a policy that is built under one
id and name is built under every other (`buildPolicy_relabel`), though not every id and name has a
written form. `buildPolicies_storable_iff` says which of the envelopes that are built can be stored:
those whose id was set below `2^64` and whose name is a string. `single_unstorable` has one that
cannot.
-/

namespace Custody.Settings

/-! ## Building -/

/-- A policy is made of settings of the one type that there is, if both texts of each participant
are strings. -/
theorem toPolicy_eq_ok_iff {p : PolicySettings} {policy : Approval.Policy} :
    toPolicy p = .ok policy ↔
      p.type = .ofString policyType ∧ ∃ participants,
        p.participants.mapM toParticipant? = some participants ∧
        policy = ⟨p.data.bytes, participants⟩ := by
  rw [toPolicy]
  by_cases type : p.type = .ofString policyType
  · rw [if_neg (not_not_intro type)]
    cases p.participants.mapM toParticipant? with
    | none => simp
    | some participants =>
      simp only [Except.ok.injEq, type, true_and, Option.some.injEq, exists_eq_left']
      exact eq_comm
  · rw [if_pos type]
    exact iff_of_false (by simp) fun made => type made.1

/-- An envelope is built from settings exactly if it has their id and name and packs their policy,
and the policy that is read back from it is valid. -/
theorem buildPolicy_eq_ok_iff {p : PolicySettings} {e : Envelope} :
    buildPolicy p = .ok e ↔
      ∃ policy stored, toPolicy p = .ok policy ∧ e = ⟨p.id, p.name, .of policy⟩ ∧
        e.unpackApproval = .ok stored ∧ stored.validate .expression = .ok () := by
  rw [buildPolicy]
  constructor
  · intro built
    split at built
    · simp at built
    · next policy made =>
      simp only at built
      split at built
      · simp at built
      · next stored unpacked =>
        split at built
        · simp at built
        · next valid =>
          obtain rfl := Except.ok.inj built
          exact ⟨policy, stored, made, rfl, unpacked, valid⟩
  · rintro ⟨policy, stored, made, rfl, unpacked, valid⟩
    simp only [made, unpacked, valid]

/-- A policy that is built under one id and name is built under every other. -/
theorem buildPolicy_relabel {p : PolicySettings} {e : Envelope} (built : buildPolicy p = .ok e)
    (id : Nat) (name : Text) : buildPolicy { p with id, name } = .ok { e with id, name } := by
  obtain ⟨policy, stored, made, rfl, unpacked, valid⟩ := buildPolicy_eq_ok_iff.1 built
  obtain ⟨type, participants, listed, rfl⟩ := toPolicy_eq_ok_iff.1 made
  have remade : toPolicy { p with id, name } = .ok ⟨p.data.bytes, participants⟩ :=
    toPolicy_eq_ok_iff.2 ⟨type, participants, listed, rfl⟩
  exact buildPolicy_eq_ok_iff.2 ⟨_, stored, remade, rfl, unpacked, valid⟩

/-! ## Storing -/

/-- An envelope that is built can be written, and what is written is read as the envelope, exactly
if the policy was set with an id below `2^64` and a name that is a string. The envelopes are those
of the policies, in their order. -/
theorem buildPolicies_storable_iff {s : Settings} {envelopes : List Envelope}
    (built : s.buildPolicies = .ok envelopes) :
    List.Forall₂ (fun p e => e.id = p.id ∧ e.name = p.name ∧
      ((∃ raw, e.encode = .ok raw ∧
          (raw.length ≤ Wire.longestPayload → Envelope.decode raw = .ok e)) ↔
        p.id < 2 ^ 64 ∧ ∃ name : String, p.name = .ofString name)) s.policies envelopes := by
  refine (Outcome.mapM_eq_ok.1 built).imp fun p e built => ?_
  -- That it was built says nothing of the id and the name but that the envelope has them.
  obtain ⟨policy, -, -, rfl, -, -⟩ := buildPolicy_eq_ok_iff.1 built
  refine ⟨rfl, rfl, ?_, ?_⟩
  · rintro ⟨raw, written, -⟩
    obtain ⟨small, name, named, -⟩ := Envelope.encode_eq_ok_iff.1 written
    exact ⟨small, name, named⟩
  · rintro ⟨small, name, named⟩
    have written := Envelope.encode_eq_ok_iff (e := ⟨p.id, p.name, .of policy⟩).2
      ⟨small, name, named, rfl⟩
    exact ⟨_, written, fun fits => Envelope.decode_encode written fits⟩

/-- A policy that asks for the one participant that it lists. -/
def singleApproval : Approval.Policy where
  data := (Approval.Node.ofSigner "a").encode
  participants := [⟨"a", "first address"⟩]

/-- Its settings, under some id. -/
def singlePolicy (id : Nat) : PolicySettings where
  id
  name := "withdrawals"
  type := policyType
  data := ⟨"0803220161".toList, by decide⟩
  participants := [⟨"a", "first address"⟩]

/-- Its envelope. -/
def singleEnvelope (id : Nat) : Envelope where
  id
  name := "withdrawals"
  packed := .of singleApproval

/-- The envelope is built from settings of that policy, whatever the id. -/
theorem buildPolicies_single (id : Nat) :
    (Settings.mk "treasury" [] [singlePolicy id]).buildPolicies = .ok [singleEnvelope id] := by
  have zero : buildPolicy (singlePolicy 0) = .ok (singleEnvelope 0) := by
    have made : toPolicy (singlePolicy 0) = .ok singleApproval :=
      toPolicy_eq_ok_iff.2 ⟨rfl, singleApproval.participants, by decide +kernel, by decide +kernel⟩
    have unpacked := Envelope.unpackApproval_of (e := singleEnvelope 0) rfl (by decide +kernel)
    have valid : singleApproval.validate .expression = .ok () :=
      Outcome.eq_ok_of_isOk (by decide +kernel)
    exact buildPolicy_eq_ok_iff.2 ⟨_, _, made, rfl, unpacked, valid⟩
  exact Outcome.mapM_eq_ok.2 (.cons (buildPolicy_relabel zero id _) .nil)

/-- Under the largest id that can be written, the policy is stored. -/
theorem buildPolicies_storable_iff_single :
    let e := singleEnvelope (2 ^ 64 - 1)
    (Settings.mk "treasury" [] [singlePolicy (2 ^ 64 - 1)]).buildPolicies = .ok [e] ∧
      ∃ raw, e.encode = .ok raw ∧
        (raw.length ≤ Wire.longestPayload → Envelope.decode raw = .ok e) := by
  intro e
  have built := buildPolicies_single (2 ^ 64 - 1)
  refine ⟨built, ?_⟩
  obtain ⟨⟨-, -, storable⟩, -⟩ := List.forall₂_cons.1 (buildPolicies_storable_iff built)
  exact storable.2 ⟨by decide, "withdrawals", rfl⟩

/-- Under the next id the policy is built, but it cannot be stored. -/
theorem single_unstorable :
    (Settings.mk "treasury" [] [singlePolicy (2 ^ 64)]).buildPolicies =
        .ok [singleEnvelope (2 ^ 64)] ∧
      (singleEnvelope (2 ^ 64)).encode = .error (.idTooLarge (2 ^ 64)) :=
  ⟨buildPolicies_single (2 ^ 64), if_pos (by decide)⟩

end Custody.Settings
