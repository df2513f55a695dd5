import Custody.Proofs.Approval.Outcomes
import Custody.Proofs.Approval.Tree
import Custody.Proofs.Outcome

/-!
# Valid policies are safe to verify

`validate_eq_ok_iff` says when a policy is valid for an evaluator: its directory lists somebody,
nobody twice, and everyone to whom the expression refers. For the evaluator of approval expressions
this leaves a tree whose every node makes sense and whose signers are all listed
(`exists_tree_of_validate`), and verifying is asking whether that tree is satisfied
(`verify_eq_of_decode`).

`verify_of_validate` puts the two together: names outside of the directory neither grant nor block
approval, everyone in it is always enough, and nobody in it never is.
-/

namespace Custody

namespace NameSet

/-- The members of one set that are in another, too. -/
def inter (s t : NameSet) : NameSet where
  toList := s.toList.filter (· ∈ t)
  ordered := s.ordered.filter _

/-- The intersection has the members that both sets have. -/
@[simp] theorem mem_inter {name : String} {s t : NameSet} :
    name ∈ s.inter t ↔ name ∈ s ∧ name ∈ t := by
  simp [mem_def, inter]

end NameSet

namespace Approval

/-- Bytes are read as the trees that they are a message of and in which every node makes sense. -/
theorem Expression.decode_eq_ok_iff {blob : Bytes} {node : Node} :
    decode blob = .ok node ↔ Node.decode blob = .ok node ∧ node.WellFormed := by
  simp only [decode, Outcome.bind_eq_ok, Outcome.mapError_eq_ok, Except.ok.injEq]
  constructor
  · rintro ⟨node', read, ⟨⟩, checked, rfl⟩
    exact ⟨read, Node.check_eq_ok_iff.1 checked⟩
  · rintro ⟨read, wf⟩
    exact ⟨node, read, (), Node.check_eq_ok_iff.2 wf, rfl⟩

namespace Policy

/-- A directory lists nobody twice exactly if its abbreviations are distinct. -/
theorem nodup_iff_not_repeats {p : Policy} :
    p.abbreviations.Nodup ↔ ¬∃ name, p.Repeats name := by
  unfold Repeats
  simp only [List.nodup_iff_count, not_exists, Nat.not_le, Nat.lt_succ_iff]

/-- A policy is valid for an evaluator exactly if its directory lists somebody, nobody twice, and
everyone to whom the evaluator says that the expression refers. -/
theorem validate_eq_ok_iff {ε : Type} {e : Evaluator ε} {p : Policy} :
    p.validate e = .ok () ↔
      p.participants ≠ [] ∧ p.abbreviations.Nodup ∧
        ∃ referenced, e.participants p.data = .ok referenced ∧
          ∀ name ∈ referenced, name ∈ p.abbreviations := by
  rw [nodup_iff_not_repeats]
  constructor
  · intro valid
    have ends := validates_validate e p
    rw [valid] at ends
    cases ends with
    | valid order told none =>
      refine ⟨order.somebody, order.once, _, told, fun name refers => ?_⟩
      by_contra out
      exact none ⟨name, refers, out⟩
  · rintro ⟨somebody, once, referenced, told, listed⟩
    refine Validates.validate_eq (.valid ⟨somebody, once⟩ told ?_)
    rintro ⟨name, refers, out⟩
    exact out (listed name refers)

/-- A valid policy's expression is a tree whose every node makes sense and whose signers the
directory lists. -/
theorem exists_tree_of_validate {p : Policy} (valid : p.validate .expression = .ok ()) :
    ∃ node, Expression.decode p.data = .ok node ∧ node.WellFormed ∧
      ∀ name ∈ node.signers, name ∈ p.abbreviations := by
  obtain ⟨-, -, referenced, participants, listed⟩ := validate_eq_ok_iff.1 valid
  have read : Expression.participants p.data = .ok referenced := participants
  rw [Expression.participants, Outcome.bind_eq_ok] at read
  obtain ⟨node, decoded, eq⟩ := read
  obtain rfl := Except.ok.inj eq
  refine ⟨node, decoded, (Expression.decode_eq_ok_iff.1 decoded).2, ?_⟩
  intro name signer
  exact listed name (NameSet.mem_ofList.2 signer)

/-- Verifying succeeds exactly if the evaluator says that the approvers satisfy the expression. -/
theorem verify_eq_ok_iff {ε : Type} {e : Evaluator ε} {p : Policy} {approvers : NameSet}
    {payload : Payload} :
    p.verify e approvers payload = .ok () ↔ e.evaluate p.data approvers payload = .ok true := by
  rw [verify]
  cases e.evaluate p.data approvers payload with
  | error failure => simp
  | ok answer =>
    cases answer with
    | false => simp
    | true => simp

/-- Where an expression is read as a tree, verifying is asking whether the tree is satisfied. -/
theorem verify_eq_of_decode {p : Policy} {node : Node}
    (decoded : Expression.decode p.data = .ok node) (approvers : NameSet) (payload : Payload) :
    p.verify .expression approvers payload =
      if node.approvedBy approvers then .ok () else .error (.notSatisfied approvers.toList) := by
  have evaluated : Evaluator.expression.evaluate p.data approvers payload =
      .ok (node.approvedBy approvers) := by
    show Expression.evaluate p.data approvers = _
    rw [Expression.evaluate, decoded, Outcome.ok_bind]
  rw [verify, evaluated]
  cases node.approvedBy approvers with
  | false => rfl
  | true => rfl

section

variable {p : Policy} (valid : p.validate .expression = .ok ())
include valid

/-- Verifying a valid policy succeeds, or fails because the approvers do not satisfy the
expression. -/
theorem verify_eq_ok_or (approvers : NameSet) (payload : Payload) :
    p.verify .expression approvers payload = .ok () ∨
      p.verify .expression approvers payload = .error (.notSatisfied approvers.toList) := by
  obtain ⟨node, decoded, -, -⟩ := exists_tree_of_validate valid
  rw [verify_eq_of_decode decoded]
  cases node.approvedBy approvers with
  | false => exact .inr rfl
  | true => exact .inl rfl

/-- Sets of approvers that agree on whom the directory lists are alike to a valid policy. -/
theorem verify_congr {s t : NameSet} (agree : ∀ name ∈ p.abbreviations, (name ∈ s ↔ name ∈ t))
    (payload : Payload) :
    p.verify .expression s payload = .ok () ↔ p.verify .expression t payload = .ok () := by
  obtain ⟨node, decoded, -, listed⟩ := exists_tree_of_validate valid
  have same : node.approvedBy s = node.approvedBy t :=
    Node.approvedBy_congr fun name signer => agree name (listed name signer)
  rw [verify_eq_of_decode decoded, verify_eq_of_decode decoded, same]
  cases node.approvedBy t with
  | false => simp
  | true => simp

/-- Everyone whom the directory lists is enough for a valid policy. -/
theorem verify_of_all {approvers : NameSet} (all : ∀ name ∈ p.abbreviations, name ∈ approvers)
    (payload : Payload) : p.verify .expression approvers payload = .ok () := by
  obtain ⟨node, decoded, wf, listed⟩ := exists_tree_of_validate valid
  have satisfied : node.approvedBy approvers = true :=
    Node.approvedBy_of_all wf fun name signer => all name (listed name signer)
  rw [verify_eq_of_decode decoded, satisfied]
  rfl

/-- Approvers of whom the directory lists nobody are never enough for a valid policy. -/
theorem verify_of_none {approvers : NameSet} (none : ∀ name ∈ p.abbreviations, name ∉ approvers)
    (payload : Payload) :
    p.verify .expression approvers payload = .error (.notSatisfied approvers.toList) := by
  obtain ⟨node, decoded, wf, listed⟩ := exists_tree_of_validate valid
  have lacking : node.approvedBy approvers = false :=
    Node.not_approvedBy_of_none wf fun name signer => none name (listed name signer)
  rw [verify_eq_of_decode decoded, lacking]
  rfl

/-- A valid policy is safe to verify with the evaluator of approval expressions. Verifying succeeds,
or fails because the approvers do not satisfy the expression; names that the directory does not
list make no difference; everyone whom it lists is always enough; and nobody whom it lists, as when
nobody approves at all, never is. -/
theorem verify_of_validate (approvers : NameSet) (payload : Payload) :
    let directory := NameSet.ofList p.abbreviations
    (p.verify .expression approvers payload = .ok () ∨
      p.verify .expression approvers payload = .error (.notSatisfied approvers.toList)) ∧
    (p.verify .expression approvers payload = .ok () ↔
      p.verify .expression (approvers.inter directory) payload = .ok ()) ∧
    p.verify .expression directory payload = .ok () ∧
    ((∀ name ∈ approvers, name ∉ directory) →
      p.verify .expression approvers payload = .error (.notSatisfied approvers.toList)) ∧
    p.verify .expression (.ofList []) payload = .error (.notSatisfied []) := by
  intro directory
  refine ⟨verify_eq_ok_or valid approvers payload, ?_, ?_, ?_, ?_⟩
  · apply verify_congr valid
    intro name listed
    rw [NameSet.mem_inter]
    exact (and_iff_left (NameSet.mem_ofList.2 listed)).symm
  · apply verify_of_all valid
    intro name listed
    exact NameSet.mem_ofList.2 listed
  · intro outside
    apply verify_of_none valid
    intro name listed approves
    exact outside name approves (NameSet.mem_ofList.2 listed)
  · apply verify_of_none valid
    intro name _ approves
    simp at approves

end

/-- A policy that asks for either of two participants and lists both: the two together are enough,
and a stranger is not. -/
theorem verify_of_validate_either :
    let p : Policy := ⟨(Node.anyOf [.ofSigner "foo", .ofSigner "bar"]).encode,
      [⟨"foo", "first address"⟩, ⟨"bar", "second address"⟩]⟩
    p.validate .expression = .ok () ∧
      p.verify .expression (.ofList ["foo", "bar"]) {} = .ok () ∧
      p.verify .expression (.ofList ["eve"]) {} = .error (.notSatisfied ["eve"]) := by
  intro p
  have valid : p.validate .expression = .ok () := Outcome.eq_ok_of_isOk (by decide +kernel)
  obtain ⟨-, -, all, outside, -⟩ := verify_of_validate valid (.ofList ["eve"]) {}
  refine ⟨valid, all, outside ?_⟩
  decide

end Policy

end Approval

end Custody
