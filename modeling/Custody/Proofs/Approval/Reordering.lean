import Custody.Proofs.Approval.Approvers
import Custody.Proofs.Approval.Outcomes
import Mathlib.Logic.Relation

/-!
# Order does not matter

`Node.Reorders` puts the children of one node of a tree into another order, at any depth; a tree is
reordered by any number of such steps. Of what is known of a tree, `Node.SameUpToOrder` collects all
that a step keeps: whether the tree makes sense, how deep and how long it is, whose names it holds
how often, and who satisfies it. The node that is reordered keeps this because its children are the
same but for their order (`SameChildren.of_perm`), and each node above it because one of its
children keeps it (`SameChildren.of_replaced`).

The bytes of a reordered tree are others, but `Policy.reordered_alike` shows that an evaluator, and
a policy whose directory is reordered as well, cannot tell.
-/

namespace Custody.Approval

namespace Node

/-- One node of a tree has its children in another order. -/
inductive Reorders : Node → Node → Prop
  /-- It is the root. -/
  | root {kind threshold : UInt32} {children children' : List Node} {name : String} :
      children.Perm children' →
      Reorders ⟨kind, threshold, children, name⟩ ⟨kind, threshold, children', name⟩
  /-- It is in the tree of one of the root's children. -/
  | under {kind threshold : UInt32} {before after : List Node} {child child' : Node}
      {name : String} : Reorders child child' →
      Reorders ⟨kind, threshold, before ++ child :: after, name⟩
        ⟨kind, threshold, before ++ child' :: after, name⟩

/-- What a tree and a reordered one have in common. -/
structure SameUpToOrder (node node' : Node) : Prop where
  wellFormed : node.WellFormed → node'.WellFormed
  levels : node.levels = node'.levels
  length : node.encode.length = node'.encode.length
  signers : node.signers.Perm node'.signers
  approvedBy : ∀ s, node.approvedBy s = node'.approvedBy s

/-- What the children of a node and those of a reordered one have in common. -/
structure SameChildren (children children' : List Node) : Prop where
  count : children.length = children'.length
  wellFormed : (∀ child ∈ children, child.WellFormed) → ∀ child ∈ children', child.WellFormed
  levels : levelsOf children = levelsOf children'
  length : (encodeChildren children).length = (encodeChildren children').length
  signers : (signersOfAll children).Perm (signersOfAll children')
  approved : ∀ s, countApproved s children = countApproved s children'

/-- A tree is like itself. -/
theorem SameUpToOrder.refl (node : Node) : SameUpToOrder node node :=
  ⟨id, rfl, rfl, .refl _, fun _ => rfl⟩

/-- What is like a tree that is like another is like the other. -/
theorem SameUpToOrder.trans {node node' node'' : Node} (same : SameUpToOrder node node')
    (same' : SameUpToOrder node' node'') : SameUpToOrder node node'' where
  wellFormed wf := same'.wellFormed (same.wellFormed wf)
  levels := same.levels.trans same'.levels
  length := same.length.trans same'.length
  signers := same.signers.trans same'.signers
  approvedBy s := (same.approvedBy s).trans (same'.approvedBy s)

/-! ## Children -/

/-- Children in another order have all in common. -/
theorem SameChildren.of_perm {children children' : List Node} (perm : children.Perm children') :
    SameChildren children children' where
  count := perm.length_eq
  wellFormed wf child mem := wf child (perm.mem_iff.2 mem)
  levels := eq_of_forall_ge_iff fun n => by
    rw [levelsOf_le_iff, levelsOf_le_iff]
    exact forall_congr' fun child => imp_congr_left perm.mem_iff
  length := by
    rw [encodeChildren_eq, encodeChildren_eq]
    exact (perm.flatMap_right _).length_eq
  signers := by
    rw [signersOfAll_eq, signersOfAll_eq]
    exact perm.flatMap_right _
  approved s := by
    rw [countApproved_eq, countApproved_eq]
    exact perm.countP_eq _

/-- Children of which one is replaced by one that is like it have all in common. -/
theorem SameChildren.of_replaced (before after : List Node) {child child' : Node}
    (same : SameUpToOrder child child') :
    SameChildren (before ++ child :: after) (before ++ child' :: after) where
  count := by rw [List.length_append, List.length_append, List.length_cons, List.length_cons]
  wellFormed wf := by
    rw [List.forall_mem_append, List.forall_mem_cons] at wf ⊢
    obtain ⟨front, wf, back⟩ := wf
    exact ⟨front, same.wellFormed wf, back⟩
  levels := eq_of_forall_ge_iff fun n => by
    rw [levelsOf_le_iff, levelsOf_le_iff, List.forall_mem_append, List.forall_mem_append,
      List.forall_mem_cons, List.forall_mem_cons, same.levels]
  length := by
    simp only [encodeChildren_eq, List.flatMap_append, List.flatMap_cons, List.length_append,
      Wire.length_writeBytes_congr 3 same.length]
  signers := by
    simp only [signersOfAll_eq, List.flatMap_append, List.flatMap_cons]
    exact (same.signers.append_right _).append_left _
  approved s := by
    simp only [countApproved_eq, List.countP_append, List.countP_cons, same.approvedBy s]

/-! ## Trees -/

/-- Nodes that differ in their children alone, which have all in common, are alike. -/
theorem SameUpToOrder.of_children {kind threshold : UInt32} {children children' : List Node}
    {name : String} (same : SameChildren children children') :
    SameUpToOrder ⟨kind, threshold, children, name⟩ ⟨kind, threshold, children', name⟩ := by
  refine ⟨fun wf => ?_, ?_, ?_, ?_, fun s => ?_⟩
  · cases wf with
    | leaf named =>
      -- There are no children to be reordered.
      obtain rfl := List.length_eq_zero_iff.1 same.count.symm
      exact .leaf named
    | inner known positive enough wf =>
      have quota : quota kind threshold children' = quota kind threshold children := by
        unfold quota
        rw [same.count]
      refine .inner known ?_ ?_ (same.wellFormed wf)
      · rwa [quota]
      · rwa [quota, ← same.count]
  · rw [Node.levels, Node.levels, same.levels]
  · simp only [encode, List.length_append, same.length]
  · rw [Node.signers, Node.signers]
    split
    · exact .refl _
    · exact same.signers
  · rw [Node.approvedBy, Node.approvedBy, same.approved s, same.count]

/-- A tree and one in which one node is reordered are alike. -/
theorem Reorders.same {node node' : Node} (reorders : node.Reorders node') :
    SameUpToOrder node node' := by
  induction reorders with
  | root perm => exact .of_children (.of_perm perm)
  | under reorders ih => exact .of_children (.of_replaced _ _ ih)

/-- A tree and a reordered one are alike. -/
theorem same_of_reordered {node node' : Node}
    (reordered : Relation.ReflTransGen Reorders node node') : SameUpToOrder node node' := by
  induction reordered with
  | refl => exact .refl node
  | tail _ reorders ih => exact ih.trans reorders.same

end Node

namespace Policy

/-- The order of children and of participants makes no difference. A reordered tree can be written
if the tree can, in as many bytes. Both refer to the same names, and the same approvers satisfy
them; policies of the two, with directories that are the same but for their order, are validated
with the same outcome, and verified with the same outcome for all approvers. -/
theorem reordered_alike {tree tree' : Node} {blob : Bytes} {directory directory' : List Participant}
    (wf : tree.WellFormed) (written : tree.encode? = some blob)
    (fits : blob.length ≤ Wire.longestPayload)
    (reordered : Relation.ReflTransGen Node.Reorders tree tree')
    (permuted : directory.Perm directory') :
    ∃ blob', tree'.encode? = some blob' ∧ blob'.length = blob.length ∧
      (∃ names, Evaluator.expression.participants blob = .ok names ∧
        Evaluator.expression.participants blob' = .ok names) ∧
      (∀ s payload, ∃ answer, Evaluator.expression.evaluate blob s payload = .ok answer ∧
        Evaluator.expression.evaluate blob' s payload = .ok answer) ∧
      (⟨blob, directory⟩ : Policy).validate .expression =
        (⟨blob', directory'⟩ : Policy).validate .expression ∧
      ∀ s payload, (⟨blob, directory⟩ : Policy).verify .expression s payload =
        (⟨blob', directory'⟩ : Policy).verify .expression s payload := by
  have same := Node.same_of_reordered reordered
  have decoded := Expression.decode_of_written wf written fits
  unfold Node.encode? at written
  split at written
  · next shallow =>
    obtain rfl := Option.some.inj written
    -- Both messages are read back, and what is asked of them is asked of the two trees.
    have written' : tree'.encode? = some tree'.encode := if_pos (same.levels ▸ shallow)
    have decoded' := Expression.decode_of_written (same.wellFormed wf) written'
      (same.length ▸ fits)
    have names : NameSet.ofList tree.signers = .ofList tree'.signers := by
      ext name
      rw [NameSet.mem_ofList, NameSet.mem_ofList, same.signers.mem_iff]
    have participants := Expression.participants_of_decode decoded
    have participants' := Expression.participants_of_decode decoded'
    rw [← names] at participants'
    have evaluated := Expression.evaluate_of_decode decoded
    have evaluated' : ∀ s payload, Evaluator.expression.evaluate tree'.encode s payload =
        .ok (tree.approvedBy s) := fun s payload => by
      rw [Expression.evaluate_of_decode decoded', same.approvedBy]
    refine ⟨_, written', same.length.symm, ⟨_, participants, participants'⟩,
      fun s payload => ⟨_, evaluated s payload, evaluated' s payload⟩, ?_, fun s payload => ?_⟩
    · exact validate_congr (permuted.map _) (participants.trans participants'.symm)
    · simp only [verify, evaluated, evaluated']
  · simp at written

/-- A tree of which the root and a node below it are reordered has another message. The participant
whom the directory lacks is found missing from both, and the same approvers are not enough. -/
theorem reordered_alike_nested :
    let tree := Node.atLeast 2 [.ofSigner "foo", .allOf [.ofSigner "bar", .ofSigner "baz"]]
    let tree' := Node.atLeast 2 [.allOf [.ofSigner "baz", .ofSigner "bar"], .ofSigner "foo"]
    let p : Policy := ⟨tree.encode, [⟨"foo", "first address"⟩, ⟨"bar", "second address"⟩]⟩
    let p' : Policy := ⟨tree'.encode, [⟨"bar", "second address"⟩, ⟨"foo", "first address"⟩]⟩
    p.data ≠ p'.data ∧
      p.validate .expression = p'.validate .expression ∧
      (p.validate .expression).mapError (ValidateFault.message Flaw.message) =
        .error "policy references participants missing from the directory: baz" ∧
      p.verify .expression (.ofList ["foo", "bar"]) {} =
        p'.verify .expression (.ofList ["foo", "bar"]) {} ∧
      (p.verify .expression (.ofList ["foo", "bar"]) {}).mapError
        (VerifyFault.message Flaw.message) =
          .error "policy not satisfied by approvers: bar, foo" := by
  intro tree tree' p p'
  have wf : tree.WellFormed := Node.check_eq_ok_iff.1 (Outcome.eq_ok_of_isOk (by decide +kernel))
  have written : tree.encode? = some tree.encode := if_pos (by decide +kernel)
  have reordered : Relation.ReflTransGen Node.Reorders tree tree' := by
    -- The children of the second child first, and then those of the root.
    have lower : Node.Reorders (.allOf [.ofSigner "bar", .ofSigner "baz"])
        (.allOf [.ofSigner "baz", .ofSigner "bar"]) := .root (.swap ..)
    have upper : Node.Reorders (.atLeast 2 [.ofSigner "foo",
        .allOf [.ofSigner "baz", .ofSigner "bar"]]) tree' := .root (.swap ..)
    exact .tail (.single (@Node.Reorders.under _ _ [.ofSigner "foo"] [] _ _ _ lower)) upper
  have permuted : p.participants.Perm p'.participants := .swap ..
  obtain ⟨blob', written', -, -, -, validated, verified⟩ :=
    reordered_alike wf written (by decide +kernel) reordered permuted
  have same : tree'.encode? = some tree'.encode := if_pos (by decide +kernel)
  obtain rfl : tree'.encode = blob' := Option.some.inj (same.symm.trans written')
  exact ⟨by decide +kernel, validated, by decide +kernel, verified _ _, by decide +kernel⟩

end Policy

end Custody.Approval
