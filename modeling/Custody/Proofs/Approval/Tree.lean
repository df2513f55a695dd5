import Custody.Approval.Expression
import Mathlib.Logic.Basic

/-!
# Approval trees

An inner node is satisfied if its `quota` of children is. `WellFormed` says of a tree what its check
does (`check_eq_ok_iff`): leaves name their signers, and inner nodes ask for some of their children,
and for no more than there are. On such trees approval means what it should. It depends on the
signers alone (`approvedBy_congr`), all signers together are always enough (`approvedBy_of_all`),
and without any of them nothing is approved (`not_approvedBy_of_none`). On every tree, one more
approver never takes approval away (`approvedBy_mono`).

All of this goes by induction over trees (`induction_on`), where the functions on the children of a
node are the library's on lists (`signersOfAll_eq`, `countApproved_eq`, `checkAll_eq_ok_iff`).
-/

namespace Custody.Approval.Node

/-- How many of its children an inner node asks for. -/
def quota (kind threshold : UInt32) (children : List Node) : Nat :=
  if kind = allKind then children.length else threshold.toNat

/-- A tree in which every node makes sense. -/
inductive WellFormed : Node → Prop
  /-- A leaf names its signer and has no children. -/
  | leaf {threshold : UInt32} {name : String} : name ≠ "" →
      WellFormed ⟨signerKind, threshold, [], name⟩
  /-- An inner node asks for some of its children, and for no more than there are. -/
  | inner {kind threshold : UInt32} {children : List Node} {name : String} :
      kind = allKind ∨ kind = thresholdKind → 0 < quota kind threshold children →
      quota kind threshold children ≤ children.length → (∀ child ∈ children, WellFormed child) →
      WellFormed ⟨kind, threshold, children, name⟩

/-- What holds of a node whenever it holds of its children holds of every tree. -/
theorem induction_on {motive : Node → Prop}
    (step : ∀ kind threshold children name, (∀ child ∈ children, motive child) →
      motive ⟨kind, threshold, children, name⟩) : ∀ node, motive node
  | ⟨kind, threshold, children, name⟩ =>
    step kind threshold children name fun child _ => induction_on step child
termination_by node => sizeOf node
decreasing_by
  have smaller := List.sizeOf_lt_of_mem ‹child ∈ children›
  rw [Node.mk.sizeOf_spec]
  omega

/-- The kinds of inner nodes are not that of a leaf. -/
theorem ne_signerKind {kind : UInt32} (inner : kind = allKind ∨ kind = thresholdKind) :
    kind ≠ signerKind := by
  rcases inner with rfl | rfl
  · decide
  · decide

/-! ## Functions on children -/

/-- The names below several trees are those below each, in turn. -/
theorem signersOfAll_eq (children : List Node) :
    signersOfAll children = children.flatMap signers := by
  induction children with
  | nil => rfl
  | cons child rest ih => rw [signersOfAll, ih, List.flatMap_cons]

/-- Counting the satisfied trees is counting in a list. -/
theorem countApproved_eq (approvers : NameSet) (children : List Node) :
    countApproved approvers children = children.countP (approvedBy approvers) := by
  induction children with
  | nil => rfl
  | cons child rest ih => rw [countApproved, ih, List.countP_cons, Nat.add_comm]

/-- Several trees pass the check if each of them does. -/
theorem checkAll_eq_ok_iff {children : List Node} :
    checkAll children = .ok () ↔ ∀ child ∈ children, child.check = .ok () := by
  induction children with
  | nil => simp [checkAll]
  | cons child rest ih =>
    rw [checkAll, List.forall_mem_cons, ← ih]
    cases child.check with
    | error flaw => simp
    | ok _ => simp

/-! ## Leaves and inner nodes -/

/-- A leaf holds its own name alone. -/
theorem mem_signers_leaf {threshold : UInt32} {children : List Node} {name signer : String} :
    signer ∈ signers ⟨signerKind, threshold, children, name⟩ ↔ signer = name := by
  rw [signers, if_pos rfl, List.mem_singleton]

/-- An inner node holds the names below its children. -/
theorem mem_signers_inner {kind : UInt32} (inner : kind ≠ signerKind) {threshold : UInt32}
    {children : List Node} {name signer : String} :
    signer ∈ signers ⟨kind, threshold, children, name⟩ ↔
      ∃ child ∈ children, signer ∈ child.signers := by
  rw [signers, if_neg inner, signersOfAll_eq, List.mem_flatMap]

/-- A leaf is satisfied by its signer. -/
theorem approvedBy_leaf (approvers : NameSet) (threshold : UInt32) (children : List Node)
    (name : String) :
    approvedBy approvers ⟨signerKind, threshold, children, name⟩ = decide (name ∈ approvers) := by
  rw [approvedBy, if_pos rfl]

/-- An inner node is satisfied if as many of its children are as it asks for. -/
theorem approvedBy_inner (approvers : NameSet) {kind : UInt32} (inner : kind ≠ signerKind)
    (threshold : UInt32) (children : List Node) (name : String) :
    approvedBy approvers ⟨kind, threshold, children, name⟩ =
      decide (quota kind threshold children ≤ children.countP (approvedBy approvers)) := by
  have bound := List.countP_le_length (p := approvedBy approvers) (l := children)
  rw [approvedBy, if_neg inner, countApproved_eq]
  unfold quota
  by_cases all : kind = allKind
  · -- Asking for all children is asking for as many as there are.
    simp only [if_pos all]
    rw [Bool.eq_iff_iff, beq_iff_eq, decide_eq_true_eq]
    omega
  · simp only [if_neg all]

/-! ## The check -/

/-- A leaf passes the check if it names its signer and has no children. -/
theorem check_leaf {threshold : UInt32} {children : List Node} {name : String} :
    check ⟨signerKind, threshold, children, name⟩ = .ok () ↔ name ≠ "" ∧ children = [] := by
  rw [check, if_pos rfl, ← List.length_eq_zero_iff]
  by_cases unnamed : name = ""
  · simp [unnamed]
  · by_cases childless : children.length = 0
    · simp [unnamed, childless]
    · simp [unnamed, childless]

/-- An inner node passes the check if its kind is known, its quota is some of its children and no
more than there are, and its children pass. -/
theorem check_inner {kind threshold : UInt32} (inner : kind ≠ signerKind) {children : List Node}
    {name : String} :
    check ⟨kind, threshold, children, name⟩ = .ok () ↔
      (kind = allKind ∨ kind = thresholdKind) ∧ 0 < quota kind threshold children ∧
        quota kind threshold children ≤ children.length ∧
        ∀ child ∈ children, child.check = .ok () := by
  rw [check, if_neg inner, ← checkAll_eq_ok_iff]
  unfold quota
  by_cases all : kind = allKind
  · have other : allKind ≠ thresholdKind := by decide
    subst all
    by_cases childless : children.length = 0
    · simp [childless]
    · simp [other, childless, Nat.pos_of_ne_zero childless]
  · by_cases some : kind = thresholdKind
    · subst some
      by_cases childless : children.length = 0
      · simp [all, childless]
        omega
      · by_cases range : 0 < threshold.toNat ∧ threshold.toNat ≤ children.length
        · simp [all, childless, range]
        · rw [if_neg (by simp), if_neg childless, if_pos ⟨rfl, range⟩, if_neg all]
          constructor
          · simp
          · rintro ⟨-, positive, enough, -⟩
            exact absurd ⟨positive, enough⟩ range
    · simp [all, some]

/-- A tree passes the check exactly if every node of it makes sense. -/
theorem check_eq_ok_iff {node : Node} : node.check = .ok () ↔ node.WellFormed := by
  induction node using induction_on with
  | step kind threshold children name ih =>
    have below : (∀ child ∈ children, child.check = .ok ()) ↔
        ∀ child ∈ children, child.WellFormed := forall₂_congr ih
    by_cases leaf : kind = signerKind
    · subst leaf
      rw [check_leaf]
      constructor
      · rintro ⟨named, rfl⟩
        exact .leaf named
      · intro wf
        cases wf with
        | leaf named => exact ⟨named, rfl⟩
        | inner known _ _ _ => exact absurd rfl (ne_signerKind known)
    · rw [check_inner leaf, below]
      constructor
      · rintro ⟨known, positive, enough, wf⟩
        exact .inner known positive enough wf
      · intro wf
        cases wf with
        | leaf named => exact absurd rfl leaf
        | inner known positive enough wf => exact ⟨known, positive, enough, wf⟩

/-! ## Approval -/

/-- Whether a tree is satisfied depends only on which of its signers approve. -/
theorem approvedBy_congr {s t : NameSet} {node : Node}
    (agree : ∀ name ∈ node.signers, (name ∈ s ↔ name ∈ t)) :
    node.approvedBy s = node.approvedBy t := by
  induction node using induction_on with
  | step kind threshold children name ih =>
    by_cases leaf : kind = signerKind
    · subst leaf
      have same := agree name (mem_signers_leaf.2 rfl)
      rw [approvedBy_leaf, approvedBy_leaf, decide_eq_decide]
      exact same
    · have same : ∀ child ∈ children, child.approvedBy s = child.approvedBy t := by
        intro child mem
        apply ih child mem
        intro signer below
        exact agree signer ((mem_signers_inner leaf).2 ⟨child, mem, below⟩)
      have count : children.countP (approvedBy s) = children.countP (approvedBy t) :=
        List.countP_congr fun child mem => by rw [same child mem]
      rw [approvedBy_inner s leaf, approvedBy_inner t leaf, count]

/-- A tree that some approvers satisfy is satisfied by more of them. -/
theorem approvedBy_mono {s t : NameSet} (subset : ∀ name ∈ s, name ∈ t) {node : Node}
    (satisfied : node.approvedBy s = true) : node.approvedBy t = true := by
  induction node using induction_on with
  | step kind threshold children name ih =>
    by_cases leaf : kind = signerKind
    · subst leaf
      rw [approvedBy_leaf, decide_eq_true_eq] at satisfied ⊢
      exact subset name satisfied
    · rw [approvedBy_inner _ leaf, decide_eq_true_eq] at satisfied ⊢
      -- Every child that is satisfied stays so, and the node asks for as many as before.
      exact Nat.le_trans satisfied (List.countP_mono_left ih)

/-- A tree is satisfied if all of its signers approve. -/
theorem approvedBy_of_all {approvers : NameSet} {node : Node} (wf : node.WellFormed)
    (all : ∀ name ∈ node.signers, name ∈ approvers) : node.approvedBy approvers = true := by
  induction wf with
  | @leaf threshold name named =>
    have approves := all name (mem_signers_leaf.2 rfl)
    rw [approvedBy_leaf, decide_eq_true_eq]
    exact approves
  | @inner kind threshold children name known positive enough wf ih =>
    have inner := ne_signerKind known
    -- Every child is satisfied, and the node does not ask for more than there are.
    have count : children.countP (approvedBy approvers) = children.length := by
      rw [List.countP_eq_length]
      intro child mem
      apply ih child mem
      intro signer below
      exact all signer ((mem_signers_inner inner).2 ⟨child, mem, below⟩)
    rw [approvedBy_inner approvers inner, count, decide_eq_true_eq]
    exact enough

/-- A well-formed tree has signers. -/
theorem signers_ne_nil {node : Node} (wf : node.WellFormed) : node.signers ≠ [] := by
  induction wf with
  | @leaf threshold name named =>
    rw [signers, if_pos rfl]
    exact List.cons_ne_nil _ _
  | @inner kind threshold children name known positive enough wf ih =>
    -- The node asks for a child, so it has one, and that has signers.
    obtain ⟨child, mem⟩ := List.exists_mem_of_length_pos (Nat.lt_of_lt_of_le positive enough)
    obtain ⟨signer, below⟩ := List.exists_mem_of_ne_nil _ (ih child mem)
    exact List.ne_nil_of_mem ((mem_signers_inner (ne_signerKind known)).2 ⟨child, mem, below⟩)

/-- A tree is not satisfied if none of its signers approves. -/
theorem not_approvedBy_of_none {approvers : NameSet} {node : Node} (wf : node.WellFormed)
    (none : ∀ name ∈ node.signers, name ∉ approvers) : node.approvedBy approvers = false := by
  induction wf with
  | @leaf threshold name named =>
    have lacks := none name (mem_signers_leaf.2 rfl)
    rw [approvedBy_leaf, decide_eq_false_iff_not]
    exact lacks
  | @inner kind threshold children name known positive enough wf ih =>
    have inner := ne_signerKind known
    -- No child is satisfied, and the node asks for some.
    have count : children.countP (approvedBy approvers) = 0 := by
      rw [List.countP_eq_zero]
      intro child mem
      rw [Bool.not_eq_true]
      apply ih child mem
      intro signer below
      exact none signer ((mem_signers_inner inner).2 ⟨child, mem, below⟩)
    rw [approvedBy_inner approvers inner, count, decide_eq_false_iff_not]
    omega

end Custody.Approval.Node
