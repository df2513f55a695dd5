import Custody.Proofs.Approval.RoundTrip
import Custody.Proofs.Approval.Verification

/-!
# What approval expressions mean

The meaning of a tree is said here without the functions that read, check and count. `Sound` says of
one node that it makes sense, `OccursIn` which nodes a tree has, and `Grants` when approvers satisfy
it: a leaf by the one it names, a node that asks for all by satisfying each child, and a node that
asks for some by satisfying that many of its children.

The check of a tree succeeds exactly if all of its nodes are sound (`wellFormed_iff`), the names
that are collected are those on its leaves (`mem_signers_iff`), and counting the satisfied children
decides whether the tree is satisfied (`approvedBy_iff_grants`). With the messages of trees read
back, `Expression.means_of_written` says what the written form of a tree means: if all of its nodes
are sound, what the tree does, and otherwise nothing, since it is not an approval expression.
-/

namespace Custody.Approval

namespace Node

/-- A node makes sense: it is a leaf with a name and no children, or it asks for all of its
children, of which it has some, or it asks for some of them, and for no more than there are. -/
def Sound (node : Node) : Prop :=
  (node.kind = signerKind ∧ node.signer ≠ "" ∧ node.children = []) ∨
  (node.kind = allKind ∧ node.children ≠ []) ∨
  (node.kind = thresholdKind ∧ node.children ≠ [] ∧
    1 ≤ node.threshold.toNat ∧ node.threshold.toNat ≤ node.children.length)

/-- A node is one of a tree's, at any depth. -/
inductive OccursIn (node : Node) : Node → Prop
  /-- The root of the tree. -/
  | root : OccursIn node node
  /-- A node of a tree right below the root. -/
  | under {child parent : Node} : child ∈ parent.children → OccursIn node child →
      OccursIn node parent

/-- Approvers satisfy a tree. -/
inductive Grants (approvers : NameSet) : Node → Prop
  /-- A leaf names one of them. -/
  | signer {node : Node} : node.kind = signerKind → node.signer ∈ approvers →
      Grants approvers node
  /-- All children are asked for, and they satisfy each. -/
  | all {node : Node} : node.kind = allKind → (∀ child ∈ node.children, Grants approvers child) →
      Grants approvers node
  /-- A number of children is asked for, and they satisfy that many. -/
  | atLeast {node : Node} {chosen : List Node} : node.kind = thresholdKind →
      chosen.Sublist node.children → chosen.length = node.threshold.toNat →
      (∀ child ∈ chosen, Grants approvers child) → Grants approvers node

/-! ## Sound trees -/

/-- A node that makes sense and has only such nodes below it is well formed. -/
theorem wellFormed_of_sound {node : Node} (sound : node.Sound)
    (below : ∀ child ∈ node.children, child.WellFormed) : node.WellFormed := by
  obtain ⟨kind, threshold, children, name⟩ := node
  rcases sound with ⟨leaf, named, childless⟩ | ⟨all, nonempty⟩ | ⟨some, -, positive, enough⟩
  · simp only at leaf named childless
    subst leaf childless
    exact .leaf named
  · simp only at all nonempty below
    subst all
    refine .inner (.inl rfl) ?_ ?_ below
    · rw [quota, if_pos rfl]
      exact List.length_pos_iff.2 nonempty
    · rw [quota, if_pos rfl]
  · simp only at some positive enough below
    subst some
    have other : thresholdKind ≠ allKind := by decide
    refine .inner (.inr rfl) ?_ ?_ below
    · rw [quota, if_neg other]
      exact positive
    · rw [quota, if_neg other]
      exact enough

/-- The root of a well-formed tree makes sense. -/
theorem sound_of_wellFormed {node : Node} (wf : node.WellFormed) : node.Sound := by
  cases wf with
  | leaf named => exact .inl ⟨rfl, named, rfl⟩
  | @inner kind threshold children name known positive enough below =>
    have nonempty : children ≠ [] := by
      rintro rfl
      rw [List.length_nil] at enough
      omega
    by_cases all : kind = allKind
    · exact .inr (.inl ⟨all, nonempty⟩)
    · rw [quota, if_neg all] at positive enough
      exact .inr (.inr ⟨known.resolve_left all, nonempty, positive, enough⟩)

/-- The trees below the root of a well-formed tree are well formed. -/
theorem wellFormed_of_mem {child parent : Node} (wf : parent.WellFormed)
    (mem : child ∈ parent.children) : child.WellFormed := by
  cases wf with
  | leaf named => simp at mem
  | inner known positive enough below => exact below child mem

/-- A tree is well formed exactly if every node of it makes sense. -/
theorem wellFormed_iff {tree : Node} :
    tree.WellFormed ↔ ∀ node : Node, node.OccursIn tree → node.Sound := by
  constructor
  · intro wf node occurs
    induction occurs with
    | root => exact sound_of_wellFormed wf
    | under mem _ ih => exact ih (wellFormed_of_mem wf mem)
  · intro sound
    induction tree using induction_on with
    | step kind threshold children name ih =>
      apply wellFormed_of_sound (sound _ .root)
      intro child mem
      exact ih child mem fun node occurs => sound node (.under mem occurs)

/-! ## Names and approval -/

/-- The names collected from a well-formed tree are those on its leaves. -/
theorem mem_signers_iff {tree : Node} (wf : tree.WellFormed) {name : String} :
    name ∈ tree.signers ↔
      ∃ leaf : Node, leaf.OccursIn tree ∧ leaf.kind = signerKind ∧ leaf.signer = name := by
  induction wf with
  | @leaf threshold own named =>
    rw [mem_signers_leaf]
    constructor
    · rintro rfl
      exact ⟨_, .root, rfl, rfl⟩
    · rintro ⟨leaf, occurs, -, rfl⟩
      cases occurs with
      | root => rfl
      | under mem _ => simp at mem
  | @inner kind threshold children own known positive enough wf ih =>
    -- The root of the tree is no leaf, so every leaf is one of a child's.
    have inner := ne_signerKind known
    rw [mem_signers_inner inner]
    constructor
    · rintro ⟨child, mem, collected⟩
      obtain ⟨leaf, occurs, isLeaf, names⟩ := (ih child mem).1 collected
      exact ⟨leaf, .under mem occurs, isLeaf, names⟩
    · rintro ⟨leaf, occurs, isLeaf, names⟩
      cases occurs with
      | root => exact absurd isLeaf inner
      | @under child _ mem occurs =>
        exact ⟨child, mem, (ih child mem).2 ⟨leaf, occurs, isLeaf, names⟩⟩

/-- As many elements of a list have a property as one can choose from it with that property. -/
theorem le_countP_iff {α : Type} {p : α → Bool} {count : Nat} {l : List α} :
    count ≤ l.countP p ↔
      ∃ chosen : List α, chosen.Sublist l ∧ chosen.length = count ∧ ∀ a ∈ chosen, p a = true := by
  constructor
  · -- The first so many of those that have the property are chosen.
    intro enough
    refine ⟨(l.filter p).take count, ?_, ?_, ?_⟩
    · exact (List.take_sublist count _).trans List.filter_sublist
    · rw [List.length_take, ← List.countP_eq_length_filter, Nat.min_eq_left enough]
    · intro a mem
      exact (List.mem_filter.1 (List.mem_of_mem_take mem)).2
  · rintro ⟨chosen, sub, rfl, all⟩
    rw [← List.countP_eq_length.2 all]
    exact sub.countP_le

/-- Counting the satisfied children decides whether approvers satisfy a well-formed tree. -/
theorem approvedBy_iff_grants {approvers : NameSet} {tree : Node} (wf : tree.WellFormed) :
    tree.approvedBy approvers = true ↔ tree.Grants approvers := by
  induction wf with
  | @leaf threshold name named =>
    rw [approvedBy_leaf, decide_eq_true_eq]
    constructor
    · intro approves
      exact .signer rfl approves
    · intro grants
      cases grants with
      | signer _ approves => exact approves
      | all known _ => exact absurd known (by decide : signerKind ≠ allKind)
      | atLeast known _ _ _ => exact absurd known (by decide : signerKind ≠ thresholdKind)
  | @inner kind threshold children name known positive enough wf ih =>
    have inner := ne_signerKind known
    rw [approvedBy_inner approvers inner, decide_eq_true_eq, quota]
    split
    · next all =>
      -- As many as there are is each of them.
      have each : children.length ≤ children.countP (approvedBy approvers) ↔
          ∀ child ∈ children, child.approvedBy approvers = true := by
        rw [← List.countP_eq_length]
        have most := List.countP_le_length (p := approvedBy approvers) (l := children)
        omega
      rw [each, forall₂_congr ih]
      constructor
      · intro below
        exact .all all below
      · intro grants
        cases grants with
        | signer leaf _ => exact absurd leaf inner
        | all _ below => exact below
        | atLeast some _ _ _ => exact absurd (all.symm.trans some) (by decide)
    · next some =>
      rw [le_countP_iff]
      constructor
      · rintro ⟨chosen, sub, count, satisfied⟩
        refine .atLeast (known.resolve_left some) sub count fun child mem => ?_
        exact (ih child (sub.subset mem)).1 (satisfied child mem)
      · intro grants
        cases grants with
        | signer leaf _ => exact absurd leaf inner
        | all all _ => exact absurd all some
        | @atLeast _ chosen _ sub count below =>
          refine ⟨chosen, sub, count, fun child mem => ?_⟩
          exact (ih child (sub.subset mem)).2 (below child mem)

/-- Asking for any one of some trees is asking for one of them. -/
theorem grants_anyOf_iff {approvers : NameSet} {children : List Node} :
    (anyOf children).Grants approvers ↔ ∃ child ∈ children, child.Grants approvers := by
  constructor
  · intro grants
    cases grants with
    | signer leaf _ => exact absurd leaf (by decide : thresholdKind ≠ signerKind)
    | all all _ => exact absurd all (by decide : thresholdKind ≠ allKind)
    | @atLeast _ chosen _ sub count below =>
      obtain ⟨child, rfl⟩ := List.length_eq_one_iff.1 count
      exact ⟨child, sub.subset (List.mem_singleton_self child),
        below child (List.mem_singleton_self child)⟩
  · rintro ⟨child, mem, grants⟩
    have chosen : [child].Sublist children := List.singleton_sublist.2 mem
    refine .atLeast rfl chosen rfl fun only same => ?_
    rw [List.mem_singleton.1 same]
    exact grants

/-! ## Flaws -/

/-- The flaw of several trees is that of one of them. -/
theorem exists_of_checkAll_eq_error {children : List Node} {flaw : Flaw}
    (failed : checkAll children = .error flaw) : ∃ child ∈ children, child.check = .error flaw := by
  induction children with
  | nil => simp [checkAll] at failed
  | cons child rest ih =>
    rw [checkAll] at failed
    split at failed
    · next flaw' found =>
      obtain rfl := Except.error.inj failed
      exact ⟨child, List.mem_cons_self, found⟩
    · obtain ⟨other, mem, found⟩ := ih failed
      exact ⟨other, List.mem_cons_of_mem _ mem, found⟩

/-- The flaw of a tree is one of its nodes, not of any bytes. -/
theorem ne_unreadable_of_check {node : Node} {flaw : Flaw} (failed : node.check = .error flaw)
    (fault : Wire.Fault) : flaw ≠ .unreadable fault := by
  induction node using induction_on with
  | step kind threshold children name ih =>
    rintro rfl
    rw [check] at failed
    split at failed
    · split at failed
      · simp at failed
      · split at failed <;> simp at failed
    · split at failed
      · simp at failed
      · split at failed
        · simp at failed
        · split at failed
          · simp at failed
          · obtain ⟨child, mem, found⟩ := exists_of_checkAll_eq_error failed
            exact ih child mem found rfl

end Node

namespace Expression

/-- Where bytes are the message of a tree, they are an expression if the tree passes the check, and
have the tree's flaw otherwise. -/
theorem decode_eq_of_read {blob : Bytes} {tree : Node} (read : Node.decode blob = .ok tree) :
    decode blob = tree.check.map fun _ => tree := by
  rw [decode, read, Outcome.mapError_ok, Outcome.ok_bind]
  cases tree.check with
  | error flaw => rfl
  | ok _ => rfl

/-- The participants of an expression are collected from its tree. -/
theorem participants_eq (blob : Bytes) :
    Evaluator.expression.participants blob =
      (decode blob).map fun node => .ofList node.signers := by
  show participants blob = _
  rw [participants]
  cases decode blob with
  | error flaw => rfl
  | ok node => rfl

/-- An expression is evaluated by its tree; the payload does not matter. -/
theorem evaluate_eq (blob : Bytes) (approvers : NameSet) (payload : Payload) :
    Evaluator.expression.evaluate blob approvers payload =
      (decode blob).map fun node => node.approvedBy approvers := by
  show evaluate blob approvers = _
  rw [evaluate]
  cases decode blob with
  | error flaw => rfl
  | ok node => rfl

/-- The written form of a tree means what the tree does. If every node of the tree makes sense, then
the tree is read back, the participants are the names on its leaves, and approvers are told that
they satisfy the expression exactly if they satisfy the tree. If some node does not make sense,
reading, asking for the participants and evaluating all fail, with the flaw of the tree. -/
theorem means_of_written {tree : Node} {blob : Bytes} (written : tree.encode? = some blob)
    (fits : blob.length ≤ Wire.longestPayload) :
    ((∀ node : Node, node.OccursIn tree → node.Sound) →
      decode blob = .ok tree ∧
      (∃ names, Evaluator.expression.participants blob = .ok names ∧ ∀ name, name ∈ names ↔
        ∃ leaf : Node, leaf.OccursIn tree ∧ leaf.kind = Node.signerKind ∧ leaf.signer = name) ∧
      ∀ approvers payload, ∃ answer,
        Evaluator.expression.evaluate blob approvers payload = .ok answer ∧
        (answer = true ↔ tree.Grants approvers)) ∧
    ((∃ node : Node, node.OccursIn tree ∧ ¬node.Sound) →
      ∃ flaw, (∀ fault, flaw ≠ .unreadable fault) ∧
        decode blob = .error flaw ∧
        Evaluator.expression.participants blob = .error flaw ∧
        ∀ approvers payload,
          Evaluator.expression.evaluate blob approvers payload = .error flaw) ∧
    ∀ (approvers : NameSet) (children : List Node),
      (Node.anyOf children).Grants approvers ↔ ∃ child ∈ children, child.Grants approvers := by
  -- What is read is the tree or its flaw, and everything else is asked of what is read.
  have read := decode_eq_of_read (Node.decode_encode written fits)
  refine ⟨fun sound => ?_, fun unsound => ?_, fun approvers children => Node.grants_anyOf_iff⟩
  · have wf : tree.WellFormed := Node.wellFormed_iff.2 sound
    rw [Node.check_eq_ok_iff.2 wf, Outcome.map_ok] at read
    refine ⟨read, ⟨.ofList tree.signers, ?_, fun name => ?_⟩, fun approvers payload => ?_⟩
    · rw [participants_eq, read, Outcome.map_ok]
    · rw [NameSet.mem_ofList, Node.mem_signers_iff wf]
    · refine ⟨tree.approvedBy approvers, ?_, Node.approvedBy_iff_grants wf⟩
      rw [evaluate_eq, read, Outcome.map_ok]
  · obtain ⟨node, occurs, unsound⟩ := unsound
    have malformed : ¬tree.WellFormed := fun wf => unsound (Node.wellFormed_iff.1 wf node occurs)
    rw [← Node.check_eq_ok_iff] at malformed
    cases checked : tree.check with
    | ok _ => exact absurd checked malformed
    | error flaw =>
      rw [checked, Outcome.map_error] at read
      refine ⟨flaw, Node.ne_unreadable_of_check checked, read, ?_, fun approvers payload => ?_⟩
      · rw [participants_eq, read, Outcome.map_error]
      · rw [evaluate_eq, read, Outcome.map_error]

/-- Two of three: a signer, two signers together, and any of two signers. And a tree in which, below
the root, a node asks for two children and has one. -/
theorem means_of_written_two_of_three :
    let tree := Node.atLeast 2 [.ofSigner "foo", .allOf [.ofSigner "bar", .ofSigner "baz"],
      .anyOf [.ofSigner "bar", .ofSigner "qux"]]
    let lame := Node.atLeast 2 [.ofSigner "bar"]
    let broken := Node.allOf [.ofSigner "foo", lame]
    decode tree.encode = .ok tree ∧
      (∃ answer, Evaluator.expression.evaluate tree.encode (.ofList ["foo", "qux"]) {} =
        .ok answer ∧ (answer = true ↔ tree.Grants (.ofList ["foo", "qux"]))) ∧
      ¬lame.Sound ∧ ∃ flaw, decode broken.encode = .error flaw := by
  intro tree lame broken
  have checked : tree.check = .ok () := Outcome.eq_ok_of_isOk (by decide +kernel)
  have sound := Node.wellFormed_iff.1 (Node.check_eq_ok_iff.1 checked)
  have unsound : ¬lame.Sound := by
    rintro (⟨leaf, -⟩ | ⟨all, -⟩ | ⟨-, -, -, enough⟩)
    · exact absurd leaf (by decide)
    · exact absurd all (by decide)
    · exact absurd enough (by decide)
  have occurs : lame.OccursIn broken := .under (List.mem_cons_of_mem _ List.mem_cons_self) .root
  have written : tree.encode? = some tree.encode := if_pos (by decide +kernel)
  have brokenWritten : broken.encode? = some broken.encode := if_pos (by decide +kernel)
  have good := means_of_written written (by decide +kernel)
  have bad := means_of_written brokenWritten (by decide +kernel)
  obtain ⟨read, -, evaluated⟩ := good.1 sound
  obtain ⟨flaw, -, failed, -⟩ := bad.2.1 ⟨lame, occurs, unsound⟩
  exact ⟨read, evaluated _ _, unsound, flaw, failed⟩

end Expression

end Custody.Approval
