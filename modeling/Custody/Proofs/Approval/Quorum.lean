import Custody.Proofs.Approval.Approvers
import Mathlib.Algebra.Order.BigOperators.Group.List
import Mathlib.Data.List.Flatten
import Mathlib.Data.List.Permutation
import Mathlib.Data.List.Sort

/-!
# How many approvers an expression takes

`Node.quorum` is the least number of approvers that a tree takes if no two of its leaves name the
same participant: one for a leaf, and for an inner node the least sum of the quorums of as many of
its children as it asks for (`leastSum`).

No set of approvers with fewer of the signers satisfies the tree (`quorum_le_of_approvedBy`), and
some signers, so many of them, always do (`exists_quorum`). Both count leaves, so that they hold of
every well-formed tree. `Expression.least_quorum` is the same in names, of which there are as many
as leaves where no two leaves name the same participant.
-/

namespace Custody

namespace NameSet

/-- A set of names has as many members as a list of them without repetition. -/
theorem length_ofList {names : List String} (distinct : names.Nodup) :
    (ofList names).toList.length = names.length := by
  have nodup : (ofList names).toList.Nodup := (ofList names).ordered.imp String.ne_of_lt
  apply List.Perm.length_eq
  rw [List.perm_ext_iff_of_nodup nodup distinct]
  intro name
  rw [← mem_def, mem_ofList]

/-- The members of a set that are among some names are the names that are members. -/
theorem inter_ofList (s : NameSet) (names : List String) :
    s.inter (ofList names) = ofList (names.filter fun name => decide (name ∈ s)) := by
  ext name
  rw [mem_inter, mem_ofList, mem_ofList, List.mem_filter, decide_eq_true_eq, and_comm]

end NameSet

namespace Approval

/-! ## The least sum of some of several numbers -/

/-- The sum of the least `count` of some numbers. -/
def leastSum (count : Nat) (numbers : List Nat) : Nat :=
  ((numbers.mergeSort (· ≤ ·)).take count).sum

/-- In ascending numbers, leaving out the first does not make the sum of the first so many less. -/
theorem sum_take_cons_le {a : Nat} {l : List Nat} (sorted : (a :: l).Pairwise (· ≤ ·)) {count : Nat}
    (enough : count ≤ l.length) : ((a :: l).take count).sum ≤ (l.take count).sum := by
  induction l generalizing a count with
  | nil =>
    obtain rfl : count = 0 := Nat.le_zero.1 enough
    exact le_rfl
  | cons b l ih =>
    cases count with
    | zero => exact le_rfl
    | succ count =>
      have step : a ≤ b := List.rel_of_pairwise_cons sorted List.mem_cons_self
      have rest := ih sorted.of_cons (Nat.le_of_succ_le_succ enough)
      simp only [List.take_succ_cons, List.sum_cons] at rest ⊢
      exact Nat.add_le_add step rest

/-- The first so many of ascending numbers sum up to no more than any so many of them. -/
theorem sum_take_le_of_sublist {l chosen : List Nat} (sorted : l.Pairwise (· ≤ ·))
    (sub : chosen.Sublist l) : (l.take chosen.length).sum ≤ chosen.sum := by
  induction sub with
  | slnil => exact le_rfl
  | cons a sub ih =>
    calc (List.take _ (a :: _)).sum ≤ (List.take _ _).sum :=
          sum_take_cons_le sorted sub.length_le
      _ ≤ _ := ih sorted.of_cons
  | cons_cons a sub ih =>
    rw [List.length_cons, List.take_succ_cons, List.sum_cons, List.sum_cons]
    exact Nat.add_le_add_left (ih sorted.of_cons) a

/-- No so many of some numbers have a sum below the least. -/
theorem leastSum_le_sum {chosen numbers : List Nat} (sub : chosen.Sublist numbers) :
    leastSum chosen.length numbers ≤ chosen.sum := by
  have sorted : (numbers.mergeSort (· ≤ ·)).Pairwise (· ≤ ·) := List.pairwise_mergeSort' _ _
  -- The chosen numbers are among the sorted ones in some order.
  obtain ⟨reordered, perm, sub⟩ := sub.subperm.trans (List.mergeSort_perm numbers _).symm.subperm
  have bound := sum_take_le_of_sublist sorted sub
  rw [perm.length_eq, perm.sum_eq] at bound
  exact bound

/-- So many of the elements of a list have measures with the least sum. -/
theorem exists_sublist_leastSum {α : Type} (measure : α → Nat) {l : List α} {count : Nat}
    (enough : count ≤ l.length) :
    ∃ chosen : List α, chosen.Sublist l ∧ chosen.length = count ∧
      (chosen.map measure).sum = leastSum count (l.map measure) := by
  have perm := List.mergeSort_perm (l.map measure) (· ≤ ·)
  obtain ⟨least, least_perm, sub⟩ :=
    ((List.take_sublist count _).subperm).trans perm.subperm
  obtain ⟨chosen, chosen_sub, rfl⟩ := List.sublist_map_iff.1 sub
  refine ⟨chosen, chosen_sub, ?_, least_perm.sum_eq⟩
  have length := least_perm.length_eq
  rw [List.length_map, List.length_take, perm.length_eq, List.length_map,
    Nat.min_eq_left enough] at length
  exact length

/-- All of some numbers have the least sum that all of them can have. -/
theorem leastSum_length (numbers : List Nat) : leastSum numbers.length numbers = numbers.sum := by
  have perm := List.mergeSort_perm numbers (· ≤ ·)
  rw [leastSum, ← perm.length_eq, List.take_length, perm.sum_eq]

/-- Where every measure is one, the least sum of so many of them is how many they are. -/
theorem leastSum_of_ones {α : Type} {measure : α → Nat} {l : List α} {count : Nat}
    (ones : ∀ a ∈ l, measure a = 1) (enough : count ≤ l.length) :
    leastSum count (l.map measure) = count := by
  obtain ⟨chosen, sub, length, least⟩ := exists_sublist_leastSum measure enough
  have constant : chosen.map measure = chosen.map fun _ => 1 :=
    List.map_congr_left fun a mem => ones a (sub.subset mem)
  rw [← least, constant, List.map_const', List.sum_replicate, length, nsmul_one, Nat.cast_id]

namespace Node

/-! ## The quorum of a tree -/

mutual

/-- How many approvers a tree takes: one for a leaf, the sum of what its children take for a node
that asks for all of them, and the least sum of what so many of its children take for one that asks
for some. -/
def quorum : Node → Nat
  | ⟨kind, threshold, children, _⟩ =>
    if kind = signerKind then 1
    else if kind = allKind then (quorums children).sum
    else leastSum threshold.toNat (quorums children)

/-- How many approvers each of several trees takes. -/
def quorums : List Node → List Nat
  | [] => []
  | node :: rest => node.quorum :: quorums rest

end

/-- What several trees take is what each takes. -/
theorem quorums_eq (children : List Node) : quorums children = children.map quorum := by
  induction children with
  | nil => rfl
  | cons child rest ih => rw [quorums, ih, List.map_cons]

/-- A leaf takes one approver. -/
theorem quorum_leaf (threshold : UInt32) (children : List Node) (name : String) :
    quorum ⟨signerKind, threshold, children, name⟩ = 1 := by
  rw [quorum, if_pos rfl]

/-- An inner node takes the least sum of what as many of its children take as it asks for. -/
theorem quorum_inner {kind : UInt32} (inner : kind ≠ signerKind) (threshold : UInt32)
    (children : List Node) (name : String) :
    quorum ⟨kind, threshold, children, name⟩ =
      leastSum (quota kind threshold children) (children.map quorum) := by
  rw [quorum, if_neg inner, quorums_eq, quota]
  split
  · rw [← leastSum_length, List.length_map]
  · rfl

/-- The leaves of a tree that name approvers, below an inner node, are those of its children. -/
theorem countP_signers_inner {kind : UInt32} (inner : kind ≠ signerKind) (threshold : UInt32)
    (children : List Node) (name : String) (approves : String → Bool) :
    (signers ⟨kind, threshold, children, name⟩).countP approves =
      (children.map fun child => child.signers.countP approves).sum := by
  rw [signers, if_neg inner, signersOfAll_eq, List.countP_flatMap]
  rfl

/-- Approvers who satisfy a tree are named on at least as many of its leaves as it takes. -/
theorem quorum_le_of_approvedBy {approvers : NameSet} {node : Node}
    (satisfied : node.approvedBy approvers = true) :
    node.quorum ≤ node.signers.countP fun name => decide (name ∈ approvers) := by
  induction node using induction_on with
  | step kind threshold children name ih =>
    by_cases leaf : kind = signerKind
    · subst leaf
      rw [approvedBy_leaf] at satisfied
      rw [quorum_leaf, signers, if_pos rfl, List.countP_singleton, satisfied]
      exact le_rfl
    · -- Of the children that are satisfied, the first as many as the node asks for will do.
      rw [approvedBy_inner _ leaf, decide_eq_true_eq, le_countP_iff] at satisfied
      obtain ⟨chosen, sub, count, each⟩ := satisfied
      rw [quorum_inner leaf, countP_signers_inner leaf, ← count, ← List.length_map quorum]
      calc leastSum (chosen.map quorum).length (children.map quorum)
          ≤ (chosen.map quorum).sum := leastSum_le_sum (sub.map quorum)
        _ ≤ (chosen.map fun child =>
              child.signers.countP fun name => decide (name ∈ approvers)).sum :=
            List.sum_le_sum fun child mem => ih child (sub.subset mem) (each child mem)
        _ ≤ (children.map fun child =>
              child.signers.countP fun name => decide (name ∈ approvers)).sum :=
            (sub.map _).sum_le_sum fun _ _ => Nat.zero_le _

/-- On as many leaves as a well-formed tree takes there are names that satisfy it. -/
theorem exists_quorum {node : Node} (wf : node.WellFormed) :
    ∃ names : List String, names.Sublist node.signers ∧ names.length = node.quorum ∧
      ∀ approvers : NameSet, (∀ name ∈ names, name ∈ approvers) →
        node.approvedBy approvers = true := by
  induction wf with
  | @leaf threshold name named =>
    refine ⟨[name], ?_, ?_, fun approvers approve => ?_⟩
    · rw [signers, if_pos rfl]
    · rw [quorum_leaf]
      rfl
    · rw [approvedBy_leaf, decide_eq_true_eq]
      exact approve name (List.mem_singleton_self name)
  | @inner kind threshold children name known positive enough wf ih =>
    have inner := ne_signerKind known
    -- The children that take the least are chosen, and for each of them the names that it takes.
    choose! names sub length satisfy using ih
    obtain ⟨chosen, chosen_sub, count, least⟩ := exists_sublist_leastSum quorum enough
    refine ⟨chosen.flatMap names, ?_, ?_, fun approvers approve => ?_⟩
    · rw [signers, if_neg inner, signersOfAll_eq]
      exact (chosen_sub.flatMap names).trans (List.Sublist.flatMap_right children sub)
    · rw [quorum_inner inner, ← least, List.length_flatMap]
      congr 1
      exact List.map_congr_left fun child mem => length child (chosen_sub.subset mem)
    · rw [approvedBy_inner _ inner, decide_eq_true_eq, le_countP_iff]
      refine ⟨chosen, chosen_sub, count, fun child mem => ?_⟩
      apply satisfy child (chosen_sub.subset mem)
      intro name taken
      exact approve name (List.mem_flatMap.2 ⟨child, mem, taken⟩)

/-- A node that asks for some of its children, all of them leaves, takes as many approvers as it
asks for. -/
theorem quorum_of_leaves {node : Node} (wf : node.WellFormed) (some : node.kind = thresholdKind)
    (leaves : ∀ child ∈ node.children, child.kind = signerKind) :
    node.quorum = node.threshold.toNat := by
  cases wf with
  | leaf named => exact absurd some (show signerKind ≠ thresholdKind by decide)
  | @inner kind threshold children name known positive enough wf =>
    obtain rfl : kind = thresholdKind := some
    have ones : ∀ child ∈ children, child.quorum = 1 := by
      rintro ⟨kind, threshold, below, name⟩ mem
      obtain rfl : kind = signerKind := leaves _ mem
      exact quorum_leaf threshold below name
    rw [quorum_inner (ne_signerKind known), leastSum_of_ones ones enough, quota, if_neg]
    decide

end Node

namespace Expression

/-- Where no two leaves of an expression's tree name the same participant, the tree's quorum is the
least number of participants whom the expression takes. Approvers who satisfy it have at least so
many of its participants among them, and some of its participants, exactly so many, satisfy it. For
some of several signers the quorum is the number that is asked for. -/
theorem least_quorum {blob : Bytes} {tree : Node} (decoded : decode blob = .ok tree)
    (distinct : tree.signers.Nodup) :
    ∃ names, Evaluator.expression.participants blob = .ok names ∧
      (∀ approvers payload, Evaluator.expression.evaluate blob approvers payload = .ok true →
        tree.quorum ≤ (approvers.inter names).toList.length) ∧
      (∃ approvers : NameSet, (∀ name ∈ approvers, name ∈ names) ∧
        approvers.toList.length = tree.quorum ∧
        ∀ payload, Evaluator.expression.evaluate blob approvers payload = .ok true) ∧
      (tree.kind = Node.thresholdKind →
        (∀ child ∈ tree.children, child.kind = Node.signerKind) →
        tree.quorum = tree.threshold.toNat) := by
  have wf : tree.WellFormed := (decode_eq_ok_iff.1 decoded).2
  have evaluated := evaluate_of_decode decoded
  refine ⟨.ofList tree.signers, participants_of_decode decoded,
    fun approvers payload satisfied => ?_, ?_, Node.quorum_of_leaves wf⟩
  · rw [evaluated] at satisfied
    rw [NameSet.inter_ofList, NameSet.length_ofList (distinct.filter _),
      ← List.countP_eq_length_filter]
    exact Node.quorum_le_of_approvedBy (Except.ok.inj satisfied)
  · obtain ⟨names, sub, length, satisfy⟩ := Node.exists_quorum wf
    refine ⟨.ofList names, fun name mem => ?_, ?_, fun payload => ?_⟩
    · exact NameSet.mem_ofList.2 (sub.subset (NameSet.mem_ofList.1 mem))
    · rw [NameSet.length_ofList (distinct.sublist sub), length]
    · rw [evaluated, satisfy _ fun name mem => NameSet.mem_ofList.2 mem]

/-- Three of four, where one child asks for all of two signers, one for any of two and one for two
of three: the least is what the signer, the two and any of two take. -/
theorem least_quorum_nested :
    let tree := Node.atLeast 3 [.atLeast 2 [.ofSigner "a", .ofSigner "b", .ofSigner "c"],
      .ofSigner "d", .allOf [.ofSigner "e", .ofSigner "f"], .anyOf [.ofSigner "g", .ofSigner "h"]]
    decode tree.encode = .ok tree ∧ tree.quorum = 4 ∧
      Evaluator.expression.evaluate tree.encode (.ofList ["d", "g", "h"]) {} = .ok false ∧
      ∃ approvers : NameSet, approvers.toList.length = 4 ∧
        Evaluator.expression.evaluate tree.encode approvers {} = .ok true := by
  intro tree
  have wf : tree.WellFormed := Node.check_eq_ok_iff.1 (Outcome.eq_ok_of_isOk (by decide +kernel))
  have decoded : decode tree.encode = .ok tree :=
    decode_of_written wf (if_pos (by decide +kernel)) (by decide +kernel)
  have quorum : tree.quorum = 4 := by cbv
  obtain ⟨names, participants, enough, ⟨approvers, -, length, satisfied⟩, -⟩ :=
    least_quorum decoded (by decide +kernel)
  refine ⟨decoded, quorum, ?_, approvers, length.trans quorum, satisfied {}⟩
  have few : ((NameSet.ofList ["d", "g", "h"]).inter names).toList.length < tree.quorum := by
    rw [participants_of_decode decoded] at participants
    rw [← Except.ok.inj participants, quorum]
    decide +kernel
  have evaluated := evaluate_of_decode decoded (.ofList ["d", "g", "h"]) {}
  cases answer : tree.approvedBy (.ofList ["d", "g", "h"]) with
  | false => rw [evaluated, answer]
  | true =>
    rw [answer] at evaluated
    exact absurd (enough _ {} evaluated) (Nat.not_le.2 few)

end Expression

end Approval

end Custody
