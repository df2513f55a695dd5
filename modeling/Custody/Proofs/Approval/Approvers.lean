import Custody.Proofs.Approval.Meaning

/-!
# Which approvers matter

An expression is evaluated by its tree, so what approval does on trees it does on the bytes of
expressions. `evaluate_local` says of an expression that it refers to somebody, that only those to
whom it refers count, that all of them together are enough, and that none of them is not.
`evaluate_mono` says of every byte string that approvers who are enough stay enough when others join
them, and the same of every policy's verification.
-/

namespace Custody.Approval

namespace Expression

/-- The message of a tree whose every node makes sense is read as the tree. -/
theorem decode_of_written {tree : Node} {blob : Bytes} (wf : tree.WellFormed)
    (written : tree.encode? = some blob) (fits : blob.length ≤ Wire.longestPayload) :
    decode blob = .ok tree := by
  rw [decode_eq_of_read (Node.decode_encode written fits), Node.check_eq_ok_iff.2 wf,
    Outcome.map_ok]

/-- An expression is evaluated by its tree. -/
theorem evaluate_of_decode {blob : Bytes} {tree : Node} (decoded : decode blob = .ok tree)
    (s : NameSet) (payload : Payload) :
    Evaluator.expression.evaluate blob s payload = .ok (tree.approvedBy s) := by
  rw [evaluate_eq, decoded, Outcome.map_ok]

/-- An expression refers to those whom its tree names. -/
theorem participants_of_decode {blob : Bytes} {tree : Node} (decoded : decode blob = .ok tree) :
    Evaluator.expression.participants blob = .ok (.ofList tree.signers) := by
  rw [participants_eq, decoded, Outcome.map_ok]

/-- An expression's evaluation looks only at the approvers to whom the expression refers, of whom
there are some. Sets of approvers that agree on them get the same answer, whatever the payloads; all
of them are enough, and none of them is not. -/
theorem evaluate_local {blob : Bytes} {tree : Node} (decoded : decode blob = .ok tree) :
    ∃ names, Evaluator.expression.participants blob = .ok names ∧ names.isEmpty = false ∧
      ∀ (s t : NameSet) (payload payload' : Payload),
        (∃ answer, Evaluator.expression.evaluate blob s payload = .ok answer) ∧
        ((∀ name ∈ names, (name ∈ s ↔ name ∈ t)) →
          Evaluator.expression.evaluate blob s payload =
            Evaluator.expression.evaluate blob t payload') ∧
        ((∀ name ∈ names, name ∈ s) →
          Evaluator.expression.evaluate blob s payload = .ok true) ∧
        ((∀ name ∈ names, name ∉ s) →
          Evaluator.expression.evaluate blob s payload = .ok false) := by
  have wf : tree.WellFormed := (decode_eq_ok_iff.1 decoded).2
  have evaluated := evaluate_of_decode decoded
  refine ⟨.ofList tree.signers, participants_of_decode decoded, ?_,
    fun s t payload payload' => ⟨?_, ?_, ?_, ?_⟩⟩
  · obtain ⟨signer, mem⟩ := List.exists_mem_of_ne_nil _ (Node.signers_ne_nil wf)
    rw [← Bool.not_eq_true, NameSet.isEmpty_iff]
    intro nobody
    exact nobody signer (NameSet.mem_ofList.2 mem)
  · exact ⟨_, evaluated s payload⟩
  · intro agree
    have same : tree.approvedBy s = tree.approvedBy t :=
      Node.approvedBy_congr fun name signer => agree name (NameSet.mem_ofList.2 signer)
    rw [evaluated, evaluated, same]
  · intro all
    have satisfied : tree.approvedBy s = true :=
      Node.approvedBy_of_all wf fun name signer => all name (NameSet.mem_ofList.2 signer)
    rw [evaluated, satisfied]
  · intro none
    have lacking : tree.approvedBy s = false :=
      Node.not_approvedBy_of_none wf fun name signer => none name (NameSet.mem_ofList.2 signer)
    rw [evaluated, lacking]

/-- Two of three: a stranger in the place of another stranger changes nothing, and strangers alone
are not enough. -/
theorem evaluate_local_two_of_three :
    let tree := Node.atLeast 2 [.ofSigner "foo", .allOf [.ofSigner "bar", .ofSigner "baz"],
      .anyOf [.ofSigner "bar", .ofSigner "qux"]]
    decode tree.encode = .ok tree ∧
      Evaluator.expression.evaluate tree.encode (.ofList ["foo", "eve"]) {} =
        Evaluator.expression.evaluate tree.encode (.ofList ["foo", "mallory"]) {} ∧
      Evaluator.expression.evaluate tree.encode
        (.ofList ["foo", "bar", "baz", "qux"]) {} = .ok true ∧
      Evaluator.expression.evaluate tree.encode (.ofList ["eve", "mallory"]) {} = .ok false := by
  intro tree
  have wf : tree.WellFormed := Node.check_eq_ok_iff.1 (Outcome.eq_ok_of_isOk (by decide +kernel))
  have decoded : decode tree.encode = .ok tree :=
    decode_of_written wf (if_pos (by decide +kernel)) (by decide +kernel)
  obtain ⟨names, participants, -, answers⟩ := evaluate_local decoded
  have named : names = .ofList ["foo", "bar", "baz", "bar", "qux"] := by
    rw [participants_of_decode decoded] at participants
    exact (Except.ok.inj participants).symm
  subst named
  refine ⟨decoded, ?_, ?_, ?_⟩
  · exact (answers _ _ {} {}).2.1 (by decide +kernel)
  · exact (answers _ (.ofList []) {} {}).2.2.1 (by decide +kernel)
  · exact (answers _ (.ofList []) {} {}).2.2.2 (by decide +kernel)

/-- More approvals never hurt: approvers who satisfy bytes as an expression still do when others
join them, and so do those who unlock a policy. -/
theorem evaluate_mono {s t : NameSet} (subset : ∀ name ∈ s, name ∈ t) (payload : Payload) :
    (∀ blob, Evaluator.expression.evaluate blob s payload = .ok true →
      Evaluator.expression.evaluate blob t payload = .ok true) ∧
    ∀ p : Policy, p.verify .expression s payload = .ok () →
      p.verify .expression t payload = .ok () := by
  have monotone (blob : Bytes)
      (satisfied : Evaluator.expression.evaluate blob s payload = .ok true) :
      Evaluator.expression.evaluate blob t payload = .ok true := by
    rw [evaluate_eq, Outcome.map_eq_ok] at satisfied ⊢
    obtain ⟨tree, decoded, approved⟩ := satisfied
    exact ⟨tree, decoded, Node.approvedBy_mono subset approved⟩
  refine ⟨monotone, fun p verified => ?_⟩
  rw [Policy.verify_eq_ok_iff] at verified ⊢
  exact monotone p.data verified

/-- Two of three: one approver more than is needed. -/
theorem evaluate_mono_two_of_three :
    let tree := Node.atLeast 2 [.ofSigner "foo", .ofSigner "bar", .ofSigner "baz"]
    let p : Policy := ⟨tree.encode, []⟩
    p.verify .expression (.ofList ["foo", "baz"]) {} = .ok () ∧
      p.verify .expression (.ofList ["foo", "bar", "baz"]) {} = .ok () := by
  intro tree p
  have wf : tree.WellFormed := Node.check_eq_ok_iff.1 (Outcome.eq_ok_of_isOk (by decide +kernel))
  have decoded : decode p.data = .ok tree :=
    decode_of_written wf (if_pos (by decide +kernel)) (by decide +kernel)
  have verified : p.verify .expression (.ofList ["foo", "baz"]) {} = .ok () := by
    rw [Policy.verify_eq_of_decode decoded]
    exact if_pos (by decide +kernel)
  exact ⟨verified, (evaluate_mono (by decide +kernel) {}).2 p verified⟩

end Expression

end Custody.Approval
