import Custody.Approval.Policy
import Custody.Proofs.Approval.Tree
import Custody.Proofs.Wire.RoundTrip

/-!
# Written trees and policies read back

`Node.decode_encode` shows that the message of a tree is read as the tree, and
`Policy.decode_encode` the same of policies. Neither looks at what the tree or the policy means:
kinds and thresholds may be any numbers of 32 bits, names may be empty, and a directory may repeat
itself. The conditions are the limits of the wire: a tree has no more levels than a reader goes
down, and no message has more than `Wire.longestPayload` bytes.

For trees the proof goes by induction on the tree, with the number of levels that may still follow
as the one thing that changes from a node to its children (`Node.decodeWithin_encode`).
-/

namespace Custody.Approval

namespace Node

/-! ## Limits of a node's children -/

/-- Children make up at most so many levels if each of them has fewer levels below it. -/
theorem levelsOf_le_iff {children : List Node} {n : Nat} :
    levelsOf children ≤ n ↔ ∀ child ∈ children, child.levels < n := by
  induction children with
  | nil => simp [levelsOf]
  | cons child rest ih => rw [levelsOf, Nat.max_le, ih, List.forall_mem_cons, Nat.succ_le_iff]

/-- A child has fewer levels below it than its parent. -/
theorem levels_lt_levelsOf {child : Node} {children : List Node} (mem : child ∈ children) :
    child.levels < levelsOf children :=
  levelsOf_le_iff.1 (Nat.le_refl _) child mem

/-- The message of a node holds one field for each child. -/
theorem encodeChildren_eq (children : List Node) :
    encodeChildren children = children.flatMap fun child => Wire.writeBytes 3 child.encode := by
  induction children with
  | nil => rfl
  | cons child rest ih => rw [encodeChildren, ih, List.flatMap_cons]

/-! ## Reading -/

/-- The reader of the nodes below one, below which `depth` levels may nest. -/
def decodeBelow : (depth : Nat) → Bytes → Except Wire.Fault Node
  | 0 => fun _ => .error .tooDeep
  | depth + 1 => decodeWithin depth

/-- A node is read field by field, with one level less for its children. -/
theorem decodeWithin_eq (depth : Nat) (raw : Bytes) :
    decodeWithin depth raw = Wire.foldFields depth (addField (decodeBelow depth)) {} raw := by
  cases depth with
  | zero => rfl
  | succ depth => rfl

/-- A node's message is read as the node, if the messages of its children are read as these. -/
theorem foldFields_encode {kind threshold : UInt32} {children : List Node} {name : String}
    {depth : Nat} {below : Bytes → Except Wire.Fault Node}
    (read : ∀ child ∈ children, below child.encode = .ok child)
    (fits : (encode ⟨kind, threshold, children, name⟩).length ≤ Wire.longestPayload) :
    Wire.foldFields depth (addField below) {} (encode ⟨kind, threshold, children, name⟩) =
      .ok ⟨kind, threshold, children, name⟩ := by
  simp only [encode, encodeChildren_eq, List.length_append] at fits ⊢
  have named := Wire.length_le_writeNonempty 4 (Utf8.encode name)
  -- From the empty node on, each field that was written sets one of the node's.
  have kindTaken : Wire.Takes depth (addField below) (Wire.writeNonzero 1 kind.toNat) {}
      { kind } := by
    refine Wire.takes_writeNonzero (by decide) ?_ ?_ fun zero => ?_
    · exact Nat.lt_trans kind.toNat_lt (by norm_num)
    · rw [addField, UInt32.ofNat_toNat]
    · rw [UInt32.toNat_inj.1 (show kind.toNat = (0 : UInt32).toNat from zero)]
  have thresholdTaken : Wire.Takes depth (addField below) (Wire.writeNonzero 2 threshold.toNat)
      { kind } { kind, threshold } := by
    refine Wire.takes_writeNonzero (by decide) ?_ ?_ fun zero => ?_
    · exact Nat.lt_trans threshold.toNat_lt (by norm_num)
    · rw [addField, UInt32.ofNat_toNat]
    · rw [UInt32.toNat_inj.1 (show threshold.toNat = (0 : UInt32).toNat from zero)]
  have childrenTaken : Wire.Takes depth (addField below)
      (children.flatMap fun child => Wire.writeBytes 3 child.encode)
      { kind, threshold } { kind, threshold, children } := by
    refine Wire.takes_repeated (by decide) encode
      (fun children => ({ kind, threshold, children } : Node))
      (fun child mem => ?_) (fun before child mem => ?_) []
    · have inside := Wire.length_le_repeated 3 encode mem
      omega
    · rw [addField, read child mem]
  have nameTaken : Wire.Takes depth (addField below)
      (Wire.writeNonempty 4 (Utf8.encode name)) { kind, threshold, children }
      ⟨kind, threshold, children, name⟩ := by
    refine Wire.takes_writeText (by decide) (by omega) ?_ fun empty => ?_
    · rw [addField, Wire.readText_encode]
    · rw [empty]
  exact (((kindTaken.append thresholdTaken).append childrenTaken).append nameTaken).foldFields_eq

/-- A tree's message is read as the tree by a reader that goes down as many levels as it has. -/
theorem decodeWithin_encode {node : Node} {depth : Nat} (shallow : node.levels ≤ depth)
    (fits : node.encode.length ≤ Wire.longestPayload) :
    decodeWithin depth node.encode = .ok node := by
  induction node using induction_on generalizing depth with
  | step kind threshold children name ih =>
    have read : ∀ child ∈ children, decodeBelow depth child.encode = .ok child := by
      intro child mem
      rw [levels] at shallow
      simp only [encode, encodeChildren_eq, List.length_append] at fits
      have fewer := levels_lt_levelsOf mem
      have shorter := Wire.length_le_repeated 3 encode mem
      -- There is a level left for the child, since it has fewer below it than the node.
      cases depth with
      | zero => omega
      | succ depth => exact ih child mem (by omega) (by omega)
    rw [decodeWithin_eq]
    exact foldFields_encode read fits

/-- A tree that can be written is read back. -/
theorem decode_encode {node : Node} {blob : Bytes} (written : node.encode? = some blob)
    (fits : blob.length ≤ Wire.longestPayload) : decode blob = .ok node := by
  rw [encode?] at written
  split at written
  · next shallow =>
    obtain rfl := Option.some.inj written
    have deeper : deepestWritten ≤ maxDepth := by decide
    exact decodeWithin_encode (Nat.le_trans shallow deeper) fits
  · simp at written

end Node

/-! ## Policies -/

/-- The message of a participant is read as the participant. -/
theorem Participant.decode_encode {p : Participant} (depth : Nat)
    (fits : p.encode.length ≤ Wire.longestPayload) :
    Wire.foldFields depth Participant.addField ⟨"", ""⟩ p.encode = .ok p := by
  obtain ⟨abbreviation, address⟩ := p
  simp only [encode, List.length_append] at fits ⊢
  have abbreviated := Wire.length_le_writeNonempty 1 (Utf8.encode abbreviation)
  have addressed := Wire.length_le_writeNonempty 2 (Utf8.encode address)
  have abbreviationTaken : Wire.Takes depth addField
      (Wire.writeNonempty 1 (Utf8.encode abbreviation)) ⟨"", ""⟩ ⟨abbreviation, ""⟩ := by
    refine Wire.takes_writeText (by decide) (by omega) ?_ fun empty => ?_
    · rw [addField, Wire.readText_encode]
    · rw [empty]
  have addressTaken : Wire.Takes depth addField (Wire.writeNonempty 2 (Utf8.encode address))
      ⟨abbreviation, ""⟩ ⟨abbreviation, address⟩ := by
    refine Wire.takes_writeText (by decide) (by omega) ?_ fun empty => ?_
    · rw [addField, Wire.readText_encode]
    · rw [empty]
  exact (abbreviationTaken.append addressTaken).foldFields_eq

/-- The message of a policy is read as the policy, its participants in the same order, if the
expression and each participant fit into a field. -/
theorem Policy.decode_encode_of_fits {p : Policy} (dataFits : p.data.length ≤ Wire.longestPayload)
    (participantsFit : ∀ q ∈ p.participants, q.encode.length ≤ Wire.longestPayload) :
    decode p.encode = .ok p := by
  obtain ⟨data, participants⟩ := p
  have dataTaken : Wire.Takes maxDepth addField (Wire.writeNonempty 1 data) ⟨[], []⟩
      ⟨data, []⟩ := by
    refine Wire.takes_writeNonempty (by decide) dataFits rfl fun empty => ?_
    rw [empty]
  have participantsTaken : Wire.Takes maxDepth addField
      (participants.flatMap fun q => Wire.writeBytes 2 q.encode) ⟨data, []⟩
      ⟨data, participants⟩ := by
    refine Wire.takes_repeated (by decide) Participant.encode (Policy.mk data) participantsFit
      (fun before participant mem => ?_) []
    rw [addField, Participant.decode_encode _ (participantsFit participant mem)]
  exact (dataTaken.append participantsTaken).foldFields_eq

/-- The message of a policy is read as the policy, its participants in the same order. -/
theorem Policy.decode_encode {p : Policy} (fits : p.encode.length ≤ Wire.longestPayload) :
    decode p.encode = .ok p := by
  rw [encode, List.length_append] at fits
  have inside := Wire.length_le_writeNonempty 1 p.data
  refine decode_encode_of_fits (by omega) fun participant mem => ?_
  have shorter := Wire.length_le_repeated 2 Participant.encode mem
  omega

end Custody.Approval
