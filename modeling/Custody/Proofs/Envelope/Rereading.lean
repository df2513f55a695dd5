import Custody.Category
import Custody.Proofs.Envelope.Storage
import Custody.Proofs.Envelope.Unpacking
import Custody.Proofs.Wire.Reading

/-!
# What is read can be stored again

Many bytes are read alike: fields may be repeated, left out or written at more length than they
need, and unknown ones are skipped. What was read can be written again all the same, and is then
read as it was. The reason is that each field taken in leaves something that can be written. For
each kind of message it is said what a field can do to it (`setsOneOfTwo`, `addField_cases`), and
`Wire.foldFields_reaches` carries that through the message: a participant and a packed policy are
written in no more bytes than they were read from, an id was cut down to 64 bits, and every text was
read from its own bytes.

`decode_settles` follows any bytes through reading, writing, unpacking and validating, and finds no
fault but those that a caller is promised.
-/

namespace Custody

namespace Approval

/-! ## Policies -/

/-- A field sets one of a participant's texts, or does nothing. -/
theorem Participant.setsOneOfTwo :
    Wire.SetsOneOfTwo addField (fun p => Utf8.encode p.abbreviation)
      fun p => Utf8.encode p.address := by
  intro p field next taken
  unfold addField at taken
  split at taken
  · next content =>
    split at taken
    · simp at taken
    · next abbreviation read =>
      obtain rfl := Wire.readText_eq_ok_iff.1 read
      obtain rfl := Except.ok.inj taken
      exact .inr (.inl ⟨rfl, rfl⟩)
  · next content =>
    split at taken
    · simp at taken
    · next address read =>
      obtain rfl := Wire.readText_eq_ok_iff.1 read
      obtain rfl := Except.ok.inj taken
      exact .inr (.inr ⟨rfl, rfl⟩)
  · obtain rfl := Except.ok.inj taken
    exact .inl ⟨rfl, rfl⟩

/-- A participant is written in no more bytes than it was read from. -/
theorem Participant.length_encode_le {p : Participant} {depth : Nat} {raw : Bytes}
    (read : Wire.foldFields depth addField ⟨"", ""⟩ raw = .ok p) :
    p.encode.length ≤ raw.length := by
  have start : (⟨"", ""⟩ : Participant).encode.length = 0 := by decide
  have grown : p.encode.length ≤ (⟨"", ""⟩ : Participant).encode.length + raw.length :=
    setsOneOfTwo.length_le read
  omega

namespace Policy

/-- A field sets a policy's expression, lists a participant, or does nothing. -/
theorem addField_cases {p next : Policy} {field : Wire.Field}
    (taken : p.addField field = .ok next) :
    next = p ∨
    (∃ data, field = ⟨1, .bytes data⟩ ∧ next = { p with data }) ∨
    ∃ content participant, field = ⟨2, .bytes content⟩ ∧
      Wire.foldFields (maxDepth - 1) Participant.addField ⟨"", ""⟩ content = .ok participant ∧
      next = { p with participants := p.participants ++ [participant] } := by
  unfold addField at taken
  split at taken
  · next data => exact .inr (.inl ⟨data, rfl, (Except.ok.inj taken).symm⟩)
  · next content =>
    split at taken
    · simp at taken
    · next participant read =>
      exact .inr (.inr ⟨content, participant, rfl, read, (Except.ok.inj taken).symm⟩)
  · exact .inl (Except.ok.inj taken).symm

/-- The message of a policy that was read is read as the policy. -/
theorem decode_encode_of_decode {p : Policy} {raw : Bytes} (read : decode raw = .ok p) :
    decode p.encode = .ok p := by
  have kept : ∀ (used : Nat) (p : Policy) field next,
      (p.data.length ≤ Wire.longestPayload ∧
        ∀ q ∈ p.participants, q.encode.length ≤ Wire.longestPayload) → field.Fits →
      p.addField field = .ok next →
        next.data.length ≤ Wire.longestPayload ∧
          ∀ q ∈ next.participants, q.encode.length ≤ Wire.longestPayload := by
    intro used p field next holds fits taken
    rcases addField_cases taken with rfl | ⟨data, rfl, rfl⟩ | ⟨content, participant, rfl, part, rfl⟩
    · exact holds
    · exact ⟨fits data rfl, holds.2⟩
    · refine ⟨holds.1, fun q mem => ?_⟩
      rcases List.mem_append.1 mem with before | last
      · exact holds.2 q before
      · rw [List.mem_singleton.1 last]
        exact Nat.le_trans (Participant.length_encode_le part) (fits content rfl)
  obtain ⟨-, -, dataFits, participantsFit⟩ :=
    Wire.foldFields_reaches kept 0 ⟨Nat.zero_le _, by simp⟩ read
  exact decode_encode_of_fits dataFits participantsFit

end Policy

/-- Whatever is wrong with a policy is a fault of the category of policies that are not valid. -/
theorem ValidateFault.within_invalidPolicy (fault : ValidateFault Flaw) :
    (fault.category fun _ => .invalidExpression).Within .invalidPolicy := by
  cases fault with
  | noParticipants => exact (by decide : Category.emptyParticipants.Within .invalidPolicy)
  | duplicates names => exact (by decide : Category.duplicateParticipant.Within .invalidPolicy)
  | missing names => exact (by decide : Category.missingParticipant.Within .invalidPolicy)
  | evaluator flaw => exact (by decide : Category.invalidExpression.Within .invalidPolicy)

end Approval

/-! ## Envelopes -/

/-- A field sets a packed policy's type URL or its bytes, or does nothing. -/
theorem Packed.setsOneOfTwo :
    Wire.SetsOneOfTwo addField (fun p => Utf8.encode p.typeUrl) fun p => p.value := by
  intro p field next taken
  unfold addField at taken
  split at taken
  · next content =>
    split at taken
    · simp at taken
    · next typeUrl read =>
      obtain rfl := Wire.readText_eq_ok_iff.1 read
      obtain rfl := Except.ok.inj taken
      exact .inr (.inl ⟨rfl, rfl⟩)
  · next value =>
    obtain rfl := Except.ok.inj taken
    exact .inr (.inr ⟨rfl, rfl⟩)
  · obtain rfl := Except.ok.inj taken
    exact .inl ⟨rfl, rfl⟩

/-- Taking fields into a packed policy adds no more bytes to its written form than they take up. -/
theorem Packed.length_encode_le {p last : Packed} {depth : Nat} {raw : Bytes}
    (read : Wire.foldFields depth addField p raw = .ok last) :
    last.encode.length ≤ p.encode.length + raw.length :=
  setsOneOfTwo.length_le read

namespace Envelope

/-- A field sets an envelope's id or name, adds to its packed policy, or does nothing. -/
theorem addField_cases {e next : Envelope} {field : Wire.Field}
    (taken : e.addField field = .ok next) :
    next = e ∨
    (∃ n, field = ⟨1, .number n⟩ ∧ next = { e with id := n % UInt64.size }) ∨
    (∃ name : String, field = ⟨2, .bytes (Utf8.encode name)⟩ ∧
      next = { e with name := .ofString name }) ∨
    ∃ content packed, field = ⟨3, .bytes content⟩ ∧
      Wire.foldFields (maxDepth - 1) Packed.addField e.packed content = .ok packed ∧
      next = { e with packed } := by
  unfold addField at taken
  split at taken
  · next n => exact .inr (.inl ⟨n, rfl, (Except.ok.inj taken).symm⟩)
  · next content =>
    split at taken
    · simp at taken
    · next name read =>
      obtain rfl := Wire.readText_eq_ok_iff.1 read
      exact .inr (.inr (.inl ⟨name, rfl, (Except.ok.inj taken).symm⟩))
  · next content =>
    split at taken
    · simp at taken
    · next packed read =>
      exact .inr (.inr (.inr ⟨content, packed, rfl, read, (Except.ok.inj taken).symm⟩))
  · exact .inl (Except.ok.inj taken).symm

/-- What is needed for an envelope to be written and read back, the packed policy apart: an id of 64
bits, and a name that fits into a field. -/
def Labelled (e : Envelope) : Prop :=
  e.id < 2 ^ 64 ∧ ∃ name : String, e.name = .ofString name ∧
    (Utf8.encode name).length ≤ Wire.longestPayload

/-- An envelope that is read has an id and a name that can be written, and its packed policy is
written in no more bytes than the envelope was read from. -/
theorem labelled_of_decode {e : Envelope} {raw : Bytes} (read : decode raw = .ok e) :
    e.Labelled ∧ e.packed.encode.length ≤ raw.length := by
  have kept : ∀ used (e : Envelope) field next,
      (e.Labelled ∧ e.packed.encode.length ≤ used) → field.Fits → e.addField field = .ok next →
        next.Labelled ∧ next.packed.encode.length ≤ used + field.size := by
    intro used e field next holds fits taken
    obtain ⟨⟨small, named⟩, within⟩ := holds
    rcases addField_cases taken with rfl | ⟨n, rfl, rfl⟩ | ⟨name, rfl, rfl⟩ |
      ⟨content, packed, rfl, part, rfl⟩
    · exact ⟨⟨small, named⟩, Nat.le_add_right_of_le within⟩
    · have cut : n % UInt64.size < 2 ^ 64 := Nat.mod_lt n (by decide)
      exact ⟨⟨cut, named⟩, Nat.le_add_right_of_le within⟩
    · exact ⟨⟨small, name, rfl, fits _ rfl⟩, Nat.le_add_right_of_le within⟩
    · -- Another occurrence of the packed policy is taken into what there is of it.
      have added := Packed.length_encode_le part
      have inside := Wire.length_le_writeBytes 3 content
      refine ⟨⟨small, named⟩, ?_⟩
      simp only [Wire.Field.size]
      omega
  have start : Labelled ⟨0, .ofString "", ⟨"", []⟩⟩ ∧ (⟨"", []⟩ : Packed).encode.length ≤ 0 :=
    ⟨⟨by decide, "", rfl, Nat.zero_le _⟩, by decide⟩
  obtain ⟨more, within, labelled, holds⟩ := Wire.foldFields_reaches kept 0 start read
  exact ⟨labelled, by omega⟩

/-- Unpacking with the default registry gives the policy that the packed bytes are a message of, or
an unknown type, which is the envelope's. -/
theorem unpackApproval_cases (e : Envelope) :
    (∃ reason, e.unpackApproval = .error (.unknownType e.packed.typeUrl reason)) ∨
    ∃ p, e.unpackApproval = .ok p ∧ Approval.Policy.decode e.packed.value = .ok p := by
  unfold unpackApproval
  cases found : (Registry.withApprovalPolicy BuiltInDecoder.approvalPolicy).find?
      e.packed.typeUrl with
  | none => exact .inl ⟨_, unpack_of_unbound found⟩
  | some decoder =>
    rw [unpack_of_bound found]
    cases decoder with
    | approvalPolicy =>
      rw [BuiltInDecoder.run, decodeApprovalPolicy]
      cases read : Approval.Policy.decode e.packed.value with
      | error fault => exact .inl ⟨_, rfl⟩
      | ok p => exact .inr ⟨p, rfl, rfl⟩

/-- Any bytes are either refused or read as an envelope that can be written again, and what is
written is read as the same envelope. Its packed policy is no longer than the bytes were, and it
fits into a field unless they were longer than a message may be. Unpacking the envelope then gives a
policy whose message is read as the policy, and which is valid or has a fault of policies that are
not valid; or it fails, and reports the envelope's type URL. -/
theorem decode_settles (raw : Bytes) :
    (∃ fault, decode raw = .error fault) ∨
    ∃ e written, decode raw = .ok e ∧ e.encode = .ok written ∧
      e.packed.encode.length ≤ raw.length ∧
      (e.packed.encode.length ≤ Wire.longestPayload → decode written = .ok e) ∧
      ((∃ reason, e.unpackApproval = .error (.unknownType e.packed.typeUrl reason)) ∨
        ∃ p, e.unpackApproval = .ok p ∧ Approval.Policy.decode p.encode = .ok p ∧
          (p.validate .expression = .ok () ∨
            ∃ fault, p.validate .expression = .error fault ∧
              (fault.category fun _ => .invalidExpression).Within .invalidPolicy)) := by
  cases read : decode raw with
  | error fault => exact .inl ⟨fault, rfl⟩
  | ok e =>
    right
    obtain ⟨⟨small, name, named, nameFits⟩, within⟩ := labelled_of_decode read
    have written := encode_eq_ok_iff.2 ⟨small, name, named, rfl⟩
    refine ⟨e, _, rfl, written, within, fun packedFits => ?_, ?_⟩
    · obtain ⟨raw', written', read'⟩ := decode_encode_of_fits small named nameFits packedFits
      rw [Except.ok.inj (written.symm.trans written')]
      exact read'
    · rcases unpackApproval_cases e with failed | ⟨p, unpacked, decoded⟩
      · exact .inl failed
      · refine .inr ⟨p, unpacked, Approval.Policy.decode_encode_of_decode decoded, ?_⟩
        cases p.validate .expression with
        | ok _ => exact .inl rfl
        | error fault => exact .inr ⟨fault, rfl, fault.within_invalidPolicy⟩

end Envelope

end Custody
