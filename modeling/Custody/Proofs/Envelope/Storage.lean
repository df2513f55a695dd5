import Custody.Envelope.Registry
import Custody.Proofs.Approval.RoundTrip

/-!
# Stored policies read back

`Envelope.encode_eq_ok_iff` says which envelopes can be written, and how: the id has to fit into 64
bits, and the name has to be a string. What is written reads back as the envelope
(`Envelope.decode_encode`), and an envelope that packs an approval policy is unpacked to that policy
(`Envelope.unpackApproval_of`).

`Envelope.stored_reads_back` puts the layers together: packing a policy, writing the envelope,
reading it and unpacking it gives the policy again, and neither two envelopes nor two policies are
written alike. The one limit is that of a whole message, `Wire.longestPayload` bytes, since the
policy's bytes are a part of it.
-/

namespace Custody

/-- The message of a packed policy is read as the packed policy. -/
theorem Packed.decode_encode {p : Packed} (depth : Nat)
    (fits : p.encode.length ≤ Wire.longestPayload) :
    Wire.foldFields depth addField ⟨"", []⟩ p.encode = .ok p := by
  obtain ⟨typeUrl, value⟩ := p
  simp only [encode, List.length_append] at fits ⊢
  have typed := Wire.length_le_writeNonempty 1 (Utf8.encode typeUrl)
  have valued := Wire.length_le_writeNonempty 2 value
  have typeTaken : Wire.Takes depth addField (Wire.writeNonempty 1 (Utf8.encode typeUrl))
      ⟨"", []⟩ ⟨typeUrl, []⟩ := by
    refine Wire.takes_writeText (by decide) (by omega) ?_ fun empty => ?_
    · rw [addField, Wire.readText_encode]
    · rw [empty]
  have valueTaken : Wire.Takes depth addField (Wire.writeNonempty 2 value) ⟨typeUrl, []⟩
      ⟨typeUrl, value⟩ := by
    refine Wire.takes_writeNonempty (by decide) (by omega) rfl fun empty => ?_
    rw [empty]
  exact (typeTaken.append valueTaken).foldFields_eq

namespace Envelope

/-! ## The wire -/

/-- An envelope can be written exactly if its id fits into 64 bits and its name is a string, and is
then written as the fields of these and of the packed policy. -/
theorem encode_eq_ok_iff {e : Envelope} {raw : Bytes} :
    e.encode = .ok raw ↔
      e.id < 2 ^ 64 ∧ ∃ name : String, e.name = .ofString name ∧
        Wire.writeNonzero 1 e.id ++ Wire.writeNonempty 2 (Utf8.encode name) ++
          Wire.writeBytes 3 e.packed.encode = raw := by
  have size : UInt64.size = 2 ^ 64 := rfl
  rw [encode]
  split
  · next large =>
    rw [size] at large
    refine iff_of_false (by simp) ?_
    rintro ⟨small, -⟩
    omega
  · next small =>
    rw [size, Nat.not_le] at small
    split
    · next broken =>
      refine iff_of_false (by simp) ?_
      rintro ⟨-, name, named, -⟩
      rw [Text.toString?_eq_some_iff.2 named] at broken
      simp at broken
    · next name named =>
      rw [Except.ok.injEq]
      constructor
      · intro written
        exact ⟨small, name, Text.toString?_eq_some_iff.1 named, written⟩
      · rintro ⟨-, name', named', written⟩
        rw [Text.toString?_eq_some_iff.2 named'] at named
        obtain rfl := Option.some.inj named
        exact written

/-- The bytes that are packed are a part of the message. -/
theorem length_value_le {e : Envelope} {raw : Bytes} (written : e.encode = .ok raw) :
    e.packed.value.length ≤ raw.length := by
  obtain ⟨-, name, -, rfl⟩ := encode_eq_ok_iff.1 written
  have outer := Wire.length_le_writeBytes 3 e.packed.encode
  have inner := Wire.length_le_writeNonempty 2 e.packed.value
  have whole : e.packed.encode.length =
      (Wire.writeNonempty 1 (Utf8.encode e.packed.typeUrl)).length +
        (Wire.writeNonempty 2 e.packed.value).length := by
    rw [Packed.encode, List.length_append]
  rw [List.length_append]
  omega

/-- What is written for an envelope is read as the envelope, if the name and the packed policy each
fit into a field. -/
theorem decode_encode_of_fits {e : Envelope} {name : String} (small : e.id < 2 ^ 64)
    (named : e.name = .ofString name) (nameFits : (Utf8.encode name).length ≤ Wire.longestPayload)
    (packedFits : e.packed.encode.length ≤ Wire.longestPayload) :
    ∃ raw, e.encode = .ok raw ∧ decode raw = .ok e := by
  obtain ⟨id, title, packed⟩ := e
  simp only at small named packedFits
  subst named
  have written := encode_eq_ok_iff (e := ⟨id, name, packed⟩).2 ⟨small, name, rfl, rfl⟩
  refine ⟨_, written, ?_⟩
  -- Reading starts from the values that the fields have where they are left out.
  have idTaken : Wire.Takes maxDepth addField (Wire.writeNonzero 1 id)
      ⟨0, .ofString "", ⟨"", []⟩⟩ ⟨id, .ofString "", ⟨"", []⟩⟩ := by
    refine Wire.takes_writeNonzero (by decide) small ?_ fun zero => ?_
    · rw [addField, Nat.mod_eq_of_lt (show id < UInt64.size from small)]
    · rw [zero]
  have nameTaken : Wire.Takes maxDepth addField (Wire.writeNonempty 2 (Utf8.encode name))
      ⟨id, .ofString "", ⟨"", []⟩⟩ ⟨id, .ofString name, ⟨"", []⟩⟩ := by
    refine Wire.takes_writeText (by decide) nameFits ?_ fun empty => ?_
    · rw [addField, Wire.readText_encode]
    · rw [empty]
  have packedTaken : Wire.Takes maxDepth addField (Wire.writeBytes 3 packed.encode)
      ⟨id, .ofString name, ⟨"", []⟩⟩ ⟨id, .ofString name, packed⟩ := by
    refine Wire.takes_writeBytes (by decide) packedFits ?_
    rw [addField, Packed.decode_encode _ packedFits]
  exact ((idTaken.append nameTaken).append packedTaken).foldFields_eq

/-- What is written for an envelope is read as the envelope. -/
theorem decode_encode {e : Envelope} {raw : Bytes} (written : e.encode = .ok raw)
    (fits : raw.length ≤ Wire.longestPayload) : decode raw = .ok e := by
  obtain ⟨small, name, named, whole⟩ := encode_eq_ok_iff.1 written
  have nameInside := Wire.length_le_writeNonempty 2 (Utf8.encode name)
  have packedInside := Wire.length_le_writeBytes 3 e.packed.encode
  rw [← whole, List.length_append, List.length_append] at fits
  obtain ⟨raw', written', read⟩ := decode_encode_of_fits small named (by omega) (by omega)
  obtain rfl := Except.ok.inj (written.symm.trans written')
  exact read

/-! ## Unpacking -/

/-- An envelope that packs an approval policy is unpacked to it. -/
theorem unpackApproval_of {e : Envelope} {p : Approval.Policy} (packed : e.packed = .of p)
    (fits : p.encode.length ≤ Wire.longestPayload) : e.unpackApproval = .ok p := by
  have known : (Registry.withApprovalPolicy BuiltInDecoder.approvalPolicy).find?
      (Packed.of p).typeUrl = some .approvalPolicy := by
    rw [Registry.find?, Registry.withApprovalPolicy, Packed.of, List.lookup_cons_self]
  have read : BuiltInDecoder.approvalPolicy.run (Packed.of p).value = .policy p := by
    show decodeApprovalPolicy p.encode = _
    rw [decodeApprovalPolicy, Approval.Policy.decode_encode fits]
  simp only [unpackApproval, unpack, packed, known, read]

/-- Stored policies read back. A policy that is packed under an id of 64 bits can be written, and
what is written is read as the same envelope, from which the same policy is unpacked. Whatever an
envelope packs, it is read back too. So neither envelopes nor policies are ever written alike. -/
theorem stored_reads_back :
    (∀ (id : Int) (name : String) (p : Approval.Policy), 0 ≤ id → id < 2 ^ 64 →
      ∃ e raw, wrap? id name p = some e ∧ e.encode = .ok raw ∧
        (raw.length ≤ Wire.longestPayload →
          ∃ stored, decode raw = .ok stored ∧ stored = e ∧ stored.unpackApproval = .ok p)) ∧
    (∀ (id : Nat) (name : String) (packed : Packed), id < 2 ^ 64 →
      ∃ raw, (⟨id, name, packed⟩ : Envelope).encode = .ok raw ∧
        (raw.length ≤ Wire.longestPayload → decode raw = .ok ⟨id, name, packed⟩)) ∧
    (∀ (e₁ e₂ : Envelope) (raw : Bytes), e₁.encode = .ok raw → e₂.encode = .ok raw →
      raw.length ≤ Wire.longestPayload → e₁ = e₂) ∧
    ∀ p₁ p₂ : Approval.Policy, p₁.encode = p₂.encode →
      p₁.encode.length ≤ Wire.longestPayload → p₁ = p₂ := by
  refine ⟨?_, ?_, ?_, ?_⟩
  · intro id name p natural small
    lift id to Nat using natural
    have fits : id < 2 ^ 64 := by exact_mod_cast small
    have packs : wrap? id name p = some ⟨id, name, .of p⟩ := by
      rw [wrap?, ofId?, if_neg (by omega), Int.toNat_natCast]
    have written := encode_eq_ok_iff (e := ⟨id, name, .of p⟩).2 ⟨fits, name, rfl, rfl⟩
    refine ⟨_, _, packs, written, fun fits => ⟨_, decode_encode written fits, rfl, ?_⟩⟩
    exact unpackApproval_of rfl (Nat.le_trans (length_value_le written) fits)
  · intro id name packed small
    have written := encode_eq_ok_iff (e := ⟨id, name, packed⟩).2 ⟨small, name, rfl, rfl⟩
    exact ⟨_, written, fun fits => decode_encode written fits⟩
  · intro e₁ e₂ raw written₁ written₂ fits
    have read₁ := decode_encode written₁ fits
    rw [decode_encode written₂ fits] at read₁
    exact (Except.ok.inj read₁).symm
  · intro p₁ p₂ same fits
    have read₁ := Approval.Policy.decode_encode fits
    rw [same, Approval.Policy.decode_encode (same ▸ fits)] at read₁
    exact (Except.ok.inj read₁).symm

/-- A policy whose directory repeats an entry and has an empty one, under the largest id. -/
theorem stored_reads_back_largest_id :
    let p : Approval.Policy := ⟨(Approval.Node.ofSigner "foo").encode,
      [⟨"foo", "first address"⟩, ⟨"", ""⟩, ⟨"foo", "first address"⟩]⟩
    let e : Envelope := ⟨2 ^ 64 - 1, "treasury", .of p⟩
    ∃ raw, e.encode = .ok raw ∧ decode raw = .ok e ∧ e.unpackApproval = .ok p := by
  intro p e
  obtain ⟨e', raw, packs, written, stored⟩ :=
    stored_reads_back.1 (2 ^ 64 - 1) "treasury" p (by decide) (by decide)
  have same : e' = e := Option.some.inj (packs.symm.trans rfl)
  subst same
  have fits : raw.length ≤ Wire.longestPayload := by
    obtain ⟨-, name, named, rfl⟩ := encode_eq_ok_iff.1 written
    obtain rfl := Text.ofString_injective named
    decide +kernel
  obtain ⟨_, read, rfl, unpacked⟩ := stored fits
  exact ⟨raw, written, read, unpacked⟩

end Envelope

end Custody
