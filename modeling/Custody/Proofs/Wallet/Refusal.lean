import Custody.Category
import Custody.Proofs.Ethereum.Reading
import Custody.Proofs.Wallet.Description

/-!
# The faults that a wallet refuses bytes with

Whatever bytes a wallet is given, it reads a transfer from them or refuses them with a fault. The
faults are meant to be those of a transaction's bytes (`Category.decode`) and of its shape, which
all fall into `Category.parse`.

`refusal_declared_iff` says exactly when that is so: unless a list that is not empty stands where a
quantity is read, which is a fault of no category. In particular a wallet that was built never
fails to sign for a transaction that it could read (`digest_eq`).
-/

namespace Custody

open Ethereum Transaction

/-- A fault of reading a transaction's bytes is in the category of such faults, unless the reading
broke off. -/
theorem Ethereum.Transaction.Fault.category?_eq_decode_iff {fault : Transaction.Fault} :
    fault.category? = some .decode ↔ ∀ field, fault ≠ .listAsQuantity field := by
  cases fault with
  | listAsQuantity field =>
    constructor
    · intro category
      simp [Fault.category?] at category
    · intro other
      exact absurd rfl (other field)
  | _ => simp [Fault.category?]

/-- Bytes that are no transaction are refused as such exactly if no list that is not empty is
reached in the place of a quantity. -/
theorem Ethereum.Transaction.decode_declared_iff {raw : Bytes} :
    (∀ fault, decode raw = .error fault → fault.category? = some .decode) ↔
      ¬∃ field, NestedQuantity raw field := by
  constructor
  · rintro declared ⟨field, broken⟩
    have category := declared _ (decode_eq_listAsQuantity_iff.2 broken)
    exact Fault.category?_eq_decode_iff.1 category field rfl
  · intro unbroken fault misread
    rw [Fault.category?_eq_decode_iff]
    rintro field rfl
    exact unbroken ⟨field, decode_eq_listAsQuantity_iff.1 misread⟩

namespace Ethereum.Payment

/-- A fault is one that a caller is promised: its category falls into that of faults of parsing. -/
def Fault.Declared (fault : Fault) : Prop :=
  ∃ category, fault.category? = some category ∧ category.Within .parse

/-- Whatever is wrong with a call is a fault that a caller is promised. -/
theorem Fault.declared_call (fault : TokenCall.Fault) : (Fault.call fault).Declared := by
  refine ⟨fault.category, rfl, ?_⟩
  cases fault with
  | tooShort length =>
    show Category.Within .shortPayload .parse
    decide
  | otherMethod selector =>
    show Category.Within .selectorMismatch .parse
    decide
  | malformedRecipient =>
    show Category.Within .malformedAddress .parse
    decide

/-- A transaction's bytes are refused with a fault that a caller is promised, unless the reading
broke off. -/
theorem Fault.declared_transaction_iff {fault : Transaction.Fault} :
    (Fault.transaction fault).Declared ↔ ∀ field, fault ≠ .listAsQuantity field := by
  rw [← Transaction.Fault.category?_eq_decode_iff]
  constructor
  · rintro ⟨category, eq, -⟩
    cases fault <;> first | rfl | simp [Fault.category?, Transaction.Fault.category?] at eq
  · intro category
    exact ⟨.decode, category, by decide⟩

/-- A transaction that was read and is no payment is refused with a fault that a caller is
promised. -/
theorem declared_of_ofTransaction {d : Draft} {v r s : Nat} {chainId : Int} (known : 0 ≤ chainId)
    (recipient : isRecipient d.recipient = true) {fault : Fault}
    (refused : ofTransaction chainId (d.transaction v r s) = .error fault) : fault.Declared := by
  have shape : Category.Within .shapeViolation .parse := by decide
  have signed := digest_eq v r s known recipient
  unfold ofTransaction at refused
  split at refused
  · obtain rfl := Except.error.inj refused
    exact ⟨_, rfl, shape⟩
  · split at refused
    · split at refused
      · obtain rfl := Except.error.inj refused
        exact ⟨_, rfl, shape⟩
      · rw [signed] at refused
        simp at refused
    · split at refused
      · obtain rfl := Except.error.inj refused
        exact ⟨_, rfl, shape⟩
      · -- The digest exists, so only the call can be at fault.
        rw [ofTokenCall, signed, Outcome.bind_eq_error] at refused
        rcases refused with misread | ⟨call, -, unsigned⟩
        · obtain ⟨flaw, -, rfl⟩ := Outcome.mapError_eq_error.1 misread
          exact Fault.declared_call flaw
        · simp at unsigned

/-- Bytes are refused because they are not read as a transaction, or with a fault that a caller is
promised. -/
theorem parse_eq_error {chainId : Int} (known : 0 ≤ chainId) {raw : Bytes} {fault : Fault}
    (refused : parse chainId raw = .error fault) :
    (∃ flaw, decode raw = .error flaw ∧ fault = .transaction flaw) ∨ fault.Declared := by
  rw [parse, Outcome.bind_eq_error] at refused
  rcases refused with misread | ⟨tx, read, refused⟩
  · obtain ⟨flaw, cause, rfl⟩ := Outcome.mapError_eq_error.1 misread
    exact .inl ⟨flaw, cause, rfl⟩
  · obtain ⟨d, v, r, s, rfl, recipient⟩ :=
      exists_draft_of_decode (Outcome.mapError_eq_ok.1 read)
    exact .inr (declared_of_ofTransaction known recipient refused)

/-- Bytes that are not read as a transaction are refused with the fault of the reading. -/
theorem parse_of_decode_error {chainId : Int} {raw : Bytes} {flaw : Transaction.Fault}
    (misread : decode raw = .error flaw) : parse chainId raw = .error (.transaction flaw) := by
  rw [parse, misread]
  rfl

/-- Bytes that are no payment are refused with a fault that a caller is promised exactly if no list
that is not empty is reached in the place of a quantity. -/
theorem parse_declared_iff {chainId : Int} (known : 0 ≤ chainId) {raw : Bytes} :
    (∀ fault, parse chainId raw = .error fault → fault.Declared) ↔
      ¬∃ field, NestedQuantity raw field := by
  constructor
  · rintro declared ⟨field, broken⟩
    have misread := decode_eq_listAsQuantity_iff.2 broken
    have category := declared _ (parse_of_decode_error misread)
    exact Fault.declared_transaction_iff.1 category field rfl
  · intro unbroken fault refused
    rcases parse_eq_error known refused with ⟨flaw, misread, rfl⟩ | declared
    · rw [Fault.declared_transaction_iff]
      rintro field rfl
      exact unbroken ⟨field, decode_eq_listAsQuantity_iff.1 misread⟩
    · exact declared

end Ethereum.Payment

namespace Wallet

/-- A wallet refuses what is no payment on its chain, with the same fault. -/
theorem parse_eq_error_iff {w : Wallet} {raw : Bytes} {fault : Payment.Fault} :
    w.parse raw = .error fault ↔ Payment.parse w.chain.chainId raw = .error fault :=
  Outcome.map_eq_error

/-- Bytes are read as a transaction, or refused as bytes that are none, exactly if no list that is
not empty is reached in the place of a quantity; and a wallet that was built reads a transfer from
them, or refuses them with a fault that a caller is promised, in the same case. Otherwise the fault
is in no category. -/
theorem refusal_declared_iff {type name : String} {publicKey : Bytes} {w : Wallet}
    (built : build type publicKey name = .ok w) (raw : Bytes) :
    ((∀ fault, Transaction.decode raw = .error fault → fault.category? = some .decode) ↔
      ¬∃ field, NestedQuantity raw field) ∧
    ((∀ fault, w.parse raw = .error fault → fault.Declared) ↔
      ¬∃ field, NestedQuantity raw field) ∧
    ∀ field, NestedQuantity raw field →
      Transaction.decode raw = .error (.listAsQuantity field) ∧
      w.parse raw = .error (.transaction (.listAsQuantity field)) := by
  have known := Chain.chainId_nonneg_of_find? (find?_of_build built)
  refine ⟨Transaction.decode_declared_iff, ?_, ?_⟩
  · simp only [parse_eq_error_iff]
    exact Payment.parse_declared_iff known
  · intro field broken
    have misread := decode_eq_listAsQuantity_iff.2 broken
    exact ⟨misread, parse_eq_error_iff.2 (Payment.parse_of_decode_error misread)⟩

/-- A list in the place of the call data is refused with a fault that a caller is promised. -/
theorem refusal_declared_iff_listed_data :
    let raw := (Rlp.Item.list [.bytes [], .bytes [], .bytes [], .bytes [], .bytes [],
      .list [.bytes []]]).encode
    ∃ w, build "ethereum" (0x02 :: List.replicate 32 1) "sepolia" = .ok w ∧
      ∀ fault, w.parse raw = .error fault → fault.Declared := by
  intro raw
  have built : build "ethereum" (0x02 :: List.replicate 32 1) "sepolia" =
      .ok ⟨PublicKey.lift (Bytes.toNat (List.replicate 32 1)) false, Chain.sepolia⟩ := by rfl
  have misread : Transaction.decode raw = .error (.badField .data .list) := by
    rw [decode_list (by decide +kernel)]
    rfl
  refine ⟨_, built, (refusal_declared_iff built raw).2.1.2 ?_⟩
  rintro ⟨field, broken⟩
  rw [decode_eq_listAsQuantity_iff.2 broken] at misread
  simp at misread

/-- A list that holds an empty string, as the nonce of an otherwise empty transaction, is refused
with a fault of no category. -/
theorem nested_nonce_undeclared :
    let raw : Bytes := [0xc7, 0xc1, 0x80, 0x80, 0x80, 0x80, 0x80, 0x80]
    ∃ w, build "ethereum" (0x02 :: List.replicate 32 1) "sepolia" = .ok w ∧
      Transaction.decode raw = .error (.listAsQuantity .nonce) ∧
      w.parse raw = .error (.transaction (.listAsQuantity .nonce)) ∧
      ¬(Payment.Fault.transaction (.listAsQuantity .nonce)).Declared := by
  intro raw
  have built : build "ethereum" (0x02 :: List.replicate 32 1) "sepolia" =
      .ok ⟨PublicKey.lift (Bytes.toNat (List.replicate 32 1)) false, Chain.sepolia⟩ := by rfl
  have written : raw = (Rlp.Item.list [.list [.bytes []], .bytes [], .bytes [], .bytes [],
      .bytes [], .bytes []]).encode := by decide +kernel
  have misread : Transaction.decode raw = .error (.listAsQuantity .nonce) := by
    rw [written, decode_list (by decide +kernel)]
    rfl
  refine ⟨_, built, misread, parse_eq_error_iff.2 (Payment.parse_of_decode_error misread), ?_⟩
  intro declared
  exact Payment.Fault.declared_transaction_iff.1 declared .nonce rfl

end Wallet

end Custody
