import Custody.Category
import Custody.Proofs.Ethereum.Payment

/-!
# What becomes of a transaction

A transaction that was read is a payment or falls into one category of faults, and which of these it
is can be told from little of it: from whether it has a recipient and a value, and from the length
and the first 16 bytes of its call data. `TokenCall.Judged` and `Payment.Judged` say this as a list
of cases that exclude each other, the first for call data alone, without the slices that the readers
take. `Payment.parse_classified` compares the readers with the lists.

A token payment read from call data alone is judged by the call data alone
(`ends_ofTokenCall_some_iff`, `ends_ofTokenCall_none_iff`). This is not what the whole list says of
the same transaction without a value: a transaction without call data is misshapen, but its call
data are a call that is too short, and one without a recipient is misshapen, but its call data may
be a token transfer (`ofTokenCall_not_by_list`).
-/

namespace Custody.Ethereum

namespace TokenCall

/-- What call data are taken for: a token transfer, or a fault of a category. -/
inductive Judged (data : Bytes) : Option Category → Prop
  /-- There are fewer bytes than a selector and two words. -/
  | short : data.length < 68 → Judged data (some .shortPayload)
  /-- Otherwise, the first four bytes are not those of `transfer(address,uint256)`. -/
  | other : 68 ≤ data.length → data.take 4 ≠ [0xa9, 0x05, 0x9c, 0xbb] →
      Judged data (some .selectorMismatch)
  /-- Otherwise, one of the twelve bytes in front of the recipient is not zero. -/
  | padded {i : Nat} : 68 ≤ data.length → data.take 4 = [0xa9, 0x05, 0x9c, 0xbb] →
      4 ≤ i → i < 16 → data[i]? ≠ some 0 → Judged data (some .malformedAddress)
  /-- Otherwise, all of these twelve bytes are zero. -/
  | transfer : 68 ≤ data.length → data.take 4 = [0xa9, 0x05, 0x9c, 0xbb] →
      (∀ i < 16, 4 ≤ i → data[i]? = some 0) → Judged data none

/-- How the reading of call data ends: with a call, or with a fault of a category. -/
def ending : Except Fault TokenCall → Option Category
  | .ok _ => none
  | .error fault => some fault.category

/-- The check of the recipient's word looks at the bytes from the fourth to the fifteenth. -/
theorem any_padding_iff {data : Bytes} (size : 68 ≤ data.length) :
    ((((data.drop 4).take wordSize).take 12).any (· != 0)) = true ↔
      ∃ i, 4 ≤ i ∧ i < 16 ∧ data[i]? ≠ some 0 := by
  have slice : ((data.drop 4).take wordSize).take 12 = (data.drop 4).take 12 := by
    rw [List.take_take]
    rfl
  rw [slice, List.any_eq_true]
  constructor
  · rintro ⟨b, mem, nonzero⟩
    obtain ⟨i, found⟩ := List.mem_iff_getElem?.1 mem
    rw [List.getElem?_take] at found
    split at found
    · next within =>
      rw [List.getElem?_drop] at found
      refine ⟨4 + i, by omega, by omega, ?_⟩
      rw [found]
      simpa using nonzero
    · simp at found
  · rintro ⟨i, least, within, nonzero⟩
    have bound : i < data.length := by omega
    have found : ((data.drop 4).take 12)[i - 4]? = some data[i] := by
      rw [List.getElem?_take, if_pos (by omega), List.getElem?_drop, Nat.add_sub_cancel' least,
        List.getElem?_eq_getElem bound]
    refine ⟨data[i], List.mem_of_getElem? found, ?_⟩
    rw [List.getElem?_eq_getElem bound] at nonzero
    simpa using nonzero

/-- The four ways in which call data are read, one for each case of the list. -/
theorem ending_decode_cases (data : Bytes) :
    (data.length < 68 → ending (decode data) = some .shortPayload) ∧
    (68 ≤ data.length → data.take 4 ≠ [0xa9, 0x05, 0x9c, 0xbb] →
      ending (decode data) = some .selectorMismatch) ∧
    (68 ≤ data.length → data.take 4 = [0xa9, 0x05, 0x9c, 0xbb] →
      (∃ i, 4 ≤ i ∧ i < 16 ∧ data[i]? ≠ some 0) →
      ending (decode data) = some .malformedAddress) ∧
    (68 ≤ data.length → data.take 4 = [0xa9, 0x05, 0x9c, 0xbb] →
      (¬∃ i, 4 ≤ i ∧ i < 16 ∧ data[i]? ≠ some 0) → ending (decode data) = none) := by
  have size : transferCallSize = 68 := rfl
  have selector : transferSelector = [0xa9, 0x05, 0x9c, 0xbb] := rfl
  unfold decode
  simp only [size, selector]
  refine ⟨fun short => ?_, fun long other => ?_, fun long same padded => ?_,
    fun long same plain => ?_⟩
  · rw [if_pos short]
    rfl
  · rw [if_neg (by omega), if_pos other]
    rfl
  · rw [if_neg (by omega), if_neg (not_not.2 same), if_pos ((any_padding_iff long).2 padded)]
    rfl
  · rw [if_neg (by omega), if_neg (not_not.2 same), if_neg (mt (any_padding_iff long).1 plain)]
    rfl

/-- Call data are read as the list judges them. -/
theorem ending_decode_iff {data : Bytes} {verdict : Option Category} :
    ending (decode data) = verdict ↔ Judged data verdict := by
  obtain ⟨short, other, padded, transfer⟩ := ending_decode_cases data
  constructor
  · rintro rfl
    by_cases long : 68 ≤ data.length
    · by_cases same : data.take 4 = [0xa9, 0x05, 0x9c, 0xbb]
      · by_cases nonzero : ∃ i, 4 ≤ i ∧ i < 16 ∧ data[i]? ≠ some 0
        · rw [padded long same nonzero]
          obtain ⟨i, least, within, nonzero⟩ := nonzero
          exact .padded long same least within nonzero
        · rw [transfer long same nonzero]
          push Not at nonzero
          exact .transfer long same fun i within least => nonzero i least within
      · rw [other long same]
        exact .other long same
    · rw [short (by omega)]
      exact .short (by omega)
  · intro judged
    cases judged with
    | short few => exact short few
    | other long differ => exact other long differ
    | padded long same least within nonzero => exact padded long same ⟨_, least, within, nonzero⟩
    | transfer long same zero =>
      refine transfer long same ?_
      rintro ⟨i, least, within, nonzero⟩
      exact nonzero (zero i within least)

/-- The parts of a call are slices of the call data. -/
theorem eq_of_decode {data : Bytes} {call : TokenCall} (read : decode data = .ok call) :
    call = ⟨(data.drop 16).take 20, Bytes.toNat ((data.drop 36).take 32)⟩ := by
  have address : ((data.drop 4).take wordSize).drop 12 = (data.drop 16).take 20 := by
    rw [List.drop_take, List.drop_drop]
    rfl
  unfold decode at read
  simp only at read
  split at read
  · simp at read
  · split at read
    · simp at read
    · split at read
      · simp at read
      · obtain rfl := Except.ok.inj read
        rw [address]
        rfl

/-- Call data are judged by their first 16 bytes and by whether they are long enough. -/
theorem Judged.congr {data data' : Bytes} {verdict : Option Category}
    (front : data.take 16 = data'.take 16) (length : data.length < 68 ↔ data'.length < 68)
    (judged : Judged data verdict) : Judged data' verdict := by
  have byte : ∀ i, i < 16 → data'[i]? = data[i]? := fun i within => by
    rw [← List.getElem?_take_of_lt within, ← front, List.getElem?_take_of_lt within]
  have selector : data'.take 4 = data.take 4 := by
    have four : ∀ bs : Bytes, bs.take 4 = (bs.take 16).take 4 := fun bs => by
      rw [List.take_take]
      rfl
    rw [four, four data, front]
  cases judged with
  | short few => exact .short (length.1 few)
  | other long differ => exact .other (by omega) (selector ▸ differ)
  | padded long same least within nonzero =>
    refine .padded (by omega) (selector.trans same) least within ?_
    rwa [byte _ within]
  | transfer long same zero =>
    refine .transfer (by omega) (selector.trans same) fun i within least => ?_
    rw [byte i within, zero i within least]

end TokenCall

namespace Transaction

/-- A transaction is not shaped like a transfer: it has no recipient, or both a value and call data,
or neither. -/
def Misshapen (tx : Transaction) : Prop :=
  tx.recipient = [] ∨ (0 < tx.value ∧ tx.data ≠ []) ∨ (tx.value = 0 ∧ tx.data = [])

/-- A transaction can be signed: what a signature commits to can be written. -/
structure Signable (tx : Transaction) : Prop where
  nonce : 0 ≤ tx.nonce
  gasPrice : 0 ≤ tx.gasPrice
  gas : 0 ≤ tx.gas
  recipient : isRecipient tx.recipient = true
  value : 0 ≤ tx.value

/-- Two transactions have the same of what decides whether they are payments. -/
structure Alike (tx tx' : Transaction) : Prop where
  /-- Both have a recipient, or neither does. -/
  recipient : tx.recipient = [] ↔ tx'.recipient = []
  /-- Both have a value, or neither does. -/
  value : 0 < tx.value ↔ 0 < tx'.value
  /-- Their call data start with the same bytes, up to the recipient. -/
  front : tx.data.take 16 = tx'.data.take 16
  /-- Both have enough call data for a call, or neither does. -/
  length : tx.data.length < 68 ↔ tx'.data.length < 68

/-- Being alike goes both ways. -/
theorem Alike.symm {tx tx' : Transaction} (alike : tx.Alike tx') : tx'.Alike tx :=
  ⟨alike.recipient.symm, alike.value.symm, alike.front.symm, alike.length.symm⟩

/-- A quantity that is written is not negative. -/
theorem nonneg_of_writeQuantity {field : Field} {n : Int} {item : Rlp.Item}
    (written : writeQuantity field n = .ok item) : 0 ≤ n := by
  unfold writeQuantity at written
  split at written
  · simp at written
  · next natural => omega

/-- The signing image of a transaction exists on a chain exactly if the transaction is signable. -/
theorem exists_signingImage_iff_signable {tx : Transaction} {chainId : Int}
    (known : 0 ≤ chainId) :
    (∃ image, tx.signingImage chainId = .ok image) ↔ tx.Signable := by
  constructor
  · rintro ⟨image, signed⟩
    simp only [signingImage, encodeSigned, signedItems, unsignedItems, Outcome.map_eq_ok,
      Outcome.bind_eq_ok] at signed
    obtain ⟨_, ⟨_, ⟨_, nonce, _, price, _, gas, _, recipient, _, value, -⟩, -⟩, -⟩ := signed
    refine ⟨nonneg_of_writeQuantity nonce, nonneg_of_writeQuantity price,
      nonneg_of_writeQuantity gas, ?_, nonneg_of_writeQuantity value⟩
    unfold writeRecipient at recipient
    split at recipient
    · next length => exact length
    · simp at recipient
  · rintro ⟨nonce, price, gas, recipient, value⟩
    -- The transaction's own signature is replaced, so that it may as well have none.
    have natural : ({ tx with v := 0, r := 0, s := 0 } : Transaction).NonNegative :=
      ⟨nonce, price, gas, value, le_rfl, le_rfl, le_rfl⟩
    obtain ⟨d, v, r, s, draft⟩ := exists_draft natural
    have same : tx.recipient = d.recipient := congrArg Transaction.recipient draft
    refine ⟨d.image chainId, ?_⟩
    calc tx.signingImage chainId
        = ({ tx with v := 0, r := 0, s := 0 } : Transaction).signingImage chainId := rfl
      _ = (d.transaction v r s).signingImage chainId := by rw [draft]
      _ = .ok (d.image chainId) := by rw [d.signingImage_eq v r s known, if_pos (same ▸ recipient)]

end Transaction

namespace Payment

open Transaction

/-- What a transaction is taken for: a payment, or a fault of a category. -/
inductive Judged (tx : Transaction) : Option Category → Prop
  /-- It is not shaped like a transfer. -/
  | misshapen : tx.Misshapen → Judged tx (some .shapeViolation)
  /-- Otherwise, it has a value. -/
  | native : ¬tx.Misshapen → 0 < tx.value → Judged tx none
  /-- Otherwise, it has call data and no value, and its call data are judged. -/
  | token {verdict : Option Category} : ¬tx.Misshapen → tx.value = 0 →
      TokenCall.Judged tx.data verdict → Judged tx verdict

/-- The reading of a payment ends as a verdict says: with a payment, or with a fault of the
category. -/
def Ends (result : Except Fault Payment) : Option Category → Prop
  | none => ∃ p, result = .ok p
  | some category => ∃ fault, result = .error fault ∧ fault.category? = some category

/-- A reading ends in one way. -/
theorem Ends.unique {result : Except Fault Payment} {verdict verdict' : Option Category}
    (ends : Ends result verdict) (ends' : Ends result verdict') : verdict = verdict' := by
  cases verdict with
  | none =>
    obtain ⟨p, rfl⟩ := ends
    cases verdict' with
    | none => rfl
    | some category =>
      obtain ⟨fault, refused, -⟩ := ends'
      simp at refused
  | some category =>
    obtain ⟨fault, rfl, known⟩ := ends
    cases verdict' with
    | none =>
      obtain ⟨p, read⟩ := ends'
      simp at read
    | some category' =>
      obtain ⟨fault', refused, known'⟩ := ends'
      obtain rfl := Except.error.inj refused
      exact known.symm.trans known'

/-- A transaction is judged in one way. -/
theorem Judged.unique {tx : Transaction} {verdict verdict' : Option Category}
    (judged : Judged tx verdict) (judged' : Judged tx verdict') : verdict = verdict' := by
  cases judged with
  | misshapen shape =>
    cases judged' with
    | misshapen _ => rfl
    | native shaped _ => exact absurd shape shaped
    | token shaped _ _ => exact absurd shape shaped
  | native shaped positive =>
    cases judged' with
    | misshapen shape => exact absurd shape shaped
    | native _ _ => rfl
    | token _ free _ => omega
  | token shaped free call =>
    cases judged' with
    | misshapen shape => exact absurd shape shaped
    | native _ positive => omega
    | token _ _ call' =>
      rw [← TokenCall.ending_decode_iff] at call call'
      exact call.symm.trans call'

/-- Transactions that are alike are shaped alike. -/
theorem misshapen_iff_of_alike {tx tx' : Transaction} (natural : 0 ≤ tx.value)
    (natural' : 0 ≤ tx'.value) (alike : tx.Alike tx') : tx.Misshapen ↔ tx'.Misshapen := by
  have positive := alike.value
  have free : tx.value = 0 ↔ tx'.value = 0 := by omega
  have plain : tx.data = [] ↔ tx'.data = [] := by
    have front : ∀ bs : Bytes, bs = [] ↔ bs.take 16 = [] := fun bs => by simp
    rw [front, front tx'.data, alike.front]
  unfold Misshapen
  rw [alike.recipient, positive, free, ne_eq, plain]

/-- Transactions that are alike are judged alike. -/
theorem Judged.congr {tx tx' : Transaction} (natural : 0 ≤ tx.value) (natural' : 0 ≤ tx'.value)
    (alike : tx.Alike tx') {verdict : Option Category} (judged : Judged tx verdict) :
    Judged tx' verdict := by
  have shape := misshapen_iff_of_alike natural natural' alike
  have positive := alike.value
  cases judged with
  | misshapen misshapen => exact .misshapen (shape.1 misshapen)
  | native shaped paid => exact .native (mt shape.2 shaped) (positive.1 paid)
  | token shaped free call =>
    exact .token (mt shape.2 shaped) (by omega) (call.congr alike.front alike.length)

/-! ## Token payments -/

/-- A transaction has a digest on a chain exactly if it is signable. -/
theorem exists_digest_iff {tx : Transaction} {chainId : Int} (known : 0 ≤ chainId) :
    (∃ hash, digest chainId tx = .ok hash) ↔ tx.Signable := by
  rw [← exists_signingImage_iff_signable known]
  unfold digest signingHash
  cases tx.signingImage chainId with
  | error fault => simp
  | ok image => simp

/-- A transaction without a digest fails in no category. -/
theorem category?_of_digest {tx : Transaction} {chainId : Int} {fault : Fault}
    (failed : digest chainId tx = .error fault) : fault.category? = none := by
  unfold digest at failed
  obtain ⟨cause, -, rfl⟩ := Outcome.mapError_eq_error.1 failed
  rfl

/-- Call data that are no call are no payment. -/
theorem ofTokenCall_of_misread {tx : Transaction} {flaw : TokenCall.Fault}
    (misread : TokenCall.decode tx.data = .error flaw) (chainId : Int) :
    ofTokenCall chainId tx = .error (.call flaw) := by
  rw [ofTokenCall, misread]
  rfl

/-- A call is a payment with the transaction's digest. -/
theorem ofTokenCall_of_read {tx : Transaction} {call : TokenCall}
    (read : TokenCall.decode tx.data = .ok call) (chainId : Int) :
    ofTokenCall chainId tx = (digest chainId tx).map fun hash =>
      ⟨call.recipient, call.amount, some tx.recipient, hash⟩ := by
  rw [ofTokenCall, read, Outcome.mapError_ok, Outcome.ok_bind]
  cases digest chainId tx with
  | error fault => rfl
  | ok hash => rfl

/-- A token payment is refused in the category that its call data are judged to be in. -/
theorem ends_ofTokenCall_some_iff {tx : Transaction} {chainId : Int} {category : Category} :
    Ends (ofTokenCall chainId tx) (some category) ↔
      TokenCall.Judged tx.data (some category) := by
  rw [← TokenCall.ending_decode_iff]
  cases read : TokenCall.decode tx.data with
  | error flaw =>
    rw [ofTokenCall_of_misread read, TokenCall.ending, Option.some.injEq]
    constructor
    · rintro ⟨fault, refused, known⟩
      obtain rfl := Except.error.inj refused
      exact Option.some.inj known
    · rintro rfl
      exact ⟨_, rfl, rfl⟩
  | ok call =>
    -- Only the digest can fail, and it fails in no category.
    rw [ofTokenCall_of_read read]
    refine iff_of_false ?_ (by simp [TokenCall.ending])
    rintro ⟨fault, refused, known⟩
    rw [category?_of_digest (Outcome.map_eq_error.1 refused)] at known
    simp at known

/-- A token payment is read from call data that are judged to be a token transfer, if the
transaction is signable. -/
theorem ends_ofTokenCall_none_iff {tx : Transaction} {chainId : Int} (known : 0 ≤ chainId) :
    Ends (ofTokenCall chainId tx) none ↔ TokenCall.Judged tx.data none ∧ tx.Signable := by
  rw [← TokenCall.ending_decode_iff, ← exists_digest_iff known]
  unfold Ends
  cases read : TokenCall.decode tx.data with
  | error flaw =>
    rw [ofTokenCall_of_misread read]
    simp [TokenCall.ending]
  | ok call =>
    rw [ofTokenCall_of_read read]
    cases digest chainId tx with
    | error fault => simp
    | ok hash => simp [TokenCall.ending]

/-- A token payment is a call of the transaction's recipient. -/
theorem exists_call_of_ofTokenCall {tx : Transaction} {chainId : Int} {p : Payment}
    (read : ofTokenCall chainId tx = .ok p) :
    ∃ call, TokenCall.decode tx.data = .ok call ∧
      p = ⟨call.recipient, call.amount, some tx.recipient, p.dataForSigning⟩ := by
  cases decoded : TokenCall.decode tx.data with
  | error flaw =>
    rw [ofTokenCall_of_misread decoded] at read
    simp at read
  | ok call =>
    rw [ofTokenCall_of_read decoded, Outcome.map_eq_ok] at read
    obtain ⟨hash, -, rfl⟩ := read
    exact ⟨call, rfl, rfl⟩

/-! ## All transactions -/

/-- A transaction that was read is signable. -/
theorem signable_of_decode {raw : Bytes} {tx : Transaction} (read : decode raw = .ok tx) :
    tx.Signable := by
  obtain ⟨items, -, read_items⟩ := exists_items_of_decode read
  obtain ⟨natural, recipient⟩ := (ofItems_eq_ok_iff.1 read_items).natural
  exact ⟨natural.nonce, natural.gasPrice, natural.gas, recipient, natural.value⟩

/-- A transaction that is not shaped like a transfer is refused for its shape. -/
theorem ends_of_misshapen {tx : Transaction} (misshapen : tx.Misshapen) (chainId : Int) :
    Ends (ofTransaction chainId tx) (some .shapeViolation) := by
  unfold ofTransaction
  by_cases nobody : tx.recipient = []
  · rw [if_pos nobody]
    exact ⟨_, rfl, rfl⟩
  rw [if_neg nobody]
  rcases misshapen with empty | ⟨paid, called⟩ | ⟨free, plain⟩
  · exact absurd empty nobody
  · rw [if_pos paid, if_pos called]
    exact ⟨_, rfl, rfl⟩
  · rw [if_neg (by omega), if_pos plain]
    exact ⟨_, rfl, rfl⟩

/-- A transaction that is shaped like a transfer and has a value pays it to its recipient. -/
theorem ofTransaction_of_native {tx : Transaction} (shaped : ¬tx.Misshapen) (paid : 0 < tx.value)
    (chainId : Int) :
    ofTransaction chainId tx = (digest chainId tx).map fun hash =>
      ⟨tx.recipient, tx.value.toNat, none, hash⟩ := by
  have somebody : tx.recipient ≠ [] := fun nobody => shaped (.inl nobody)
  have plain : tx.data = [] := not_not.1 fun called => shaped (.inr (.inl ⟨paid, called⟩))
  unfold ofTransaction
  rw [if_neg somebody, if_pos paid, if_neg (not_not.2 plain)]
  cases digest chainId tx with
  | error fault => rfl
  | ok hash => rfl

/-- A transaction that is shaped like a transfer and has no value is read as a token payment. -/
theorem ofTransaction_of_token {tx : Transaction} (shaped : ¬tx.Misshapen) (free : tx.value = 0)
    (chainId : Int) : ofTransaction chainId tx = ofTokenCall chainId tx := by
  have somebody : tx.recipient ≠ [] := fun nobody => shaped (.inl nobody)
  have called : tx.data ≠ [] := fun plain => shaped (.inr (.inr ⟨free, plain⟩))
  unfold ofTransaction
  rw [if_neg somebody, if_neg (by omega), if_neg called]

/-- A transaction that is signable ends as it is judged. -/
theorem Judged.ends {tx : Transaction} {verdict : Option Category} (judged : Judged tx verdict)
    (signable : tx.Signable) {chainId : Int} (known : 0 ≤ chainId) :
    Ends (ofTransaction chainId tx) verdict := by
  cases judged with
  | misshapen shape => exact ends_of_misshapen shape chainId
  | native shaped paid =>
    obtain ⟨hash, signed⟩ := (exists_digest_iff known).2 signable
    rw [ofTransaction_of_native shaped paid, signed]
    exact ⟨_, rfl⟩
  | token shaped free call =>
    rw [ofTransaction_of_token shaped free]
    cases verdict with
    | none => exact (ends_ofTokenCall_none_iff known).2 ⟨call, signable⟩
    | some category => exact ends_ofTokenCall_some_iff.2 call

/-- A transaction is judged, unless its value is negative. -/
theorem exists_judged {tx : Transaction} (natural : 0 ≤ tx.value) :
    ∃ verdict, Judged tx verdict := by
  by_cases shape : tx.Misshapen
  · exact ⟨_, .misshapen shape⟩
  by_cases paid : 0 < tx.value
  · exact ⟨_, .native shape paid⟩
  · exact ⟨_, .token shape (by omega) (TokenCall.ending_decode_iff.1 rfl)⟩

/-- A transaction's bytes end as the transaction is judged. -/
theorem ends_parse_iff {raw : Bytes} {tx : Transaction} (read : decode raw = .ok tx) {chainId : Int}
    (known : 0 ≤ chainId) {verdict : Option Category} :
    Ends (parse chainId raw) verdict ↔ Judged tx verdict := by
  have signable := signable_of_decode read
  obtain ⟨verdict', judged⟩ := exists_judged signable.value
  have ends := judged.ends signable known
  have parsed : parse chainId raw = ofTransaction chainId tx := by
    rw [parse, read]
    rfl
  rw [parsed]
  constructor
  · intro ends'
    rwa [ends'.unique ends]
  · intro judged'
    rwa [judged'.unique judged]

/-! ## Without a value -/

/-- Without its value, a transaction with a recipient and call data is shaped like a transfer. -/
theorem not_misshapen_without_value {tx : Transaction} (somebody : tx.recipient ≠ [])
    (called : tx.data ≠ []) : ¬({ tx with value := 0 } : Transaction).Misshapen := by
  rintro (nobody | ⟨positive, -⟩ | ⟨-, plain⟩)
  · exact somebody nobody
  · exact lt_irrefl 0 positive
  · exact called plain

/-- Without its value, a transaction with a recipient and call data is judged by its call data. -/
theorem judged_without_value_iff {tx : Transaction} (somebody : tx.recipient ≠ [])
    (called : tx.data ≠ []) {verdict : Option Category} :
    Judged { tx with value := 0 } verdict ↔ TokenCall.Judged tx.data verdict := by
  have shaped := not_misshapen_without_value somebody called
  constructor
  · intro judged
    cases judged with
    | misshapen misshapen => exact absurd misshapen shaped
    | native _ positive => exact absurd positive (lt_irrefl 0)
    | token _ _ call => exact call
  · exact .token shaped rfl

/-- A token payment is read, up to the digest, from the transaction without its value as well, if
that has a recipient. -/
theorem ofTransaction_of_ofTokenCall {tx : Transaction} {chainId : Int} (known : 0 ≤ chainId)
    {p : Payment} (read : ofTokenCall chainId tx = .ok p) (somebody : tx.recipient ≠ []) :
    ∃ hash, ofTransaction chainId { tx with value := 0 } =
      .ok { p with dataForSigning := hash } := by
  have signable := ((ends_ofTokenCall_none_iff known).1 ⟨p, read⟩).2
  obtain ⟨hash, signed⟩ : ∃ hash, digest chainId { tx with value := 0 } = .ok hash :=
    (exists_digest_iff known).2 { signable with value := le_rfl }
  obtain ⟨call, decoded, parts⟩ := exists_call_of_ofTokenCall read
  have decoded' : TokenCall.decode ({ tx with value := 0 } : Transaction).data = .ok call := decoded
  have called : tx.data ≠ [] := by
    intro empty
    rw [empty] at decoded
    simp [TokenCall.decode, transferCallSize, wordSize] at decoded
  refine ⟨hash, ?_⟩
  calc ofTransaction chainId { tx with value := 0 }
      = ofTokenCall chainId { tx with value := 0 } :=
        ofTransaction_of_token (not_misshapen_without_value somebody called) rfl chainId
    _ = .ok ⟨call.recipient, call.amount, some tx.recipient, hash⟩ := by
        rw [ofTokenCall_of_read decoded', signed, Outcome.map_ok]
    _ = .ok { p with dataForSigning := hash } := by rw [parts]

/-! ## The lists and the readers -/

/-- Every transaction that is read ends in exactly one way, as the list of cases judges it: as a
payment, or in one category of faults. So does every other transaction that is like it in whether it
has a recipient and a value, in the first 16 bytes of its call data and in whether these are long
enough, on whatever chain.

A token payment that is read from a transaction without looking at its value is judged by the call
data alone, too short ones included; it is a payment only if the transaction can be signed. If there
are a recipient and call data, this is how the list judges the transaction without its value, and
the payment is then the same but for what is signed. -/
theorem parse_classified {chainId : Int} (known : 0 ≤ chainId) :
    (∀ (raw : Bytes) (tx : Transaction), decode raw = .ok tx →
      (∃! verdict, Judged tx verdict) ∧
      (∀ verdict, Ends (parse chainId raw) verdict ↔ Judged tx verdict) ∧
      ∀ (chainId' : Int) (raw' : Bytes) (tx' : Transaction), 0 ≤ chainId' →
        decode raw' = .ok tx' → tx.Alike tx' →
        ∀ verdict, Ends (parse chainId raw) verdict ↔ Ends (parse chainId' raw') verdict) ∧
    ∀ tx : Transaction,
      (∀ category, Ends (ofTokenCall chainId tx) (some category) ↔
        TokenCall.Judged tx.data (some category)) ∧
      (Ends (ofTokenCall chainId tx) none ↔ TokenCall.Judged tx.data none ∧ tx.Signable) ∧
      (tx.recipient ≠ [] → tx.data ≠ [] →
        ∀ verdict, Judged { tx with value := 0 } verdict ↔ TokenCall.Judged tx.data verdict) ∧
      ∀ p, ofTokenCall chainId tx = .ok p →
        p.recipient = (tx.data.drop 16).take 20 ∧
        p.amount = Bytes.toNat ((tx.data.drop 36).take 32) ∧
        p.contract = some tx.recipient ∧
        (tx.recipient ≠ [] → ∃ hash, ofTransaction chainId { tx with value := 0 } =
          .ok { p with dataForSigning := hash }) := by
  refine ⟨fun raw tx read => ⟨?_, fun verdict => ends_parse_iff read known, ?_⟩, fun tx =>
    ⟨fun category => ends_ofTokenCall_some_iff, ends_ofTokenCall_none_iff known,
      fun somebody called verdict => judged_without_value_iff somebody called, ?_⟩⟩
  · obtain ⟨verdict, judged⟩ := exists_judged (signable_of_decode read).value
    exact ⟨verdict, judged, fun verdict' judged' => judged'.unique judged⟩
  · intro chainId' raw' tx' known' read' alike verdict
    have natural := (signable_of_decode read).value
    have natural' := (signable_of_decode read').value
    rw [ends_parse_iff read known, ends_parse_iff read' known']
    exact ⟨Judged.congr natural natural' alike, Judged.congr natural' natural alike.symm⟩
  · intro p read
    obtain ⟨call, decoded, parts⟩ := exists_call_of_ofTokenCall read
    have slices := TokenCall.eq_of_decode decoded
    refine ⟨?_, ?_, ?_, ofTransaction_of_ofTokenCall known read⟩
    · rw [parts, slices]
    · rw [parts, slices]
    · rw [parts]

/-- Two transactions that differ in the last byte in front of the recipient alone, with call data
behind it that are not zero: the one is a payment, and the other's address is malformed, also when
it is read as a token payment with a value. -/
theorem parse_classified_padded :
    let d : UInt8 → Draft := fun b => ⟨9, 1024, 21000, List.replicate 20 0xcc, 0,
      [0xa9, 0x05, 0x9c, 0xbb] ++ List.replicate 11 0 ++ [b] ++ List.replicate 60 0xff⟩
    Ends (parse 1 (d 0).unsigned) none ∧
      Ends (parse 1 (d 1).unsigned) (some .malformedAddress) ∧
      Ends (ofTokenCall 1 { (d 1).transaction 0 0 0 with value := 5 })
        (some .malformedAddress) := by
  intro d
  have read : decode (d 0).unsigned = .ok ((d 0).transaction 0 0 0) :=
    Draft.decode_unsigned rfl (by decide +kernel)
  have read' : decode (d 1).unsigned = .ok ((d 1).transaction 0 0 0) :=
    Draft.decode_unsigned rfl (by decide +kernel)
  have call : TokenCall.Judged (d 0).data none := TokenCall.ending_decode_iff.1 (by decide +kernel)
  have call' : TokenCall.Judged (d 1).data (some .malformedAddress) :=
    TokenCall.ending_decode_iff.1 (by decide +kernel)
  have known : (0 : Int) ≤ 1 := by decide
  obtain ⟨parsed, called⟩ := parse_classified known
  refine ⟨?_, ?_, ?_⟩
  · obtain ⟨-, ends, -⟩ := parsed _ _ read
    exact (ends none).2 (.token (by simp [Misshapen, d]) rfl call)
  · obtain ⟨-, ends, -⟩ := parsed _ _ read'
    exact (ends _).2 (.token (by simp [Misshapen, d]) rfl call')
  · obtain ⟨refused, -⟩ := called { (d 1).transaction 0 0 0 with value := 5 }
    exact (refused .malformedAddress).2 call'

/-- The list of cases does not say of a transaction without a value how it is read as a token
payment: without call data it is misshapen, but read as a call that is too short, and without a
recipient it is misshapen, but read as a payment. -/
theorem ofTokenCall_not_by_list :
    let d : Draft := ⟨9, 1024, 21000, List.replicate 20 0x35, 0, []⟩
    let d' : Draft := ⟨9, 1024, 21000, [], 0, [0xa9, 0x05, 0x9c, 0xbb] ++ List.replicate 64 0⟩
    (decode d.unsigned = .ok (d.transaction 0 0 0) ∧
      Judged (d.transaction 0 0 0) (some .shapeViolation) ∧
      ¬Ends (ofTokenCall 1 (d.transaction 0 0 0)) (some .shapeViolation) ∧
      Ends (ofTokenCall 1 (d.transaction 0 0 0)) (some .shortPayload)) ∧
    decode d'.unsigned = .ok (d'.transaction 0 0 0) ∧
      Judged (d'.transaction 0 0 0) (some .shapeViolation) ∧
      ¬Ends (ofTokenCall 1 (d'.transaction 0 0 0)) (some .shapeViolation) ∧
      Ends (ofTokenCall 1 (d'.transaction 0 0 0)) none := by
  intro d d'
  have short : Ends (ofTokenCall 1 (d.transaction 0 0 0)) (some .shortPayload) :=
    ends_ofTokenCall_some_iff.2 (.short (by decide))
  have call : TokenCall.Judged (d'.transaction 0 0 0).data none :=
    TokenCall.ending_decode_iff.1 (by decide +kernel)
  have transfer : Ends (ofTokenCall 1 (d'.transaction 0 0 0)) none :=
    (ends_ofTokenCall_none_iff (by decide)).2 ⟨call, by constructor <;> decide⟩
  refine ⟨⟨Draft.decode_unsigned rfl (by decide +kernel), .misshapen (.inr (.inr ⟨rfl, rfl⟩)), ?_,
    short⟩, Draft.decode_unsigned rfl (by decide +kernel), .misshapen (.inl rfl), ?_, transfer⟩
  · intro misshapen
    simpa using misshapen.unique short
  · intro misshapen
    simpa using misshapen.unique transfer

end Payment

end Custody.Ethereum
