import Custody.Ethereum.CallData
import Custody.Proofs.Spelling

/-!
# Which call data is a token transfer

`decode_eq_ok_iff` says which call data is read as a token transfer, and as which: the written form
of the transfer, followed by anything. Both directions walk through the four slices of the data,
the selector, the padding, the recipient and the amount, whose widths are fixed.
-/

namespace Custody.Ethereum.TokenCall

/-- A call that has a written form: the recipient fills an address and the amount fits its word. -/
def WellFormed (call : TokenCall) : Prop :=
  call.recipient.length = 20 ∧ call.amount < 256 ^ wordSize

/-- A selector has four bytes. -/
theorem length_selector : transferSelector.length = 4 := rfl

/-- Bytes that are all zero are a run of zeros. -/
theorem eq_replicate_of_not_any {bs : Bytes} (zeros : bs.any (· != 0) = false) :
    bs = List.replicate bs.length 0 := by
  rw [List.eq_replicate_iff]
  refine ⟨rfl, fun b mem => ?_⟩
  rw [List.any_eq_false] at zeros
  simpa using zeros b mem

/-- A written call is read back, whatever follows. -/
theorem decode_encode {call : TokenCall} (wf : call.WellFormed) (rest : Bytes) :
    decode (call.encode ++ rest) = .ok call := by
  obtain ⟨recipient, amount⟩ := call
  obtain ⟨address, word⟩ := wf
  simp only at address word
  -- The slices of the data, each found behind the ones before it.
  have bytes : encode ⟨recipient, amount⟩ ++ rest =
      transferSelector ++ ((List.replicate 12 0 ++ recipient) ++
        (Bytes.ofNatWide wordSize amount ++ rest)) := by
    simp only [encode, List.append_assoc]
  have padded : (List.replicate 12 (0 : UInt8) ++ recipient).length = wordSize := by
    rw [List.length_append, List.length_replicate, address]
    rfl
  have size : ¬(encode ⟨recipient, amount⟩ ++ rest).length < transferCallSize := by
    simp only [bytes, List.length_append, padded, Bytes.length_ofNatWide, transferCallSize]
    omega
  have selector : (encode ⟨recipient, amount⟩ ++ rest).take 4 = transferSelector := by
    rw [bytes]
    rfl
  have first : ((encode ⟨recipient, amount⟩ ++ rest).drop 4).take wordSize =
      List.replicate 12 0 ++ recipient := by
    rw [bytes, List.drop_left' length_selector, List.take_left' padded]
  have second : ((encode ⟨recipient, amount⟩ ++ rest).drop (4 + wordSize)).take wordSize =
      Bytes.ofNatWide wordSize amount := by
    rw [bytes, ← List.drop_drop, List.drop_left' length_selector, List.drop_left' padded,
      List.take_left' (Bytes.length_ofNatWide _ _)]
  have zeros : ((List.replicate 12 (0 : UInt8) ++ recipient).take 12).any (· != 0) = false := by
    rw [List.take_left' (List.length_replicate)]
    rfl
  simp only [decode, first, second, selector, zeros, size]
  rw [List.drop_left' (List.length_replicate), Bytes.toNat_ofNatWide_of_lt word]
  rfl

/-- Call data of the right length, selector and padding is the written form of the transfer that
its two words hold, with anything behind it. -/
theorem split_encode {data : Bytes} (size : 68 ≤ data.length)
    (selector : data.take 4 = transferSelector)
    (padding : (((data.drop 4).take wordSize).take 12).any (· != 0) = false) :
    let call : TokenCall := ⟨((data.drop 4).take wordSize).drop 12,
      Bytes.toNat ((data.drop (4 + wordSize)).take wordSize)⟩
    call.WellFormed ∧ ∃ rest, data = call.encode ++ rest := by
  intro call
  have first : ((data.drop 4).take wordSize).length = wordSize := by
    rw [List.length_take, List.length_drop, wordSize]
    omega
  have second : ((data.drop (4 + wordSize)).take wordSize).length = wordSize := by
    rw [List.length_take, List.length_drop, wordSize]
    omega
  have address : call.recipient.length = 20 := by
    rw [List.length_drop, first]
    rfl
  have word : call.amount < 256 ^ wordSize := by
    have bound := Bytes.toNat_lt ((data.drop (4 + wordSize)).take wordSize)
    rwa [second] at bound
  have zeros : ((data.drop 4).take wordSize).take 12 = List.replicate 12 0 := by
    have run := eq_replicate_of_not_any padding
    rwa [List.length_take, first] at run
  have spelled : Bytes.ofNatWide wordSize call.amount =
      (data.drop (4 + wordSize)).take wordSize := by
    have spelling := Bytes.ofNatWide_toNat ((data.drop (4 + wordSize)).take wordSize)
    rwa [second] at spelling
  refine ⟨⟨address, word⟩, data.drop (4 + wordSize + wordSize), ?_⟩
  calc data = data.take 4 ++ data.drop 4 := (List.take_append_drop 4 data).symm
    _ = data.take 4 ++ ((data.drop 4).take wordSize ++ (data.drop 4).drop wordSize) := by
      rw [List.take_append_drop wordSize]
    _ = data.take 4 ++ ((data.drop 4).take wordSize ++ ((data.drop (4 + wordSize)).take wordSize ++
          data.drop (4 + wordSize + wordSize))) := by
      rw [List.drop_drop, ← List.drop_drop (i := wordSize) (j := 4 + wordSize),
        List.take_append_drop]
    _ = data.take 4 ++ ((((data.drop 4).take wordSize).take 12 ++ call.recipient) ++
          ((data.drop (4 + wordSize)).take wordSize ++ data.drop (4 + wordSize + wordSize))) := by
      rw [List.take_append_drop]
    _ = call.encode ++ data.drop (4 + wordSize + wordSize) := by
      rw [selector, zeros, ← spelled, encode]
      simp only [List.append_assoc]

/-- Call data is read as a token transfer exactly if it is the written form of that transfer with
anything behind it. -/
theorem decode_eq_ok_iff {data : Bytes} {call : TokenCall} :
    decode data = .ok call ↔ call.WellFormed ∧ ∃ rest, data = call.encode ++ rest := by
  constructor
  · intro read
    unfold decode at read
    simp only at read
    split at read
    · simp at read
    · next size =>
      split at read
      · simp at read
      · next selector =>
        split at read
        · simp at read
        · next padding =>
          obtain rfl := Except.ok.inj read
          rw [Bool.not_eq_true] at padding
          rw [transferCallSize, length_selector, wordSize] at size
          exact split_encode (by omega) (not_not.1 selector) padding
  · rintro ⟨wf, rest, rfl⟩
    exact decode_encode wf rest

end Custody.Ethereum.TokenCall
