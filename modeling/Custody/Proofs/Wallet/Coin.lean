import Custody.Proofs.Wallet.Description

/-!
# What a coin identifier identifies

A wallet writes a coin identifier by putting the contract's address behind the chain's coin prefix,
and a transfer's contract is read back from what follows the first slash. The slash that ends the
prefix is the first one only if the symbol holds none itself; a slash within the address does no
harm, for it comes later.

`contract_describe_iff` says that this is the one condition under which the contract that is read
back is the one that was written, and `describe_coinIdentifier_inj_iff` that two identifiers which
are equal stand for one symbol and one contract as soon as both or neither has a contract.
`coin_identified_iff` states both for the transfers that wallets read from bytes.
-/

namespace Custody

open Ethereum Transaction

/-! ## The first slash -/

/-- The contract of a transfer is what follows the first slash of its coin identifier. -/
theorem Transfer.contract_of_first_slash {t : Transfer} {front rest : Bytes}
    (first : slash ∉ front) (spelled : t.coinIdentifier = front ++ slash :: rest) :
    t.contract = if rest = [] then none else some rest := by
  have before : ∀ b ∈ front, (b != slash) = true := by
    intro b mem
    rw [bne_iff_ne]
    rintro rfl
    exact first mem
  have found : t.coinIdentifier.dropWhile (· != slash) = slash :: rest := by
    rw [spelled, List.dropWhile_append_of_pos before]
    rfl
  rw [Transfer.contract, found]
  cases rest with
  | nil => rfl
  | cons b rest => rfl

namespace Chain

/-- The bytes of a chain's symbol. -/
def symbolBytes (chain : Chain) : Bytes :=
  chain.symbol.toList.map fun c => UInt8.ofNat c.toNat

/-- The symbol of a chain holds no slash. -/
def PlainSymbol (chain : Chain) : Prop :=
  '/' ∉ chain.symbol.toList

instance (chain : Chain) : Decidable chain.PlainSymbol :=
  inferInstanceAs (Decidable (¬_))

/-- The coin prefix is the symbol's bytes and a slash. -/
theorem coinPrefix_append (chain : Chain) (rest : Bytes) :
    chain.coinPrefix ++ rest = chain.symbolBytes ++ slash :: rest := by
  rw [coinPrefix, List.append_assoc]
  rfl

/-- The byte of a character in a symbol has the character's code. -/
theorem toNat_symbolByte {chain : Chain} {c : Char} (mem : c ∈ chain.symbol.toList) :
    (UInt8.ofNat c.toNat).toNat = c.toNat := by
  have ascii : c.toNat < 128 := by
    have all := List.all_eq_true.1 chain.ascii c mem
    exact of_decide_eq_true all
  rw [UInt8.toNat_ofNat', Nat.mod_eq_of_lt (by omega)]

/-- The characters of a symbol are read back from its bytes. -/
theorem map_symbolBytes (chain : Chain) :
    chain.symbolBytes.map (fun b => Char.ofNat b.toNat) = chain.symbol.toList := by
  rw [symbolBytes, List.map_map]
  calc chain.symbol.toList.map ((fun b => Char.ofNat b.toNat) ∘ fun c => UInt8.ofNat c.toNat)
      = chain.symbol.toList.map id := by
        refine List.map_congr_left fun c mem => ?_
        rw [Function.comp_apply, toNat_symbolByte mem, Char.ofNat_toNat, id]
    _ = chain.symbol.toList := List.map_id _

/-- Symbols with the same bytes are the same. -/
theorem symbol_eq_of_symbolBytes {chain₁ chain₂ : Chain}
    (same : chain₁.symbolBytes = chain₂.symbolBytes) : chain₁.symbol = chain₂.symbol := by
  apply String.toList_injective
  rw [← chain₁.map_symbolBytes, ← chain₂.map_symbolBytes, same]

/-- The bytes of a symbol hold a slash exactly if its characters do. -/
theorem slash_mem_symbolBytes_iff {chain : Chain} :
    slash ∈ chain.symbolBytes ↔ '/' ∈ chain.symbol.toList := by
  constructor
  · intro mem
    rw [← chain.map_symbolBytes]
    exact List.mem_map.2 ⟨slash, mem, rfl⟩
  · intro mem
    exact List.mem_map.2 ⟨'/', mem, rfl⟩

end Chain

namespace Wallet

/-! ## Described payments -/

/-- The contract that is read back from a described payment is the payment's own, exactly if the
chain's symbol holds no slash. -/
theorem contract_describe_iff {chain : Chain} {p : Payment}
    (address : ∀ c, p.contract = some c → c.length = 20) :
    (describe chain p).contract = p.contract ↔ chain.PlainSymbol := by
  have spelled : (describe chain p).coinIdentifier =
      chain.symbolBytes ++ slash :: p.contract.getD [] := chain.coinPrefix_append _
  by_cases plain : slash ∈ chain.symbolBytes
  · -- What follows the symbol's own slash is longer than the contract.
    obtain ⟨front, back, symbol, first⟩ := List.eq_append_cons_of_mem plain
    rw [symbol, List.append_assoc, List.cons_append] at spelled
    have read := Transfer.contract_of_first_slash first spelled
    rw [if_neg (by simp)] at read
    refine iff_of_false ?_ (not_not_intro (Chain.slash_mem_symbolBytes_iff.1 plain))
    rw [read]
    intro same
    have length := congrArg (fun c => (c.getD []).length) same
    simp only [Option.getD_some, List.length_append, List.length_cons] at length
    omega
  · have read := Transfer.contract_of_first_slash plain spelled
    refine iff_of_true ?_ (mt Chain.slash_mem_symbolBytes_iff.2 plain)
    rw [read]
    cases contract : p.contract with
    | none => rfl
    | some c =>
      have nonempty : c ≠ [] := by
        rintro rfl
        simpa using address [] contract
      exact if_neg nonempty

/-- Described payments with one coin identifier have one symbol and one contract, exactly if both or
neither of them has a contract. -/
theorem describe_coinIdentifier_inj_iff {chain₁ chain₂ : Chain} {p₁ p₂ : Payment}
    (address₁ : ∀ c, p₁.contract = some c → c.length = 20)
    (address₂ : ∀ c, p₂.contract = some c → c.length = 20)
    (same : (describe chain₁ p₁).coinIdentifier = (describe chain₂ p₂).coinIdentifier) :
    chain₁.symbol = chain₂.symbol ∧ p₁.contract = p₂.contract ↔
      p₁.contract.isSome = p₂.contract.isSome := by
  have spelled : chain₁.symbolBytes ++ slash :: p₁.contract.getD [] =
      chain₂.symbolBytes ++ slash :: p₂.contract.getD [] := by
    rw [← chain₁.coinPrefix_append, ← chain₂.coinPrefix_append]
    exact same
  constructor
  · rintro ⟨-, contract⟩
    rw [contract]
  · intro both
    -- What is behind the prefixes has one length, so the prefixes end at the same place.
    cases contract₁ : p₁.contract with
    | none =>
      have contract₂ : p₂.contract = none := by
        rwa [contract₁, Option.isSome_none, eq_comm, Option.isSome_eq_false_iff,
          Option.isNone_iff_eq_none] at both
      rw [contract₁, contract₂] at spelled
      have symbols := (List.append_inj' spelled rfl).1
      exact ⟨Chain.symbol_eq_of_symbolBytes symbols, contract₂.symm⟩
    | some c₁ =>
      obtain ⟨c₂, contract₂⟩ : ∃ c₂, p₂.contract = some c₂ := by
        rwa [contract₁, Option.isSome_some, eq_comm, Option.isSome_iff_exists] at both
      rw [contract₁, contract₂, Option.getD_some, Option.getD_some] at spelled
      have length : (slash :: c₁).length = (slash :: c₂).length := by
        rw [List.length_cons, List.length_cons, address₁ c₁ contract₁, address₂ c₂ contract₂]
      obtain ⟨symbols, contracts⟩ := List.append_inj' spelled length
      rw [contract₂, (List.cons.inj contracts).2]
      exact ⟨Chain.symbol_eq_of_symbolBytes symbols, rfl⟩

/-! ## Transfers that wallets read -/

/-- A wallet reads a transfer from the bytes of a payment on its chain. -/
structure Reads (w : Wallet) (raw : Bytes) (t : Transfer) (p : Payment) : Prop where
  /-- The chain's id is not negative. -/
  known : 0 ≤ w.chain.chainId
  /-- The wallet reads the transfer from the bytes. -/
  transfer : w.parse raw = .ok t
  /-- The bytes are the payment on the chain. -/
  payment : Payment.parse w.chain.chainId raw = .ok p

/-- From the bytes of a payment on its chain, a wallet reads what it describes it as. -/
theorem reads_describe {w : Wallet} (known : 0 ≤ w.chain.chainId) {raw : Bytes} {p : Payment}
    (payment : Payment.parse w.chain.chainId raw = .ok p) : w.Reads raw (describe w.chain p) p where
  known := known
  transfer := Outcome.map_eq_ok.2 ⟨p, payment, rfl⟩
  payment := payment

/-- What a draft pays is read by every wallet from bytes that are read as the draft's transaction.
-/
theorem exists_reads {w : Wallet} (known : 0 ≤ w.chain.chainId) {raw : Bytes} {d : Draft}
    {v r s : Nat} (read : decode raw = .ok (d.transaction v r s)) {recipient : Bytes} {amount : Nat}
    {contract : Option Bytes} (pays : d.Pays recipient amount contract) :
    ∃ t p, w.Reads raw t p ∧ t.coinIdentifier = w.chain.coinPrefix ++ contract.getD [] ∧
      p.contract = contract := by
  have payment := (Payment.parse_eq_ok_iff known (p := ⟨recipient, amount, contract, _⟩)).2
    ⟨d, v, r, s, read, pays, rfl⟩
  exact ⟨_, _, reads_describe known payment, rfl, rfl⟩

/-- The transfer is the payment as the wallet describes it. -/
theorem Reads.eq_describe {w : Wallet} {raw : Bytes} {t : Transfer} {p : Payment}
    (reads : w.Reads raw t p) : t = describe w.chain p := by
  have read := reads.transfer
  rw [parse, reads.payment, Outcome.map_ok] at read
  exact (Except.ok.inj read).symm

/-- The contract of a payment that was read is an address of 20 bytes. -/
theorem Reads.length_contract {w : Wallet} {raw : Bytes} {t : Transfer} {p : Payment}
    (reads : w.Reads raw t p) {c : Bytes} (contract : p.contract = some c) : c.length = 20 := by
  obtain ⟨d, -, -, -, -, pays, -⟩ := (Payment.parse_eq_ok_iff reads.known).1 reads.payment
  rw [contract] at pays
  exact pays.length_contract

/-- A wallet that reads a transfer reads it from the bytes of a payment, whose contract, if it has
one, is an address of 20 bytes. The contract and the kind of coin that are read back from the
transfer's coin identifier are the payment's, exactly if the chain's symbol holds no slash. Of any
other transfer that some wallet reads with the same coin identifier, symbol and contract are the
same exactly if both or neither of the payments has a contract; and that is so if neither of the
symbols holds a slash. -/
theorem coin_identified_iff {w : Wallet} (known : 0 ≤ w.chain.chainId) {raw : Bytes} {t : Transfer}
    (read : w.parse raw = .ok t) :
    ∃ p, w.Reads raw t p ∧ (∀ c, p.contract = some c → c.length = 20) ∧
      (t.contract = p.contract ∧ t.isToken = p.contract.isSome ↔ w.chain.PlainSymbol) ∧
      ∀ (w' : Wallet) (raw' : Bytes) (t' : Transfer) (p' : Payment), w'.Reads raw' t' p' →
        t'.coinIdentifier = t.coinIdentifier →
        (w'.chain.symbol = w.chain.symbol ∧ p'.contract = p.contract ↔
          p'.contract.isSome = p.contract.isSome) ∧
        (w'.chain.PlainSymbol → w.chain.PlainSymbol →
          w'.chain.symbol = w.chain.symbol ∧ p'.contract = p.contract) := by
  obtain ⟨p, payment, rfl⟩ := Outcome.map_eq_ok.1 read
  have reads := reads_describe known payment
  have address : ∀ c, p.contract = some c → c.length = 20 := fun c => reads.length_contract
  refine ⟨p, reads, address, ?_, fun w' raw' t' p' reads' same => ?_⟩
  · rw [← contract_describe_iff address]
    refine ⟨And.left, fun contract => ⟨contract, ?_⟩⟩
    rw [Transfer.isToken, contract]
  · have address' : ∀ c, p'.contract = some c → c.length = 20 := fun c => reads'.length_contract
    obtain rfl := reads'.eq_describe
    have identified := describe_coinIdentifier_inj_iff address' address same
    refine ⟨identified, fun plain' plain => identified.2 ?_⟩
    -- The contracts are both read back from the one identifier.
    have contract := (contract_describe_iff address).2 plain
    have contract' := (contract_describe_iff address').2 plain'
    rw [← contract, ← contract', Transfer.contract, Transfer.contract, same]

/-- A token whose contract's address is made of slashes, paid on Sepolia and on Holesky: the
contract is read back whole, and the two transfers are of one coin. -/
theorem coin_identified_iff_slashes :
    let d : Draft := ⟨9, 20000000000, 60000, List.replicate 20 0x2f, 0,
      TokenCall.encode ⟨List.replicate 20 0xaa, 1000⟩⟩
    let w : Wallet := ⟨⟨1, 2⟩, Chain.sepolia⟩
    let w' : Wallet := ⟨⟨3, 4⟩, Chain.holesky⟩
    ∃ t t' p', w.parse d.unsigned = .ok t ∧ t.contract = some (List.replicate 20 0x2f) ∧
      t.isToken = true ∧ w'.Reads (d.signed 37 1 2) t' p' ∧
      t'.coinIdentifier = t.coinIdentifier ∧ p'.contract = some (List.replicate 20 0x2f) := by
  intro d w w'
  have pays : d.Pays (List.replicate 20 0xaa) 1000 (some (List.replicate 20 0x2f)) :=
    .token ⟨List.replicate 20 0xaa, 1000⟩ [] rfl rfl ⟨rfl, by decide⟩ rfl
  have unsigned : decode d.unsigned = .ok (d.transaction 0 0 0) :=
    Draft.decode_unsigned rfl (by decide +kernel)
  have signed : decode (d.signed 37 1 2) = .ok (d.transaction 37 1 2) :=
    Draft.decode_signed rfl (by decide +kernel)
  have known : 0 ≤ w.chain.chainId := by decide
  have known' : 0 ≤ w'.chain.chainId := by decide
  have plain : w.chain.PlainSymbol := by decide
  have plain' : w'.chain.PlainSymbol := by decide
  obtain ⟨t, p, reads, coin, contract⟩ := exists_reads known unsigned pays
  obtain ⟨t', p', reads', coin', contract'⟩ := exists_reads known' signed pays
  have same : t'.coinIdentifier = t.coinIdentifier := by
    rw [coin, coin']
    rfl
  obtain ⟨q, payment, -, back, identified⟩ := coin_identified_iff known reads.transfer
  obtain rfl := Except.ok.inj (payment.payment.symm.trans reads.payment)
  obtain ⟨whole, token⟩ := back.2 plain
  have one := ((identified w' _ t' p' reads' same).2 plain' plain).2
  rw [contract] at whole token one
  exact ⟨t, t', p', reads.transfer, whole, token, reads', same, one⟩

/-- On a chain whose symbol holds a slash, a payment in the native currency is taken for one in a
token: the contract that is read back is what follows the symbol's own slash. -/
theorem slashed_symbol_misread :
    let d : Draft := ⟨9, 20000000000, 21000, List.replicate 20 0x35, 10 ^ 18, []⟩
    let w : Wallet := ⟨⟨1, 2⟩, { name := "slashed", chainId := 1, symbol := "A/B" }⟩
    ∃ t p, w.Reads d.unsigned t p ∧ p.contract = none ∧ t.contract = some [0x42, 0x2f] ∧
      t.isToken = true := by
  intro d w
  have pays : d.Pays (List.replicate 20 0x35) (10 ^ 18) none := .native rfl (by decide) rfl
  have unsigned : decode d.unsigned = .ok (d.transaction 0 0 0) :=
    Draft.decode_unsigned rfl (by decide +kernel)
  obtain ⟨t, p, reads, coin, contract⟩ := exists_reads (w := w) (by decide) unsigned pays
  have spelled : t.coinIdentifier = [0x41] ++ slash :: [0x42, 0x2f] := by
    rw [coin]
    decide +kernel
  have back : t.contract = some [0x42, 0x2f] := Transfer.contract_of_first_slash (by decide) spelled
  refine ⟨t, p, reads, contract, back, ?_⟩
  rw [Transfer.isToken, back]
  rfl

end Wallet

end Custody
