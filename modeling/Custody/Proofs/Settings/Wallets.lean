import Custody.Proofs.Settings.Checking
import Custody.Proofs.Text.Hex
import Custody.Proofs.Wallet.Building
import Custody.Settings.Build

/-!
# Building the wallets of settings

A wallet is built from settings whose public key was brought into normal form when they were made of
a value. What it is built with is put here in terms of that value: an entry gives the bytes that the
text under `public_key` spells (`Value.GivesKey`), and the normal form denotes these same bytes
(`WalletSettings.givesKey`). `InOrder` says what an entry and the settings made of it have to be
like for a wallet, `Makes` which wallet that is, and `FailsWith` what is reported otherwise: the
type before the chain, and the chain before the key.

`buildWallet_cases` settles one entry. `buildWallets_eq_ok_or_first` carries it to all of them.
-/

namespace Custody

/-! ## Names -/

/-- A character that is shown as itself is shown for no surrogate, if it is not the one that stands
for these. -/
theorem CodePoint.eq_char_of_shown {p : CodePoint} (plain : p.shown ≠ '\ufffd') :
    p = .char p.shown := by
  cases p with
  | char c => rfl
  | surrogate => exact absurd rfl plain

/-- A text is shown as a name exactly if it is the name's, unless the name has the character in it
that stands for surrogates. -/
theorem Text.shown_eq_iff {t : Text} {name : String} (plain : '\ufffd' ∉ name.toList) :
    t.shown = name ↔ t = .ofString name := by
  obtain ⟨points⟩ := t
  constructor
  · intro shown
    have chars : points.map CodePoint.shown = name.toList := by
      rw [← shown, Text.shown, String.toList_ofList]
    have each : ∀ p ∈ points, p = .char p.shown := fun p mem =>
      CodePoint.eq_char_of_shown fun eq =>
        plain (by rw [← chars, ← eq]; exact List.mem_map_of_mem mem)
    rw [ofString, ofChars, ← chars, List.map_map, mk.injEq]
    exact (List.map_id points).symm.trans (List.map_congr_left each)
  · intro eq
    rw [eq, shown, ofString, ofChars, List.map_map]
    exact (congrArg String.ofList (List.map_id _)).trans String.ofList_toList

/-- A text is shown as a type of wallet exactly if it is one. -/
theorem Wallet.shown_mem_types_iff {t : Text} :
    t.shown ∈ types ↔ ∃ type ∈ types, t = .ofString type := by
  have plain : ∀ type ∈ types, '\ufffd' ∉ type.toList := by decide
  constructor
  · intro mem
    exact ⟨_, mem, (Text.shown_eq_iff (plain _ mem)).1 rfl⟩
  · rintro ⟨type, mem, rfl⟩
    rwa [(Text.shown_eq_iff (plain _ mem)).2 rfl]

/-- A text is shown as the name of a known chain exactly if it is that name. -/
theorem Chain.find?_shown_iff {t : Text} {chain : Chain} :
    find? t.shown = some chain ↔ chain ∈ known ∧ t = .ofString chain.name := by
  have plain : ∀ c ∈ known, '\ufffd' ∉ c.name.toList := by decide
  rw [find?_eq_some_iff]
  refine and_congr_right fun mem => ?_
  rw [eq_comm, Text.shown_eq_iff (plain _ mem)]

/-! ## Entries -/

/-- An entry about a wallet gives its public key: the text under `public_key` spells the bytes. -/
def Value.GivesKey (entry : Value) (bytes : Bytes) : Prop :=
  ∃ written text, entry.under? "public_key" = some written ∧
    written.asText = .ok (.ofString text) ∧ Hex.Spells text.toList bytes

/-- An entry gives one public key at most. -/
theorem Value.GivesKey.unique {entry : Value} {bytes bytes' : Bytes}
    (gives : entry.GivesKey bytes) (gives' : entry.GivesKey bytes') : bytes = bytes' := by
  obtain ⟨written, text, found, isText, spells⟩ := gives
  obtain ⟨written', text', found', isText', spells'⟩ := gives'
  obtain rfl := Option.some.inj (found.symm.trans found')
  obtain rfl := Text.ofString_injective (Except.ok.inj (isText.symm.trans isText'))
  exact spells.unique spells'

namespace WalletSettings

/-- The settings of a wallet, made of an entry, can be used: there is their type, their chain is
known, and the bytes that the entry gives load as a key. -/
structure InOrder (w : WalletSettings) (entry : Value) : Prop where
  /-- The type is one there is. -/
  type : ∃ type ∈ Wallet.types, w.type = .ofString type
  /-- The chain is known. -/
  chain : ∃ chain ∈ Chain.known, w.chain = .ofString chain.name
  /-- The bytes of the public key load. -/
  key : ∃ bytes key, entry.GivesKey bytes ∧ PublicKey.load bytes = .ok key

/-- A wallet is what settings, made of an entry, ask for. -/
structure Makes (w : WalletSettings) (entry : Value) (wallet : Wallet) : Prop where
  /-- It is on a known chain. -/
  known : wallet.chain ∈ Chain.known
  /-- That chain is the one named. -/
  chain : w.chain = .ofString wallet.chain.name
  /-- Its address is that of the key that the entry's bytes load as. -/
  address : ∃ bytes key, entry.GivesKey bytes ∧ PublicKey.load bytes = .ok key ∧
    wallet.address = Address.checksummed key.address

/-- What is reported of settings, made of an entry, that cannot be used. -/
inductive FailsWith (w : WalletSettings) (entry : Value) : Wallet.Fault → Prop
  /-- There is no such type. -/
  | type : (∀ type ∈ Wallet.types, w.type ≠ .ofString type) →
      FailsWith w entry (.unknownType w.type.shown)
  /-- There is such a type, and the chain is not known. -/
  | chain : (∃ type ∈ Wallet.types, w.type = .ofString type) →
      (∀ chain ∈ Chain.known, w.chain ≠ .ofString chain.name) →
      FailsWith w entry (.unknownChain w.chain.shown)
  /-- There is such a type, the chain is known, and the bytes do not load. -/
  | key {bytes : Bytes} {reason : PublicKey.Fault} :
      (∃ type ∈ Wallet.types, w.type = .ofString type) →
      (∃ chain ∈ Chain.known, w.chain = .ofString chain.name) →
      entry.GivesKey bytes → PublicKey.load bytes = .error reason → FailsWith w entry (.key reason)

/-- The wallet of settings. -/
def build (w : WalletSettings) : Except Wallet.Fault Wallet :=
  Wallet.build w.type.shown w.publicKey.bytes w.chain.shown

/-- The normal form of a public key denotes the bytes that the entry gives. -/
theorem givesKey {entry : Value} {w : WalletSettings} (read : ofValue entry = .ok w) :
    entry.GivesKey w.publicKey.bytes := by
  obtain ⟨entries, rfl, -, -, publicKey⟩ := ofValue_eq_ok.1 read
  obtain ⟨written, found, hex⟩ := Checked.required_eq_ok.1 publicKey
  obtain ⟨text, isText, normal⟩ := Value.asHex_eq_ok.1 hex
  exact ⟨written, text, found, isText, HexText.spells_of_ofText? normal⟩

variable {entry : Value} {w : WalletSettings} (gives : entry.GivesKey w.publicKey.bytes)
include gives

/-- From settings in order the wallet is built that they ask for. -/
theorem exists_makes (inOrder : w.InOrder entry) :
    ∃ wallet, w.Makes entry wallet ∧ w.build = .ok wallet := by
  obtain ⟨supported, ⟨chain, known, named⟩, bytes, key, gives', loaded⟩ := inOrder
  obtain rfl := gives.unique gives'
  have built : w.build = .ok ⟨key, chain⟩ :=
    Wallet.build_eq_ok_iff.2 ⟨Wallet.shown_mem_types_iff.2 supported,
      Chain.find?_shown_iff.2 ⟨known, named⟩, loaded⟩
  exact ⟨⟨key, chain⟩, ⟨known, named, _, key, gives, loaded, rfl⟩, built⟩

/-- From settings that are not in order nothing is built, and the first of their faults is
reported. -/
theorem exists_failsWith (out : ¬ w.InOrder entry) :
    ∃ fault, w.FailsWith entry fault ∧ w.build = .error fault := by
  by_cases supported : ∃ type ∈ Wallet.types, w.type = .ofString type
  case neg =>
    have unknown : w.type.shown ∉ Wallet.types := mt Wallet.shown_mem_types_iff.1 supported
    push Not at supported
    exact ⟨_, .type supported, Wallet.build_eq_error_iff.2 (.inl ⟨unknown, rfl⟩)⟩
  case pos =>
    have type := Wallet.shown_mem_types_iff.2 supported
    by_cases known : ∃ chain ∈ Chain.known, w.chain = .ofString chain.name
    case neg =>
      have unknown : Chain.find? w.chain.shown = none :=
        Option.eq_none_iff_forall_ne_some.2 fun chain found =>
          known ⟨chain, Chain.find?_shown_iff.1 found⟩
      push Not at known
      exact ⟨_, .chain supported known,
        Wallet.build_eq_error_iff.2 (.inr (.inl ⟨type, unknown, rfl⟩))⟩
    case pos =>
      -- Only the key is left to fail.
      cases loaded : PublicKey.load w.publicKey.bytes with
      | ok key => exact absurd ⟨supported, known, _, key, gives, loaded⟩ out
      | error reason =>
        obtain ⟨chain, mem, named⟩ := known
        have found := Chain.find?_shown_iff.2 ⟨mem, named⟩
        exact ⟨_, .key supported ⟨chain, mem, named⟩ gives loaded,
          Wallet.build_eq_error_iff.2 (.inr (.inr ⟨type, ⟨chain, found⟩, reason, loaded, rfl⟩))⟩

/-- A wallet is built from settings exactly if they are in order. -/
theorem exists_build_iff : (∃ wallet, w.build = .ok wallet) ↔ w.InOrder entry := by
  constructor
  · rintro ⟨wallet, built⟩
    by_contra out
    obtain ⟨fault, -, failed⟩ := exists_failsWith gives out
    exact absurd (built.symm.trans failed) nofun
  · intro inOrder
    obtain ⟨wallet, -, built⟩ := exists_makes gives inOrder
    exact ⟨wallet, built⟩

end WalletSettings

/-! ## All entries -/

namespace Settings

/-- Settings have a wallet for each entry of the value that they are made of, in their order. -/
theorem forall₂_wallets {value : Value} {s : Settings} (read : ofValue value = .ok s) :
    List.Forall₂ (fun entry w => WalletSettings.ofValue entry = .ok w)
      (value.itemsUnder "wallets") s.wallets := by
  obtain ⟨entries, rfl, -, wallets, -⟩ := ofValue_eq_ok.1 read
  exact Checked.forall₂_of_optional wallets

/-- All wallets are built, or the first failure is reported. The settings are made of a value, and
each wallet's of an entry there. The text that is kept of a public key denotes, behind its marker,
the bytes that the entry gives. The wallets are built if and only if all settings are in order with
these bytes. There is then one for each entry, in their order, and it is what the settings ask for.
Otherwise the building fails with what is reported of the first settings that are not in order,
whatever comes after them. -/
theorem buildWallets_eq_ok_or_first {value : Value} {s : Settings} (read : ofValue value = .ok s) :
    let pairs := (value.itemsUnder "wallets").zip s.wallets
    (value.itemsUnder "wallets").length = s.wallets.length ∧
    (∀ pair ∈ pairs, ∃ bytes, pair.1.GivesKey bytes ∧
      Hex.Denotes (pair.2.publicKey.text.toList.drop 2) bytes) ∧
    ((∃ wallets, s.buildWallets = .ok wallets) ↔ ∀ pair ∈ pairs, pair.2.InOrder pair.1) ∧
    (∀ wallets, s.buildWallets = .ok wallets →
      List.Forall₂ (fun pair wallet => pair.2.Makes pair.1 wallet) pairs wallets) ∧
    ∀ before entry w later, pairs = before ++ (entry, w) :: later →
      (∀ pair ∈ before, pair.2.InOrder pair.1) → ¬ w.InOrder entry →
        ∃ fault, w.FailsWith entry fault ∧
          ∀ rest, { s with wallets := before.map Prod.snd ++ w :: rest }.buildWallets =
            .error fault := by
  intro pairs
  obtain ⟨length, each⟩ := List.forall₂_iff_zip.1 (forall₂_wallets read)
  have gives : ∀ pair ∈ pairs, pair.1.GivesKey pair.2.publicKey.bytes := fun pair mem =>
    WalletSettings.givesKey (each mem)
  -- Building looks at the settings only, so it can be said of the pairs.
  have built (wallets) : s.buildWallets = .ok wallets ↔
      List.Forall₂ (fun pair wallet => pair.2.build = .ok wallet) pairs wallets := by
    have settings : pairs.map Prod.snd = s.wallets := List.map_snd_zip (Nat.le_of_eq length.symm)
    rw [buildWallets, Outcome.mapM_eq_ok, ← settings, List.forall₂_map_left_iff]
    rfl
  refine ⟨length, fun pair mem => ⟨_, gives pair mem, ?_⟩, ?_, ?_, ?_⟩
  · rw [HexText.text, String.toList_ofList]
    exact pair.2.publicKey.denotes_bytes
  · simp only [built, ← Outcome.mapM_eq_ok, Outcome.exists_mapM_eq_ok_iff]
    exact forall₂_congr fun pair mem => WalletSettings.exists_build_iff (gives pair mem)
  · intro wallets all
    refine (List.forall₂_and_left ..).2 ⟨gives, (built wallets).1 all⟩ |>.imp ?_
    rintro pair wallet ⟨gives, built⟩
    have inOrder := (WalletSettings.exists_build_iff gives).1 ⟨wallet, built⟩
    obtain ⟨wallet', makes, built'⟩ := WalletSettings.exists_makes gives inOrder
    obtain rfl := Except.ok.inj (built.symm.trans built')
    exact makes
  · intro before entry w later split ready out
    rw [split] at gives
    have given := gives (entry, w) (List.mem_append_right _ List.mem_cons_self)
    obtain ⟨fault, reported, failed⟩ := WalletSettings.exists_failsWith given out
    have succeed : ∀ w ∈ before.map Prod.snd, ∃ wallet, w.build = .ok wallet := by
      intro w mem
      obtain ⟨pair, held, rfl⟩ := List.mem_map.1 mem
      have given := gives pair (List.mem_append_left _ held)
      exact (WalletSettings.exists_build_iff given).2 (ready pair held)
    exact ⟨fault, reported, fun rest => Outcome.mapM_eq_error_of_first succeed failed rest⟩

/-- An entry whose public key is written with a marker, in letters of both cases and with blanks. -/
def spacedEntry : Value :=
  .ofFields [("chain", .text "sepolia"), ("public_key", .text
    "0X02 79BE667E f9dcbbac 55A06295 CE870B07 029bfcdb 2dce28d9\t59f2815b 16f81798\n")]

/-- An entry on a chain that is not known, with a public key that does not load. -/
def strangeEntry : Value :=
  .ofFields [("chain", .text "mars"), ("public_key", .text "02")]

/-- The settings of a wallet on Sepolia with the public key of the first of the entries. -/
def spacedWallet : WalletSettings where
  type := "ethereum"
  chain := "sepolia"
  publicKey := ⟨("02 79be667e f9dcbbac 55a06295 ce870b07 029bfcdb 2dce28d9\t59f2815b " ++
    "16f81798\n").toList, by decide +kernel⟩

/-- The settings of the second of the entries. -/
def strangeWallet : WalletSettings where
  type := "ethereum"
  chain := "mars"
  publicKey := ⟨"02".toList, by decide⟩

/-- Of the two entries the second is reported, for its chain, and its key is not looked at. -/
theorem buildWallets_eq_ok_or_first_strange :
    let value : Value := .ofFields [("wallets", .list [spacedEntry, strangeEntry])]
    let s : Settings := ⟨"treasury", [spacedWallet, strangeWallet], []⟩
    ofValue value = .ok s ∧ s.buildWallets = .error (.unknownChain "mars") := by
  intro value s
  have read : ofValue value = .ok s := by decide +kernel
  have first : WalletSettings.ofValue spacedEntry = .ok spacedWallet :=
    (List.forall₂_cons.1 (forall₂_wallets read)).1
  have ready : ∀ pair ∈ [(spacedEntry, spacedWallet)], pair.2.InOrder pair.1 := by
    rw [List.forall_mem_singleton]
    refine ⟨⟨"ethereum", by decide, rfl⟩, ⟨Chain.sepolia, by decide, rfl⟩, ?_⟩
    have loaded : PublicKey.load spacedWallet.publicKey.bytes = .ok (PublicKey.lift
        0x79be667ef9dcbbac55a06295ce870b07029bfcdb2dce28d959f2815b16f81798 false) := by
      decide +kernel
    exact ⟨_, _, WalletSettings.givesKey first, loaded⟩
  have unknown : ∀ chain ∈ Chain.known, strangeWallet.chain ≠ .ofString chain.name := by decide
  have out : ¬ strangeWallet.InOrder strangeEntry := by
    intro inOrder
    obtain ⟨chain, known, named⟩ := inOrder.chain
    exact unknown chain known named
  obtain ⟨-, -, -, -, reports⟩ := buildWallets_eq_ok_or_first read
  obtain ⟨fault, reported, failed⟩ := reports [(spacedEntry, spacedWallet)] strangeEntry
    strangeWallet [] rfl ready out
  refine ⟨read, (failed []).trans ?_⟩
  cases reported with
  | type unsupported => exact absurd rfl (unsupported "ethereum" (by decide))
  | chain => rfl
  | key _ known => exact absurd known (by push Not; exact unknown)

end Settings

end Custody
