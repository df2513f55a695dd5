import Custody.Proofs.Outcome
import Custody.Settings.Validation

/-!
# When values are settings

What the checks of settings succeed on, one lemma for each way in which checks are put together and
one for each kind of settings: a record is taken for settings if each of its fields is, where those
that may be left out have their default. Hex text that was taken is in normal form, and in that
form it is taken for itself.
-/

namespace Custody

open Outcome

/-- What is in a list that another is related to item by item has a partner there. -/
theorem exists_of_forall₂ {α β : Type} {related : α → β → Prop} {as : List α} {bs : List β}
    (all : List.Forall₂ related as bs) {b : β} (mem : b ∈ bs) : ∃ a ∈ as, related a b := by
  induction all with
  | nil => exact absurd mem List.not_mem_nil
  | cons first _ ih =>
    obtain rfl | later := List.mem_cons.1 mem
    · exact ⟨_, List.mem_cons_self, first⟩
    · obtain ⟨a, held, has⟩ := ih later
      exact ⟨a, List.mem_cons_of_mem _ held, has⟩

namespace Checked

variable {α β : Type}

/-- Two results together are right if both are. -/
theorem both_eq_ok {a : Checked α} {b : Checked β} {p : α × β} :
    both a b = .ok p ↔ a = .ok p.1 ∧ b = .ok p.2 := by
  obtain ⟨x, y⟩ := p
  cases a <;> cases b <;> simp [both]

/-- A result is right however far out it is seen. -/
theorem within_eq_ok {step : Step} {c : Checked α} {a : α} : c.within step = .ok a ↔ c = .ok a :=
  mapError_eq_ok

/-- The items of a list are right if each is. -/
theorem each_eq_ok {check : Value → Checked α} {items : List Value} {index : Nat} {as : List α} :
    each check index items = .ok as ↔ List.Forall₂ (fun item a => check item = .ok a) items as := by
  induction items generalizing index as with
  | nil =>
    rw [each, List.forall₂_nil_left_iff]
    exact ⟨fun eq => (Except.ok.inj eq).symm, fun eq => by rw [eq]⟩
  | cons item items ih =>
    rw [each, map_eq_ok, List.forall₂_cons_left_iff]
    simp only [both_eq_ok, within_eq_ok, ih, Prod.exists]
    constructor
    · rintro ⟨a, rest, ⟨first, others⟩, rfl⟩
      exact ⟨a, rest, first, others, rfl⟩
    · rintro ⟨a, rest, first, others, rfl⟩
      exact ⟨a, rest, ⟨first, others⟩, rfl⟩

/-- A field that must be there is right if it is there and right. -/
theorem required_eq_ok {name : String} {check : Value → Checked α}
    {entries : List (Value × Value)} {a : α} :
    required name check entries = .ok a ↔
      ∃ value, Value.field? name entries = some value ∧ check value = .ok a := by
  rw [required]
  cases Value.field? name entries with
  | none => simp
  | some value => simp [within_eq_ok]

/-- A field that may be left out is right if it is, or has its default. -/
theorem optional_eq_ok {name : String} {default : α} {check : Value → Checked α}
    {entries : List (Value × Value)} {a : α} :
    optional name default check entries = .ok a ↔
      (∃ value, Value.field? name entries = some value ∧ check value = .ok a) ∨
        (Value.field? name entries = none ∧ default = a) := by
  rw [optional]
  cases Value.field? name entries with
  | none => simp
  | some value => simp [within_eq_ok]

end Checked

open Checked

/-- A mapping is taken for its entries, and nothing else is. -/
theorem Value.asMapping_eq_ok {value : Value} {entries : List (Value × Value)} :
    value.asMapping = .ok entries ↔ value = .map entries := by
  cases value <;> simp [asMapping, fail]

/-- A list is taken for what its items are. -/
theorem Value.asListOf_list {α : Type} {check : Value → Checked α} {items : List Value}
    {as : List α} : (Value.list items).asListOf check = .ok as ↔
      List.Forall₂ (fun item a => check item = .ok a) items as :=
  each_eq_ok

/-! ## Places -/

/-- What stands under a name in a mapping. -/
def Value.under? (name : String) : Value → Option Value
  | .map entries => field? name entries
  | _ => none

/-- The items of the list that stands under a name in a mapping. -/
def Value.itemsUnder (name : String) (value : Value) : List Value :=
  match value.under? name with
  | some listed => listed.asList.toOption.getD []
  | none => []

/-- A list that may be left out is right if each of its items is. -/
theorem Checked.forall₂_of_optional {α : Type} {name : String} {check : Value → Checked α}
    {entries : List (Value × Value)} {as : List α}
    (read : optional name [] (Value.asListOf check) entries = .ok as) :
    List.Forall₂ (fun item a => check item = .ok a) ((Value.map entries).itemsUnder name) as := by
  rw [Value.itemsUnder, Value.under?]
  obtain ⟨listed, found, read⟩ | ⟨absent, rfl⟩ := optional_eq_ok.1 read
  · rw [Value.asListOf] at read
    split at read
    · exact absurd read nofun
    · next items eq =>
      rw [found]
      simp only [eq, Except.toOption, Option.getD_some]
      exact each_eq_ok.1 read
  · rw [absent]
    exact .nil

/-! ## Hex text -/

/-- Lower case has no other lower case. -/
theorem toLower_toLower (c : Char) : c.toLower.toLower = c.toLower := by
  have := Hex.toNat_toLower c
  rw [← Char.toNat_inj, Hex.toNat_toLower, if_neg]
  split at this <;> omega

/-- Hex text in normal form: its digits are in lower case. -/
def HexText.IsNormal (t : HexText) : Prop :=
  t.digits.map Char.toLower = t.digits

/-- Text is taken for hex text in normal form. -/
theorem HexText.isNormal_of_ofText? {text : String} {t : HexText} (read : ofText? text = some t) :
    t.IsNormal := by
  rw [ofText?] at read
  split at read
  · obtain rfl := Option.some.inj read
    rw [IsNormal, List.map_map]
    exact List.map_congr_left fun c _ => toLower_toLower c
  · exact absurd read nofun

/-- Hex text in normal form is taken for itself. -/
theorem HexText.ofText?_text {t : HexText} (normal : t.IsNormal) : ofText? t.text = some t := by
  have digits : Hex.stripMarker t.text.toList = t.digits := by
    rw [text, String.toList_ofList]
    rfl
  have readable : (Hex.decode? (Hex.stripMarker t.text.toList)).isSome = true := by
    rw [digits]
    exact t.readable
  rw [ofText?, dif_pos readable, Option.some.injEq]
  obtain ⟨_, _⟩ := t
  simp only [HexText.mk.injEq, digits]
  exact normal

/-- A value is taken for hex text if it is the text of a string that is. -/
theorem Value.asHex_eq_ok {value : Value} {t : HexText} :
    value.asHex = .ok t ↔
      ∃ text : String, value.asText = .ok (.ofString text) ∧ HexText.ofText? text = some t := by
  rw [asHex]
  cases value.asText with
  | error flaws => simp
  | ok s =>
    simp only [Except.ok.injEq]
    constructor
    · intro read
      split at read
      · next eq =>
        obtain rfl := Except.ok.inj read
        obtain ⟨text, string, eq⟩ := Option.bind_eq_some_iff.1 eq
        exact ⟨text, Text.toString?_eq_some_iff.1 string, eq⟩
      · exact absurd read nofun
    · rintro ⟨text, rfl, eq⟩
      rw [Text.toString?_ofString, Option.bind_some, eq]

/-- A value is taken for hex text in normal form. -/
theorem Value.isNormal_of_asHex {value : Value} {t : HexText} (read : value.asHex = .ok t) :
    t.IsNormal := by
  obtain ⟨text, -, eq⟩ := asHex_eq_ok.1 read
  exact HexText.isNormal_of_ofText? eq

/-- Hex text in normal form is taken for itself. -/
theorem Value.asHex_text {t : HexText} (normal : t.IsNormal) :
    (Value.text t.text).asHex = .ok t :=
  asHex_eq_ok.2 ⟨t.text, rfl, HexText.ofText?_text normal⟩

/-! ## Records -/

/-- A wallet's settings are right if each field is. -/
theorem WalletSettings.ofValue_eq_ok {value : Value} {w : WalletSettings} :
    ofValue value = .ok w ↔ ∃ entries, value = .map entries ∧
      optional "type" (.ofString "ethereum") Value.asText entries = .ok w.type ∧
      optional "chain" (.ofString "ethereum") Value.asText entries = .ok w.chain ∧
      required "public_key" Value.asHex entries = .ok w.publicKey := by
  constructor
  · intro read
    rw [ofValue] at read
    split at read
    · exact absurd read nofun
    · next entries eq =>
      obtain ⟨⟨type, chain, publicKey⟩, all, rfl⟩ := map_eq_ok.1 read
      simp only [both_eq_ok] at all
      exact ⟨entries, Value.asMapping_eq_ok.1 eq, all⟩
  · rintro ⟨entries, rfl, all⟩
    refine map_eq_ok.2 ⟨(w.type, w.chain, w.publicKey), ?_, rfl⟩
    simpa only [both_eq_ok] using all

/-- A participant's settings are right if each field is. -/
theorem ParticipantSettings.ofValue_eq_ok {value : Value} {p : ParticipantSettings} :
    ofValue value = .ok p ↔ ∃ entries, value = .map entries ∧
      required "abbreviation" Value.asText entries = .ok p.abbreviation ∧
      required "address" Value.asText entries = .ok p.address := by
  constructor
  · intro read
    rw [ofValue] at read
    split at read
    · exact absurd read nofun
    · next entries eq =>
      obtain ⟨⟨abbreviation, address⟩, all, rfl⟩ := map_eq_ok.1 read
      exact ⟨entries, Value.asMapping_eq_ok.1 eq, both_eq_ok.1 all⟩
  · rintro ⟨entries, rfl, all⟩
    exact map_eq_ok.2 ⟨(p.abbreviation, p.address), both_eq_ok.2 all, rfl⟩

/-- A policy's settings are right if each field is. -/
theorem PolicySettings.ofValue_eq_ok {value : Value} {p : PolicySettings} :
    ofValue value = .ok p ↔ ∃ entries, value = .map entries ∧
      required "id" Value.asId entries = .ok p.id ∧
      required "name" Value.asText entries = .ok p.name ∧
      optional "type" (.ofString Settings.policyType) Value.asText entries = .ok p.type ∧
      required "data" Value.asHex entries = .ok p.data ∧
      optional "participants" [] (Value.asListOf ParticipantSettings.ofValue) entries =
        .ok p.participants := by
  constructor
  · intro read
    rw [ofValue] at read
    split at read
    · exact absurd read nofun
    · next entries eq =>
      obtain ⟨⟨id, name, type, data, participants⟩, all, rfl⟩ := map_eq_ok.1 read
      simp only [both_eq_ok] at all
      exact ⟨entries, Value.asMapping_eq_ok.1 eq, all⟩
  · rintro ⟨entries, rfl, all⟩
    refine map_eq_ok.2 ⟨(p.id, p.name, p.type, p.data, p.participants), ?_, rfl⟩
    simpa only [both_eq_ok] using all

/-- Settings are right if each field is. -/
theorem Settings.ofValue_eq_ok {value : Value} {s : Settings} :
    ofValue value = .ok s ↔ ∃ entries, value = .map entries ∧
      optional "name" (.ofString "treasury") Value.asText entries = .ok s.name ∧
      optional "wallets" [] (Value.asListOf WalletSettings.ofValue) entries = .ok s.wallets ∧
      optional "policies" [] (Value.asListOf PolicySettings.ofValue) entries = .ok s.policies := by
  constructor
  · intro read
    rw [ofValue] at read
    split at read
    · exact absurd read nofun
    · next entries eq =>
      obtain ⟨⟨name, wallets, policies⟩, all, rfl⟩ := map_eq_ok.1 read
      simp only [both_eq_ok] at all
      exact ⟨entries, Value.asMapping_eq_ok.1 eq, all⟩
  · rintro ⟨entries, rfl, all⟩
    refine map_eq_ok.2 ⟨(s.name, s.wallets, s.policies), ?_, rfl⟩
    simpa only [both_eq_ok] using all

/-! ## Settings in normal form -/

/-- That the hex text in settings is in normal form. -/
structure Settings.IsNormal (s : Settings) : Prop where
  /-- The public keys are. -/
  publicKeys : ∀ w ∈ s.wallets, w.publicKey.IsNormal
  /-- The expressions are. -/
  expressions : ∀ p ∈ s.policies, p.data.IsNormal

/-- Settings are made in normal form. -/
theorem Settings.isNormal_of_ofValue {value : Value} {s : Settings} (read : ofValue value = .ok s) :
    s.IsNormal := by
  obtain ⟨entries, rfl, -, wallets, policies⟩ := ofValue_eq_ok.1 read
  refine ⟨fun w mem => ?_, fun p mem => ?_⟩
  · obtain ⟨item, -, read⟩ := exists_of_forall₂ (forall₂_of_optional wallets) mem
    obtain ⟨entries, -, -, -, publicKey⟩ := WalletSettings.ofValue_eq_ok.1 read
    obtain ⟨key, -, read⟩ := required_eq_ok.1 publicKey
    exact Value.isNormal_of_asHex read
  · obtain ⟨item, -, read⟩ := exists_of_forall₂ (forall₂_of_optional policies) mem
    obtain ⟨entries, -, -, -, -, data, -⟩ := PolicySettings.ofValue_eq_ok.1 read
    obtain ⟨expression, -, read⟩ := required_eq_ok.1 data
    exact Value.isNormal_of_asHex read

end Custody
