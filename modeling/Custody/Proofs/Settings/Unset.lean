import Custody.Proofs.Settings.Reloading

/-!
# Placeholders that settings keep

An expansion leaves a placeholder in its place if the environment has no value for it, and leaves it
to the validation to refuse it. The validation does so where hex text is asked for: no placeholder
there is accepted. Everywhere else it takes any text. `Value.FreeText` lists these places, and
`Settings.exists_text_iff` says that what stands there is taken for the texts of the settings, each
as it is once the values are filled in. Settings are accepted only if all names can be asked for
(`Settings.ofValueIn_eq_ok`), so that this is its expansion.

So settings have a placeholder without a value in them exactly if one of those texts has, once it is
expanded (`Settings.unset_left_iff`). Every such placeholder that was written in one is still there.
If the values of the environment are plain, there are no others. `Settings.unset_name_left` has a
name that stays.
-/

namespace Custody

open Outcome Placeholder

/-! ## Places -/

/-- A value stands under one of the names in a mapping. -/
def Value.Holds (value : Value) (names : List String) (x : Value) : Prop :=
  ∃ name ∈ names, value.under? name = some x

/-- A value stands in the value of settings where any text is taken. -/
inductive Value.FreeText (value : Value) : Value → Prop
  /-- The treasury's name. -/
  | treasury {x : Value} : value.Holds ["name"] x → FreeText value x
  /-- A wallet's type and chain. -/
  | wallet {entry x : Value} : entry ∈ value.itemsUnder "wallets" →
      entry.Holds ["type", "chain"] x → FreeText value x
  /-- A policy's name and type. -/
  | policy {entry x : Value} : entry ∈ value.itemsUnder "policies" →
      entry.Holds ["name", "type"] x → FreeText value x
  /-- A participant's abbreviation and address. -/
  | participant {entry listed x : Value} : entry ∈ value.itemsUnder "policies" →
      listed ∈ entry.itemsUnder "participants" → listed.Holds ["abbreviation", "address"] x →
      FreeText value x

/-- A value stands in the value of settings where hex text is asked for. -/
inductive Value.HexPlace (value : Value) : Value → Prop
  /-- A wallet's public key. -/
  | publicKey {entry x : Value} : entry ∈ value.itemsUnder "wallets" →
      entry.Holds ["public_key"] x → HexPlace value x
  /-- A policy's expression. -/
  | expression {entry x : Value} : entry ∈ value.itemsUnder "policies" →
      entry.Holds ["data"] x → HexPlace value x

/-- The hex texts of settings. -/
def Settings.hexTexts (s : Settings) : List HexText :=
  s.wallets.map (·.publicKey) ++ s.policies.map (·.data)

/-- All texts of settings. -/
def Settings.allTexts (s : Settings) : List Text :=
  s.texts ++ s.hexTexts.map fun t => .ofString t.text

namespace Value

/-- What stands under a name in a value that is filled in is what stood there, filled in. -/
theorem under?_fill (env : Environment) (name : String) (value : Value) :
    (value.fill env).under? name = (value.under? name).map (fill env) := by
  cases value with
  | map entries =>
    rw [fill, under?, under?, fillEntries_eq, field?, field?, ← List.map_reverse,
      List.find?_map, Option.map_map, Option.map_map]
    rfl
  | _ => rfl

/-- The items of the list under a name in a value that is filled in are those that stood there,
filled in. -/
theorem itemsUnder_fill (env : Environment) (name : String) (value : Value) :
    (value.fill env).itemsUnder name = (value.itemsUnder name).map (fill env) := by
  rw [itemsUnder, itemsUnder, under?_fill]
  cases value.under? name with
  | none => rfl
  | some listed =>
    cases listed with
    | list items =>
      rw [Option.map_some, fill, fillItems_eq]
      rfl
    | set size =>
      show List.replicate size opaqueValue = (List.replicate size opaqueValue).map (fill env)
      rw [List.map_replicate]
      rfl
    | _ => rfl

/-- The names in what stands under a name can be asked for if those of the whole can be. -/
theorem IsAskable.under? {value x : Value} {name : String} (askable : value.IsAskable)
    (found : value.under? name = some x) : x.IsAskable := by
  cases value with
  | map entries =>
    obtain ⟨entry, held, rfl⟩ := Option.map_eq_some_iff.1 found
    exact isAskable_map.1 askable entry (List.mem_reverse.1 (List.mem_of_find?_eq_some held))
  | _ => cases found

/-- The names in an item of the list under a name can be asked for if those of the whole can be. -/
theorem IsAskable.itemsUnder {value item : Value} {name : String} (askable : value.IsAskable)
    (mem : item ∈ value.itemsUnder name) : item.IsAskable := by
  rw [Value.itemsUnder] at mem
  cases found : value.under? name with
  | none => simp [found] at mem
  | some listed =>
    rw [found] at mem
    cases listed with
    | list items => exact isAskable_list.1 (askable.under? found) item mem
    | set size =>
      obtain rfl : item = opaqueValue := List.eq_of_mem_replicate mem
      exact isAskable_of_isInert trivial
    | _ => cases mem

/-- The names in what stands under some names can be asked for if those of the whole can be. -/
theorem IsAskable.holds {value x : Value} {names : List String} (askable : value.IsAskable)
    (holds : value.Holds names x) : x.IsAskable := by
  obtain ⟨name, -, found⟩ := holds
  exact askable.under? found

/-- The names in what stands where any text is taken can be asked for if those of the whole can
be. -/
theorem IsAskable.freeText {value x : Value} (askable : value.IsAskable)
    (free : value.FreeText x) : x.IsAskable := by
  cases free with
  | treasury holds => exact askable.holds holds
  | wallet mem holds => exact (askable.itemsUnder mem).holds holds
  | policy mem holds => exact (askable.itemsUnder mem).holds holds
  | participant mem mem' holds => exact ((askable.itemsUnder mem).itemsUnder mem').holds holds

/-- A value is taken, once it is filled in, for a text of a kind. -/
def Reads (env : Environment) (kind : Text → Prop) (x : Value) : Prop :=
  ∃ t, (x.fill env).asText = .ok t ∧ kind t

/-- Something of what stands under some names has a property exactly if it has under one of
them. -/
theorem exists_holds_iff {value : Value} {names : List String} {property : Value → Prop} :
    (∃ x, value.Holds names x ∧ property x) ↔
      ∃ name ∈ names, ∃ x, value.under? name = some x ∧ property x := by
  constructor
  · rintro ⟨x, ⟨name, mem, found⟩, has⟩
    exact ⟨name, mem, x, found, has⟩
  · rintro ⟨name, mem, x, found, has⟩
    exact ⟨x, ⟨name, mem, found⟩, has⟩

end Value

/-! ## Texts of records -/

section Kinds

variable {env : Environment} {kind : Text → Prop} {value : Value} {entries : List (Value × Value)}
  {name : String} {t : Text}

/-- A text that has to be there is of a kind exactly if what stands there is taken for one. -/
theorem Checked.kind_iff_of_required (eq : value.fill env = .map entries)
    (read : required name Value.asText entries = .ok t) :
    kind t ↔ ∃ x, value.under? name = some x ∧ x.Reads env kind := by
  obtain ⟨v, held, isText⟩ := required_eq_ok.1 read
  have filled := Value.under?_fill env name value
  rw [eq, Value.under?, held, eq_comm, Option.map_eq_some_iff] at filled
  obtain ⟨x, found, rfl⟩ := filled
  constructor
  · exact fun has => ⟨x, found, t, isText, has⟩
  · rintro ⟨_, found', t', isText', has⟩
    obtain rfl := Option.some.inj (found.symm.trans found')
    obtain rfl := Except.ok.inj (isText.symm.trans isText')
    exact has

/-- A text that may be left out is of a kind that its default is not of exactly if something stands
there that is taken for one. -/
theorem Checked.kind_iff_of_optional {default : Text} (other : ¬ kind default)
    (eq : value.fill env = .map entries)
    (read : optional name default Value.asText entries = .ok t) :
    kind t ↔ ∃ x, value.under? name = some x ∧ x.Reads env kind := by
  obtain ⟨v, found, isText⟩ | ⟨absent, rfl⟩ := optional_eq_ok.1 read
  · exact kind_iff_of_required eq (required_eq_ok.2 ⟨v, found, isText⟩)
  · have filled := Value.under?_fill env name value
    rw [eq, Value.under?, absent, eq_comm, Option.map_eq_none_iff] at filled
    simp [filled, other]

/-- If each item of a list has a property exactly if its partner in another list has one, then one
of the items has it exactly if one of the partners has. -/
theorem exists_mem_iff_of_forall₂ {α β : Type} {related : α → β → Prop} {as : List α} {bs : List β}
    {p : α → Prop} {q : β → Prop} (all : List.Forall₂ related as bs)
    (same : ∀ a b, related a b → (q b ↔ p a)) : (∃ b ∈ bs, q b) ↔ ∃ a ∈ as, p a := by
  constructor
  · rintro ⟨b, mem, has⟩
    obtain ⟨a, held, relate⟩ := exists_of_forall₂ all mem
    exact ⟨a, held, (same a b relate).1 has⟩
  · rintro ⟨a, mem, has⟩
    obtain ⟨b, held, relate⟩ := exists_of_forall₂ all.flip mem
    exact ⟨b, held, (same a b relate).2 has⟩

/-- Something of what the elements of a list lead to has a property exactly if it has for one of
them. -/
theorem exists_mem_flatMap_iff {α β : Type} {as : List α} {f : α → List β} {property : β → Prop} :
    (∃ b ∈ as.flatMap f, property b) ↔ ∃ a ∈ as, ∃ b ∈ f a, property b := by
  simp only [List.mem_flatMap]
  constructor
  · rintro ⟨b, ⟨a, mem, mem'⟩, has⟩
    exact ⟨a, mem, b, mem', has⟩
  · rintro ⟨a, mem, b, mem', has⟩
    exact ⟨b, ⟨a, mem, mem'⟩, has⟩

/-- What a list that may be left out is taken for, item by item. -/
theorem Checked.forall₂_of_optional_fill {α : Type} {check : Value → Checked α} {as : List α}
    (eq : value.fill env = .map entries)
    (read : optional name [] (Value.asListOf check) entries = .ok as) :
    List.Forall₂ (fun item a => check (item.fill env) = .ok a) (value.itemsUnder name) as := by
  have all := forall₂_of_optional read
  rwa [← eq, Value.itemsUnder_fill, List.forall₂_map_left_iff] at all

/-- A wallet's settings have a text of a kind exactly if their entry has one. -/
theorem WalletSettings.exists_text_iff {w : WalletSettings}
    (other : ¬ kind (.ofString "ethereum")) (read : ofValue (value.fill env) = .ok w) :
    (∃ t ∈ w.texts, kind t) ↔ ∃ x, value.Holds ["type", "chain"] x ∧ x.Reads env kind := by
  obtain ⟨entries, eq, type, chain, -⟩ := ofValue_eq_ok.1 read
  simp only [texts, Value.exists_holds_iff, List.exists_mem_cons_iff, List.not_mem_nil, false_and,
    exists_false, or_false, Checked.kind_iff_of_optional other eq type,
    Checked.kind_iff_of_optional other eq chain]

/-- A participant's settings have a text of a kind exactly if their entry has one. -/
theorem ParticipantSettings.exists_text_iff {p : ParticipantSettings}
    (read : ofValue (value.fill env) = .ok p) :
    (∃ t ∈ p.texts, kind t) ↔
      ∃ x, value.Holds ["abbreviation", "address"] x ∧ x.Reads env kind := by
  obtain ⟨entries, eq, abbreviation, address⟩ := ofValue_eq_ok.1 read
  simp only [texts, Value.exists_holds_iff, List.exists_mem_cons_iff, List.not_mem_nil, false_and,
    exists_false, or_false, Checked.kind_iff_of_required eq abbreviation,
    Checked.kind_iff_of_required eq address]

/-- A policy's settings have a text of a kind exactly if their entry has one, or an entry of their
directory has. -/
theorem PolicySettings.exists_text_iff {p : PolicySettings}
    (other : ¬ kind (.ofString Settings.policyType)) (read : ofValue (value.fill env) = .ok p) :
    (∃ t ∈ p.texts, kind t) ↔
      (∃ x, value.Holds ["name", "type"] x ∧ x.Reads env kind) ∨
        ∃ listed ∈ value.itemsUnder "participants",
          ∃ x, listed.Holds ["abbreviation", "address"] x ∧ x.Reads env kind := by
  obtain ⟨entries, eq, -, policyName, type, -, participants⟩ := ofValue_eq_ok.1 read
  have listed := exists_mem_iff_of_forall₂ (Checked.forall₂_of_optional_fill eq participants)
    fun _ p read => (ParticipantSettings.exists_text_iff read : (∃ t ∈ p.texts, kind t) ↔ _)
  simp only [texts, List.exists_mem_cons_iff, exists_mem_flatMap_iff, listed,
    Value.exists_holds_iff, List.not_mem_nil, false_and, exists_false, or_false, or_assoc,
    Checked.kind_iff_of_required eq policyName, Checked.kind_iff_of_optional other eq type]

/-- Settings have a text of a kind that no default is of exactly if a value that stands where any
text is taken is, once it is filled in, a text of that kind. -/
theorem Settings.exists_text_iff {s : Settings}
    (other : ∀ default ∈ ["treasury", "ethereum", policyType], ¬ kind (.ofString default))
    (read : ofValue (value.fill env) = .ok s) :
    (∃ t ∈ s.texts, kind t) ↔ ∃ x, value.FreeText x ∧ x.Reads env kind := by
  obtain ⟨entries, eq, treasury, wallets, policies⟩ := ofValue_eq_ok.1 read
  have ofWallets := exists_mem_iff_of_forall₂ (Checked.forall₂_of_optional_fill eq wallets)
    fun _ _ read => WalletSettings.exists_text_iff (other "ethereum" (by simp)) read
  have ofPolicies := exists_mem_iff_of_forall₂ (Checked.forall₂_of_optional_fill eq policies)
    fun _ _ read => PolicySettings.exists_text_iff (other policyType (by simp)) read
  have ofTreasury := Checked.kind_iff_of_optional (other "treasury" (by simp)) eq treasury
  rw [texts, List.exists_mem_cons_iff]
  simp only [List.mem_append, or_and_right, exists_or, exists_mem_flatMap_iff, ofTreasury,
    ofWallets, ofPolicies]
  constructor
  · rintro (⟨x, found, reads⟩ | ⟨entry, mem, x, holds, reads⟩ | ⟨entry, mem, ⟨x, holds, reads⟩ |
      ⟨listed, mem', x, holds, reads⟩⟩)
    · exact ⟨x, .treasury ⟨"name", by simp, found⟩, reads⟩
    · exact ⟨x, .wallet mem holds, reads⟩
    · exact ⟨x, .policy mem holds, reads⟩
    · exact ⟨x, .participant mem mem' holds, reads⟩
  · rintro ⟨x, free, reads⟩
    cases free with
    | treasury holds =>
      obtain ⟨name, mem, found⟩ := holds
      obtain rfl := List.mem_singleton.1 mem
      exact .inl ⟨x, found, reads⟩
    | wallet mem holds => exact .inr (.inl ⟨_, mem, x, holds, reads⟩)
    | policy mem holds => exact .inr (.inr ⟨_, mem, .inl ⟨x, holds, reads⟩⟩)
    | participant mem mem' holds =>
      exact .inr (.inr ⟨_, mem, .inr ⟨_, mem', x, holds, reads⟩⟩)

/-- Where hex text was accepted, what was written has no dollar sign once it is filled in. -/
theorem Checked.dollar_not_mem_of_required {u : Text} {t : HexText}
    (eq : value.fill env = .map entries) (read : required name Value.asHex entries = .ok t)
    (written : value.under? name = some (.text u)) :
    .char '$' ∉ (Placeholder.fill env u).points := by
  obtain ⟨v, held, hex⟩ := required_eq_ok.1 read
  have filled := Value.under?_fill env name value
  rw [eq, Value.under?, held, written, Option.map_some, Option.some.injEq] at filled
  obtain ⟨text, isText, normal⟩ := Value.asHex_eq_ok.1 hex
  rw [filled, Value.fill, Value.asText, Except.ok.injEq] at isText
  have absent := (HexText.spells_of_ofText? normal).dollar_not_mem
  simpa [isText, Text.ofString, Text.ofChars] using absent

end Kinds

/-- Hex text is accepted only if each placeholder in it has a value. -/
theorem Settings.set_of_hexPlace {env : Environment} {value : Value} {s : Settings}
    (read : ofValue (value.fill env) = .ok s) {u : Text} (place : value.HexPlace (.text u))
    {name : List CodePoint} (written : .placeholder name ∈ split u.points) :
    ¬ IsUnset env name := by
  intro unset
  suffices absent : .char '$' ∉ (Placeholder.fill env u).points from
    not_standsIn_of_not_mem absent name (standsIn_fill written unset)
  obtain ⟨entries, eq, -, wallets, policies⟩ := ofValue_eq_ok.1 read
  cases place with
  | publicKey mem holds =>
    obtain ⟨name, named, found⟩ := holds
    obtain rfl := List.mem_singleton.1 named
    obtain ⟨w, -, read⟩ :=
      exists_of_forall₂ (Checked.forall₂_of_optional_fill eq wallets).flip mem
    obtain ⟨entries, eq, -, -, publicKey⟩ := WalletSettings.ofValue_eq_ok.1 read
    exact Checked.dollar_not_mem_of_required eq publicKey found
  | expression mem holds =>
    obtain ⟨name, named, found⟩ := holds
    obtain rfl := List.mem_singleton.1 named
    obtain ⟨p, -, read⟩ :=
      exists_of_forall₂ (Checked.forall₂_of_optional_fill eq policies).flip mem
    obtain ⟨entries, eq, -, -, -, data, -⟩ := PolicySettings.ofValue_eq_ok.1 read
    exact Checked.dollar_not_mem_of_required eq data found

/-! ## What is left -/

namespace Settings

/-- Hex text has no part in what is said of placeholders. -/
theorem exists_allTexts_iff {s : Settings} {kind : Text → Prop}
    (stands : ∀ t, kind t → ∃ name, StandsIn name t) :
    (∃ t ∈ s.allTexts, kind t) ↔ ∃ t ∈ s.texts, kind t := by
  constructor
  · rintro ⟨t, mem, has⟩
    obtain free | hex := List.mem_append.1 mem
    · exact ⟨t, free, has⟩
    · obtain ⟨digits, -, rfl⟩ := List.mem_map.1 hex
      obtain ⟨name, stands⟩ := stands _ has
      exact absurd stands (not_standsIn_of_not_mem digits.dollar_not_mem_text name)
  · rintro ⟨t, mem, has⟩
    exact ⟨t, List.mem_append_left _ mem, has⟩

/-- Settings have a text of a kind that placeholders stand in exactly if a value that stands where
any text is taken is, once it is filled in, a text of that kind. -/
theorem exists_kept_iff {env : Environment} {value : Value} {s : Settings} (kind : Text → Prop)
    (stands : ∀ t, kind t → ∃ name, StandsIn name t) (read : ofValue (value.fill env) = .ok s) :
    (∃ t ∈ s.allTexts, kind t) ↔ ∃ x, value.FreeText x ∧ x.Reads env kind := by
  rw [exists_allTexts_iff stands]
  refine exists_text_iff (fun default mem has => ?_) read
  have no_dollar : ∀ default ∈ ["treasury", "ethereum", policyType],
      .char '$' ∉ (Text.ofString default).points := by decide
  obtain ⟨name, stands⟩ := stands _ has
  exact not_standsIn_of_not_mem (no_dollar default mem) name stands

/-- No text of accepted settings has a placeholder without a value in it exactly if all values that
stand where any text is taken are expanded, and none to a text with one. Where hex text is asked
for, each placeholder has a value. Where any text is taken, each that has none is still there. If
the values of the environment are plain, and what stands there is texts all of whose placeholders
have values, none is there. -/
theorem unset_left_iff {env : Environment} {value : Value} {s : Settings}
    (read : ofValueIn env value = .ok s) :
    ((∀ t ∈ s.allTexts, ¬ LeftIn env t) ↔
      ∀ x, value.FreeText x →
        ∃ v, x.expand env = .ok v ∧ ∀ t, v.asText = .ok t → ¬ LeftIn env t) ∧
    (∀ u name, value.HexPlace (.text u) → .placeholder name ∈ split u.points →
      ¬ IsUnset env name) ∧
    (∀ u name, value.FreeText (.text u) → .placeholder name ∈ split u.points →
      IsUnset env name → ∃ t ∈ s.allTexts, StandsIn name t) ∧
    (env.IsPlain →
      (∀ x, value.FreeText x → ∃ u, x = .text u ∧
        ∀ name, .placeholder name ∈ split u.points → ¬ IsUnset env name) →
      ∀ t ∈ s.allTexts, ¬ LeftIn env t) := by
  obtain ⟨askable, read⟩ := ofValueIn_eq_ok.1 read
  have left : (∀ t ∈ s.allTexts, ¬ LeftIn env t) ↔
      ∀ x t, value.FreeText x → (x.fill env).asText = .ok t → ¬ LeftIn env t := by
    have kept := exists_kept_iff (LeftIn env) (fun t ⟨name, stands, _⟩ => ⟨name, stands⟩) read
    constructor
    · intro none x t free isText leftIn
      obtain ⟨t, mem, leftIn⟩ := kept.2 ⟨x, free, t, isText, leftIn⟩
      exact none t mem leftIn
    · intro none t mem leftIn
      obtain ⟨x, free, t, isText, leftIn⟩ := kept.1 ⟨t, mem, leftIn⟩
      exact none x t free isText leftIn
  refine ⟨left.trans ?_, fun u name place written => set_of_hexPlace read place written, ?_, ?_⟩
  · -- All of these values are expanded, since the names of the whole can be asked for.
    constructor
    · intro none x free
      exact ⟨_, Value.expand_of_isAskable (askable.freeText free) env, fun t => none x t free⟩
    · intro expanded x t free isText
      obtain ⟨v, eq, none⟩ := expanded x free
      obtain ⟨-, rfl⟩ := Value.expand_eq_ok_iff.1 eq
      exact none t isText
  · intro u name free written unset
    refine (exists_kept_iff (StandsIn name) (fun t stands => ⟨name, stands⟩) read).2 ?_
    exact ⟨_, free, _, rfl, standsIn_fill written unset⟩
  · intro plain set
    refine left.2 fun x t free isText leftIn => ?_
    obtain ⟨u, rfl, set⟩ := set x free
    obtain rfl := Except.ok.inj isText
    obtain ⟨name, stands, -⟩ := leftIn
    exact not_standsIn_fill plain set name stands

/-- An environment that has a value for one name. -/
def oneName : Environment :=
  .ofStrings [("OWNER", "acme")]

/-- A value of settings in which one placeholder has a value there and another has none. -/
def coldAddress : Value :=
  .ofFields [("name", .text "$\x7bOWNER\x7d"), ("policies", .list [.ofFields [("id", .int 1),
    ("name", .text "withdrawals"), ("data", .text "0x0803220161"), ("participants", .list [.ofFields
      [("abbreviation", .text "a"), ("address", .text "$\x7bCOLD\x7d/0")]])]])]

/-- The placeholder that has no value is still there in the settings, though they are accepted. -/
theorem unset_left_iff_coldAddress :
    let s : Settings := ⟨"acme", [], [⟨1, "withdrawals", "blackbird",
      ⟨"0803220161".toList, Hex.isSome_decode?_single⟩, [⟨"a", "$\x7bCOLD\x7d/0"⟩]⟩]⟩
    ofValueIn oneName coldAddress = .ok s ∧
      ∃ t ∈ s.allTexts, StandsIn ("COLD".toList.map .char) t := by
  intro s
  have read : ofValueIn oneName coldAddress = .ok s := by decide +kernel
  obtain ⟨-, -, stays, -⟩ := unset_left_iff read
  refine ⟨read, stays "$\x7bCOLD\x7d/0" _ ?_ (by decide +kernel) (by decide +kernel)⟩
  refine .participant (List.mem_singleton.2 rfl) (List.mem_singleton.2 rfl) ?_
  exact ⟨"address", by simp, rfl⟩

/-- A name that is a placeholder without a value is accepted, and it is the name of the settings. -/
theorem unset_name_left :
    let nothing : Environment := fun _ => none
    let s : Settings := ⟨"$\x7bTREASURY\x7d", [], []⟩
    ofValueIn nothing (.ofFields [("name", .text "$\x7bTREASURY\x7d")]) = .ok s ∧
      ∃ t ∈ s.allTexts, LeftIn nothing t := by
  intro nothing s
  have read : ofValueIn nothing (.ofFields [("name", .text "$\x7bTREASURY\x7d")]) = .ok s := by
    decide +kernel
  have stands : StandsIn ("TREASURY".toList.map .char) s.name :=
    ⟨by decide, by decide, [], [], by decide⟩
  exact ⟨read, s.name, by simp [allTexts, texts], _, stands, valueOf_nothing _⟩

end Settings

end Custody
