import Custody.Proofs.Settings.Checking
import Custody.Proofs.Text.Hex
import Custody.Proofs.Text.Placeholder
import Custody.Proofs.Yaml.Numbering
import Custody.Settings.Load

/-!
# Loading what was saved

Settings that are saved and loaded again in an environment have the placeholders in their texts
expanded once more (`load_of_save`): the document is read as the value that was written, and of that
everything but the placeholders is taken for itself. So what was saved is had back exactly if every
text of it is expanded to itself (`load_save_iff`). Texts that came out of an expansion may have
placeholders for other texts, since what is put in for one is not looked at again.

Hex text has no dollar sign and is in normal form, so that it is read as itself. Nothing is saved
where the id of a policy has too many digits to be written (`exists_save_iff`).
-/

namespace Custody

open Outcome Yaml

/-! ## Filling in -/

/-- Hex text has no placeholders. -/
theorem HexText.fill_text (t : HexText) (env : Environment) :
    Placeholder.fill env (.ofString t.text) = .ofString t.text :=
  Placeholder.fill_of_not_mem t.dollar_not_mem_text env

/-- Hex text has no names. -/
theorem HexText.isAskable_text (t : HexText) : Placeholder.IsAskable (.ofString t.text) :=
  Placeholder.isAskable_of_not_mem t.dollar_not_mem_text

/-- A wallet's settings with what an environment has put in for placeholders. -/
def WalletSettings.fill (env : Environment) (w : WalletSettings) : WalletSettings :=
  { w with type := Placeholder.fill env w.type, chain := Placeholder.fill env w.chain }

/-- A participant's settings so filled in. -/
def ParticipantSettings.fill (env : Environment) (p : ParticipantSettings) :
    ParticipantSettings where
  abbreviation := Placeholder.fill env p.abbreviation
  address := Placeholder.fill env p.address

/-- A policy's settings so filled in. -/
def PolicySettings.fill (env : Environment) (p : PolicySettings) : PolicySettings :=
  { p with
    name := Placeholder.fill env p.name
    type := Placeholder.fill env p.type
    participants := p.participants.map (·.fill env) }

/-- Settings so filled in. -/
def Settings.fill (env : Environment) (s : Settings) : Settings where
  name := Placeholder.fill env s.name
  wallets := s.wallets.map (·.fill env)
  policies := s.policies.map (·.fill env)

/-! ## Taking what was written -/

/-- A name is the text of one string only. -/
theorem Value.isText_ofString (name other : String) :
    (Value.text (.ofString name)).isText other = decide (name = other) := by
  rw [isText, Bool.eq_iff_iff, beq_iff_eq, decide_eq_true_iff]
  exact ⟨Text.ofString_injective, congrArg _⟩

namespace Yaml.Written

/-- The entries of a record's value, filled in. -/
def filledEntries (env : Environment) (fields : List (String × Written)) :
    List (Value × Value) :=
  fields.map fun field => (.text (.ofString field.1), field.2.toValue.fill env)

/-- The value of a record is filled in entry by entry. -/
theorem fill_record (env : Environment) (fields : List (String × Written)) :
    (record fields).toValue.fill env = .map (filledEntries env fields) := by
  rw [toValue, Value.fill, entriesOf_eq, Value.fillEntries_eq, List.map_map]
  rfl

/-- The value of a list is filled in item by item. -/
theorem fill_list (env : Environment) (items : List Written) :
    (list items).toValue.fill env = .list (items.map fun item => item.toValue.fill env) := by
  rw [toValue, Value.fill, valuesOf_eq, Value.fillItems_eq, List.map_map]
  rfl

variable {env : Environment} {fields : List (String × Written)} {name : String} {v : Written}

/-- A field is found by its name. -/
theorem field?_filledEntries (distinct : (fields.map Prod.fst).Nodup) (mem : (name, v) ∈ fields) :
    Value.field? name (filledEntries env fields) = some (v.toValue.fill env) := by
  have some_entry : ((filledEntries env fields).reverse.find? fun entry =>
      entry.1.isText name).isSome := by
    rw [List.find?_isSome]
    exact ⟨_, List.mem_reverse.2 (List.mem_map_of_mem mem), by simp [Value.isText_ofString]⟩
  -- The last entry of that name counts; names are different, so that it is the only one.
  obtain ⟨entry, found⟩ := Option.isSome_iff_exists.1 some_entry
  obtain ⟨field, held, rfl⟩ := List.mem_map.1 (List.mem_reverse.1 (List.mem_of_find?_eq_some found))
  have named := List.find?_some found
  rw [Value.isText_ofString, decide_eq_true_iff] at named
  obtain rfl := List.inj_on_of_nodup_map distinct held mem named
  rw [Value.field?, found]
  rfl

variable {α : Type} {check : Value → Checked α} {a default : α}

/-- A field that must be there is taken as it was written. -/
theorem required_filledEntries (distinct : (fields.map Prod.fst).Nodup) (mem : (name, v) ∈ fields)
    (read : check (v.toValue.fill env) = .ok a) :
    Checked.required name check (filledEntries env fields) = .ok a :=
  Checked.required_eq_ok.2 ⟨_, field?_filledEntries distinct mem, read⟩

/-- A field that may be left out is taken as it was written. -/
theorem optional_filledEntries (distinct : (fields.map Prod.fst).Nodup) (mem : (name, v) ∈ fields)
    (read : check (v.toValue.fill env) = .ok a) :
    Checked.optional name default check (filledEntries env fields) = .ok a :=
  Checked.optional_eq_ok.2 (.inl ⟨_, field?_filledEntries distinct mem, read⟩)

/-- A list is taken as it was written if each of its items is. -/
theorem asListOf_fill {β : Type} {written : β → Written} {filled : β → α} {bs : List β}
    (each : ∀ b ∈ bs, check ((written b).toValue.fill env) = .ok (filled b)) :
    ((list (bs.map written)).toValue.fill env).asListOf check = .ok (bs.map filled) := by
  rw [fill_list, Value.asListOf_list, List.map_map, List.forall₂_map_left_iff,
    List.forall₂_map_right_iff, List.forall₂_same]
  exact each

/-- The names in a text are those of the text. -/
theorem isAskable_text {t : Text} : (text t).toValue.IsAskable ↔ Placeholder.IsAskable t :=
  Value.isAskable_text

/-- There are no names in an integer. -/
theorem isAskable_int (n : Int) : (int n).toValue.IsAskable :=
  Value.isAskable_of_isInert trivial

/-- The names in a record can be asked for if those in each of its fields can be. -/
theorem isAskable_record {fields : List (String × Written)} :
    (record fields).toValue.IsAskable ↔ ∀ field ∈ fields, field.2.toValue.IsAskable := by
  rw [toValue, entriesOf_eq, Value.isAskable_map, List.forall_mem_map]

/-- The names in a list can be asked for if those in each of its items can be. -/
theorem isAskable_list {items : List Written} :
    (list items).toValue.IsAskable ↔ ∀ item ∈ items, item.toValue.IsAskable := by
  rw [toValue, valuesOf_eq, Value.isAskable_list, List.forall_mem_map]

end Yaml.Written

open Yaml.Written

/-- A participant's settings that are written and filled in are taken for the settings filled in. -/
theorem ParticipantSettings.ofValue_written (env : Environment) (p : ParticipantSettings) :
    ofValue (p.written.toValue.fill env) = .ok (p.fill env) := by
  refine ofValue_eq_ok.2 ⟨_, fill_record env _, ?_, ?_⟩
  · exact required_filledEntries (v := .text p.abbreviation) (by simp) (by simp) rfl
  · exact required_filledEntries (v := .text p.address) (by simp) (by simp) rfl

/-- A wallet's settings that are written and filled in are taken for the settings filled in. -/
theorem WalletSettings.ofValue_written (env : Environment) {w : WalletSettings}
    (normal : w.publicKey.IsNormal) :
    ofValue (w.written.toValue.fill env) = .ok (w.fill env) := by
  have key : ((text w.publicKey.text).toValue.fill env).asHex = .ok w.publicKey := by
    rw [toValue, Value.fill, HexText.fill_text]
    exact Value.asHex_text normal
  refine ofValue_eq_ok.2 ⟨_, fill_record env _, ?_, ?_, ?_⟩
  · exact optional_filledEntries (v := .text w.type) (by simp) (by simp) rfl
  · exact optional_filledEntries (v := .text w.chain) (by simp) (by simp) rfl
  · exact required_filledEntries (by simp) (by simp) key

/-- A policy's settings that are written and filled in are taken for the settings filled in. -/
theorem PolicySettings.ofValue_written (env : Environment) {p : PolicySettings}
    (normal : p.data.IsNormal) :
    ofValue (p.written.toValue.fill env) = .ok (p.fill env) := by
  have data : ((text p.data.text).toValue.fill env).asHex = .ok p.data := by
    rw [toValue, Value.fill, HexText.fill_text]
    exact Value.asHex_text normal
  refine ofValue_eq_ok.2 ⟨_, fill_record env _, ?_, ?_, ?_, ?_, ?_⟩
  · exact required_filledEntries (v := .int p.id) (by simp) (by simp) rfl
  · exact required_filledEntries (v := .text p.name) (by simp) (by simp) rfl
  · exact optional_filledEntries (v := .text p.type) (by simp) (by simp) rfl
  · exact required_filledEntries (by simp) (by simp) data
  · exact optional_filledEntries (by simp) (by simp)
      (asListOf_fill fun q _ => q.ofValue_written env)

/-- Settings that are written and filled in are taken for the settings filled in. -/
theorem Settings.ofValue_toValue (env : Environment) {s : Settings} (normal : s.IsNormal) :
    ofValue (s.toValue.fill env) = .ok (s.fill env) := by
  have distinct : (s.fields.map Prod.fst).Nodup := by simp [fields]
  refine ofValue_eq_ok.2 ⟨_, fill_record env s.fields, ?_, ?_, ?_⟩
  · exact optional_filledEntries (v := .text s.name) distinct (by simp [fields]) rfl
  · exact optional_filledEntries distinct (by simp [fields]) (asListOf_fill fun w mem =>
      WalletSettings.ofValue_written env (normal.publicKeys w mem))
  · exact optional_filledEntries distinct (by simp [fields]) (asListOf_fill fun p mem =>
      PolicySettings.ofValue_written env (normal.expressions p mem))

/-! ## Loading -/

/-- The names of the fields of settings. -/
def Settings.fieldNames : List String :=
  ["name", "wallets", "policies", "type", "chain", "public_key", "id", "data", "participants",
    "abbreviation", "address"]

/-- The names of the fields of settings are written as they are. -/
theorem Settings.isFieldName_of_mem {name : String} (mem : name ∈ fieldNames) :
    IsFieldName name.toList := by
  have all : ∀ name ∈ fieldNames, name.toList ≠ [] ∧
      (name.toList.all fun c => decide (c ∈ nameLetters)) = true ∧
      PlainType.of name.toList = .text ∧ name.toList.length ≤ Scanner.longestKey := by decide
  obtain ⟨ne_nil, letters, type_eq, short⟩ := all name mem
  exact ⟨ne_nil, forall_of_all letters, type_eq, short⟩

/-- A record whose fields are those of settings can be written if the values of its fields can. -/
theorem Settings.fits_record {levels : Nat} {fields : List (String × Written)}
    (names : ∀ field ∈ fields, field.1 ∈ fieldNames) (distinct : (fields.map Prod.fst).Nodup)
    (fit : ∀ field ∈ fields, Fits levels field.2) : Fits (levels + 1) (.record fields) :=
  .record (fun field mem => isFieldName_of_mem (names field mem)) distinct fit

/-- A list can be written if each of its items can. -/
theorem Settings.fits_list {levels : Nat} {α : Type} {as : List α} {written : α → Written}
    (fit : ∀ a, Fits levels (written a)) : Fits (levels + 1) (.list (as.map written)) :=
  .list (List.forall_mem_map.2 fun a _ => fit a)

/-- A participant's fields can be written, however deep they are to be nested. -/
theorem ParticipantSettings.fits_written (levels : Nat) (p : ParticipantSettings) :
    Fits (levels + 1) p.written := by
  refine Settings.fits_record (by simp [Settings.fieldNames]) (by simp) ?_
  simp only [List.forall_mem_cons]
  exact ⟨.text _, .text _, nofun⟩

/-- A wallet's fields can be written. -/
theorem WalletSettings.fits_written (levels : Nat) (w : WalletSettings) :
    Fits (levels + 1) w.written := by
  refine Settings.fits_record (by simp [Settings.fieldNames]) (by simp) ?_
  simp only [List.forall_mem_cons]
  exact ⟨.text _, .text _, .text _, nofun⟩

/-- A policy's fields can be written. -/
theorem PolicySettings.fits_written (levels : Nat) (p : PolicySettings) :
    Fits (levels + 3) p.written := by
  refine Settings.fits_record (by simp [Settings.fieldNames]) (by simp) ?_
  simp only [List.forall_mem_cons]
  exact ⟨.int _, .text _, .text _, .text _,
    Settings.fits_list (ParticipantSettings.fits_written levels), nofun⟩

/-- The fields of settings can be written. -/
theorem Settings.fits_fields (s : Settings) : Fits 5 (.record s.fields) := by
  refine fits_record (by simp [fields, fieldNames]) (by simp [fields]) ?_
  simp only [fields, List.forall_mem_cons]
  exact ⟨.text _, fits_list (WalletSettings.fits_written 2),
    fits_list (PolicySettings.fits_written 0), nofun⟩

/-- A value gives settings in an environment exactly if its names can be asked for, and the value
with theirs put in is taken for the settings. -/
theorem Settings.ofValueIn_eq_ok {env : Environment} {value : Value} {s : Settings} :
    ofValueIn env value = .ok s ↔ value.IsAskable ∧ ofValue (value.fill env) = .ok s := by
  rw [ofValueIn]
  cases expanded : value.expand env with
  | error fault =>
    refine iff_of_false (fun made => ?_) fun taken => ?_
    · cases made
    · rw [Value.expand_of_isAskable taken.1] at expanded
      cases expanded
  | ok result =>
    obtain ⟨askable, rfl⟩ := Value.expand_eq_ok_iff.1 expanded
    exact mapError_eq_ok.trans (and_iff_right askable).symm

/-- That settings can be had: a value was taken for them, or they were loaded. -/
inductive Settings.IsMade [NumeralLimit] (s : Settings) : Prop
  | validated {value : Value} (read : ofValue value = .ok s) : s.IsMade
  | loaded {env : Environment} {text : String} (read : load env text = .ok s) : s.IsMade

/-- Settings are had in normal form. -/
theorem Settings.IsMade.isNormal [NumeralLimit] {s : Settings} (made : s.IsMade) :
    s.IsNormal := by
  cases made with
  | validated read => exact isNormal_of_ofValue read
  | loaded read =>
    rw [load] at read
    split at read
    · exact absurd read nofun
    · exact isNormal_of_ofValue (ofValueIn_eq_ok.1 read).2

/-! ## Saving -/

namespace Settings

variable [NumeralLimit]

/-- A wallet's settings have no integers. -/
theorem exceeded?_wallet (w : WalletSettings) : w.written.exceeded? = none := by
  simp [WalletSettings.written, exceeded?, exceededByFields?]

/-- A participant's settings have no integers. -/
theorem exceeded?_participant (p : ParticipantSettings) : p.written.exceeded? = none := by
  simp [ParticipantSettings.written, exceeded?, exceededByFields?]

/-- The one integer of a policy's settings is the id. -/
theorem exceeded?_policy {p : PolicySettings} :
    p.written.exceeded? = none ↔ NumeralLimit.Admits p.id := by
  have directory : exceededByItems? (p.participants.map (·.written)) = none :=
    exceededByItems?_eq_none.2 (List.forall_mem_map.2 fun q _ => exceeded?_participant q)
  simp [PolicySettings.written, exceeded?, exceededByFields?, directory, NumeralLimit.Admits]

/-- The integers of settings are the ids of the policies. -/
theorem exceeded?_fields {s : Settings} :
    (Written.record s.fields).exceeded? = none ↔ ∀ p ∈ s.policies, NumeralLimit.Admits p.id := by
  have wallets : exceededByItems? (s.wallets.map (·.written)) = none :=
    exceededByItems?_eq_none.2 (List.forall_mem_map.2 fun w _ => exceeded?_wallet w)
  have policies : exceededByItems? (s.policies.map (·.written)) = none ↔ _ :=
    exceededByItems?_eq_none.trans List.forall_mem_map
  simp only [exceeded?_policy] at policies
  simp [fields, exceeded?, exceededByFields?, wallets, policies]

/-- Settings are saved exactly if no id of a policy has too many digits. -/
theorem exists_save_iff {s : Settings} :
    (∃ text, s.save = .ok text) ↔ ∀ p ∈ s.policies, NumeralLimit.Admits p.id := by
  rw [← exceeded?_fields]
  constructor
  · rintro ⟨text, saved⟩
    obtain ⟨text, dumped, -⟩ := map_eq_ok.1 saved
    exact (dump_eq_ok.1 dumped).1
  · intro within
    exact ⟨_, map_eq_ok.2 ⟨_, dump_eq_ok.2 ⟨within, rfl⟩, rfl⟩⟩

/-- What was saved is read as the value that the settings are. -/
theorem load_of_save (env : Environment) {s : Settings} {text : String}
    (saved : s.save = .ok text) : load env text = ofValueIn env s.toValue := by
  obtain ⟨text, dumped, rfl⟩ := map_eq_ok.1 saved
  have read : Yaml.load (String.ofList text).toList = .ok s.toValue := by
    rw [String.toList_ofList]
    exact load_dump s.fits_fields (by decide) dumped
  have some_field : s.toValue.isVoid = false := rfl
  rw [load, read]
  simp only [some_field, Bool.false_eq_true, if_false]

end Settings

/-! ## What is had back -/

/-- The texts of a participant's settings. -/
def ParticipantSettings.texts (p : ParticipantSettings) : List Text :=
  [p.abbreviation, p.address]

/-- The texts of a wallet's settings that are not hex text. -/
def WalletSettings.texts (w : WalletSettings) : List Text :=
  [w.type, w.chain]

/-- The texts of a policy's settings that are not hex text. -/
def PolicySettings.texts (p : PolicySettings) : List Text :=
  p.name :: p.type :: p.participants.flatMap (·.texts)

/-- The texts of settings that are not hex text. -/
def Settings.texts (s : Settings) : List Text :=
  s.name :: (s.wallets.flatMap (·.texts) ++ s.policies.flatMap (·.texts))

section Texts

variable {env : Environment}

/-- Something holds of all elements of a list if it holds of all their texts, as it does of each
element. -/
theorem forall_mem_iff_texts {α : Type} {property : α → Prop} {texts : α → List Text}
    {ofText : Text → Prop} (each : ∀ a, property a ↔ ∀ t ∈ texts a, ofText t) (as : List α) :
    (∀ a ∈ as, property a) ↔ ∀ t ∈ as.flatMap texts, ofText t := by
  simp only [each, List.mem_flatMap]
  exact ⟨fun all t ⟨a, mem, mem'⟩ => all a mem t mem',
    fun all a mem t mem' => all t ⟨a, mem, mem'⟩⟩

/-- A function changes nothing of a list exactly if it changes none of its elements. -/
theorem map_eq_self_iff {α : Type} {f : α → α} {as : List α} :
    as.map f = as ↔ ∀ a ∈ as, f a = a := by
  have same : as.map f = as.map id ↔ _ := List.map_inj_left
  rwa [List.map_id] at same

/-- Filling in changes nothing of a participant's settings exactly if it changes none of their
texts. -/
theorem ParticipantSettings.fill_eq_self_iff (p : ParticipantSettings) :
    p.fill env = p ↔ ∀ t ∈ p.texts, Placeholder.fill env t = t := by
  obtain ⟨abbreviation, address⟩ := p
  simp [fill, texts]

/-- Filling in changes nothing of a wallet's settings exactly if it changes none of their texts. -/
theorem WalletSettings.fill_eq_self_iff (w : WalletSettings) :
    w.fill env = w ↔ ∀ t ∈ w.texts, Placeholder.fill env t = t := by
  obtain ⟨type, chain, publicKey⟩ := w
  simp [fill, texts]

/-- Filling in changes nothing of a policy's settings exactly if it changes none of their texts. -/
theorem PolicySettings.fill_eq_self_iff (p : PolicySettings) :
    p.fill env = p ↔ ∀ t ∈ p.texts, Placeholder.fill env t = t := by
  have participants : p.participants.map (·.fill env) = p.participants ↔ _ :=
    map_eq_self_iff.trans (forall_mem_iff_texts ParticipantSettings.fill_eq_self_iff _)
  obtain ⟨id, name, type, data, _⟩ := p
  simp only [fill, texts, mk.injEq, List.forall_mem_cons, ← participants, true_and]

/-- Filling in changes nothing of settings exactly if it changes none of their texts. -/
theorem Settings.fill_eq_self_iff (s : Settings) :
    s.fill env = s ↔ ∀ t ∈ s.texts, Placeholder.fill env t = t := by
  have wallets : s.wallets.map (·.fill env) = s.wallets ↔ _ :=
    map_eq_self_iff.trans (forall_mem_iff_texts WalletSettings.fill_eq_self_iff _)
  have policies : s.policies.map (·.fill env) = s.policies ↔ _ :=
    map_eq_self_iff.trans (forall_mem_iff_texts PolicySettings.fill_eq_self_iff _)
  obtain ⟨name, _, _⟩ := s
  simp only [fill, texts, mk.injEq, List.forall_mem_cons, List.forall_mem_append, ← wallets,
    ← policies]

/-- The names in a participant's settings can be asked for if those in their texts can be. -/
theorem ParticipantSettings.isAskable_iff (p : ParticipantSettings) :
    p.written.toValue.IsAskable ↔ ∀ t ∈ p.texts, Placeholder.IsAskable t := by
  simp [written, texts, isAskable_record, Written.isAskable_text]

/-- The names in a wallet's settings can be asked for if those in their texts can be. -/
theorem WalletSettings.isAskable_iff (w : WalletSettings) :
    w.written.toValue.IsAskable ↔ ∀ t ∈ w.texts, Placeholder.IsAskable t := by
  simp [written, texts, isAskable_record, Written.isAskable_text, w.publicKey.isAskable_text]

/-- The names in a policy's settings can be asked for if those in their texts can be. -/
theorem PolicySettings.isAskable_iff (p : PolicySettings) :
    p.written.toValue.IsAskable ↔ ∀ t ∈ p.texts, Placeholder.IsAskable t := by
  have participants := forall_mem_iff_texts ParticipantSettings.isAskable_iff p.participants
  simp only [written, texts, isAskable_record, List.forall_mem_cons, ← participants]
  simp [isAskable_list, Written.isAskable_text, p.data.isAskable_text, isAskable_int]

/-- The names in settings can be asked for if those in their texts can be. -/
theorem Settings.isAskable_iff (s : Settings) :
    s.toValue.IsAskable ↔ ∀ t ∈ s.texts, Placeholder.IsAskable t := by
  have wallets := forall_mem_iff_texts WalletSettings.isAskable_iff s.wallets
  have policies := forall_mem_iff_texts PolicySettings.isAskable_iff s.policies
  simp only [toValue, fields, texts, isAskable_record, List.forall_mem_cons,
    List.forall_mem_append, ← wallets, ← policies]
  simp [isAskable_list, Written.isAskable_text]

end Texts

/-- Settings in normal form are taken for themselves in an environment exactly if every text of them
is expanded to itself. -/
theorem Settings.ofValueIn_toValue_iff {env : Environment} {s : Settings} (normal : s.IsNormal) :
    ofValueIn env s.toValue = .ok s ↔ ∀ t ∈ s.texts, Placeholder.expand env t = .ok t := by
  have taken : ofValueIn env s.toValue = .ok s ↔ s.toValue.IsAskable ∧ s.fill env = s := by
    rw [ofValueIn_eq_ok, ofValue_toValue env normal, Except.ok.injEq]
  rw [taken, isAskable_iff, fill_eq_self_iff, ← forall₂_and]
  simp only [Placeholder.expand_eq_ok_iff]

/-- Settings that are had are saved, and had back by loading what was saved, exactly if no id of a
policy has too many digits to be written and every text of them is expanded to itself. -/
theorem Settings.load_save_iff [NumeralLimit] (env : Environment) {s : Settings} (made : s.IsMade) :
    (∃ text, s.save = .ok text ∧ load env text = .ok s) ↔
      (∀ p ∈ s.policies, NumeralLimit.Admits p.id) ∧
        ∀ t ∈ s.texts, Placeholder.expand env t = .ok t := by
  rw [← exists_save_iff, ← ofValueIn_toValue_iff made.isNormal]
  constructor
  · rintro ⟨text, saved, again⟩
    rw [load_of_save env saved] at again
    exact ⟨⟨text, saved⟩, again⟩
  · rintro ⟨⟨text, saved⟩, again⟩
    exact ⟨text, saved, (load_of_save env saved).trans again⟩

/-- An environment in which one name stands for the placeholder of another, and that for a
letter. -/
def Settings.nested : Environment :=
  .ofStrings [("A", "$\x7bB\x7d"), ("B", "x")]

/-- The bytes of an expression that asks for one participant can be read from their hex digits. -/
theorem Hex.isSome_decode?_single : (decode? "0803220161".toList).isSome = true := by decide

/-- Settings with a placeholder that stands for nothing there. -/
def Settings.unnamed : Settings where
  name := "$\x7bC\x7d"
  wallets := [⟨"ethereum", "ethereum", ⟨"02 ab".toList, by decide⟩⟩]
  policies := [⟨7, "withdrawals", "blackbird", ⟨"0803220161".toList, Hex.isSome_decode?_single⟩,
    [⟨"a", "first address"⟩]⟩]

/-- Those settings are had back. -/
theorem Settings.load_save_iff_unnamed :
    let _ := NumeralLimit.standard
    unnamed.IsMade ∧ ∃ text, unnamed.save = .ok text ∧ load nested text = .ok unnamed := by
  intro _
  have read : ofValue unnamed.toValue = .ok unnamed := by decide +kernel
  refine ⟨.validated read, (load_save_iff nested (.validated read)).2 ⟨?_, ?_⟩⟩
  · exact List.forall_mem_singleton.2 (rfl : @NumeralLimit.Admits .standard 7)
  · decide +kernel

/-- Settings whose name came out of an expansion are not had back: the placeholder that was put in
is expanded in its turn. -/
theorem Settings.load_save_nested :
    let _ := NumeralLimit.standard
    let s : Settings := ⟨"$\x7bB\x7d", [], []⟩
    load nested "name: $\x7bA\x7d\n" = .ok s ∧
      ∃ text, s.save = .ok text ∧ load nested text = .ok ⟨"x", [], []⟩ ∧
        load nested text ≠ .ok s := by
  intro _ s
  have made : load nested "name: $\x7bA\x7d\n" = .ok s := by decide +kernel
  obtain ⟨text, saved⟩ : ∃ text, s.save = .ok text := exists_save_iff.2 nofun
  have again : load nested text = .ok ⟨"x", [], []⟩ := by
    rw [load_of_save nested saved]
    decide +kernel
  refine ⟨made, text, saved, again, ?_⟩
  rw [again]
  decide +kernel

end Custody
