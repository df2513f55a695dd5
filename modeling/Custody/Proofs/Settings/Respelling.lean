import Custody.Proofs.Settings.Revalidating
import Custody.Proofs.Text.Blanks

/-!
# Settings that are spelled otherwise

Values of settings can differ in the spelling of their hex text alone (`Value.Respelled`). What they
are taken for is then the same but for the blanks of that text (`Value.Respelled.ofValue_bare`): the
same flaws, or settings of which each hex text has the same bytes. A check is followed through lists
and records up to what is done to its result, so that one equation for hex text becomes one for a
wallet or a policy, and that one for all settings.

The normal form of hex text keeps blanks, and this is all that it keeps of the spelling.
`Settings.hex_normalized_iff` says so of a text, of two texts, and of two values of settings;
`Settings.blank_kept` is a text of which it keeps one.
-/

namespace Custody

/-! ## Values that differ in spelling -/

namespace Value

/-- Two values are texts that spell the same bytes. -/
def SpellAlike (v v' : Value) : Prop :=
  ∃ text text' bytes, v.asText = .ok (.ofString text) ∧ v'.asText = .ok (.ofString text') ∧
    Hex.Spells text.toList bytes ∧ Hex.Spells text'.toList bytes

/-- Two values are texts with the same blanks at the same places. -/
def SameBlanks (v v' : Value) : Prop :=
  ∃ text text', v.asText = .ok (.ofString text) ∧ v'.asText = .ok (.ofString text') ∧
    Hex.SameBlanks text.toList text'.toList

/-- Two entries have one key, and the same value or values that are related under its name. -/
def EntriesDifferIn (related : String → Value → Value → Prop) (e e' : Value × Value) : Prop :=
  e.1 = e'.1 ∧ (e.2 = e'.2 ∨ ∃ name, e.1.isText name = true ∧ related name e.2 e'.2)

/-- Two values are the same, or mappings with the same keys whose values are the same but for those
that are related under their name. -/
inductive DifferIn (related : String → Value → Value → Prop) : Value → Value → Prop
  | same (value : Value) : DifferIn related value value
  | map {entries entries' : List (Value × Value)} :
      List.Forall₂ (EntriesDifferIn related) entries entries' →
      DifferIn related (map entries) (map entries')

/-- Two values are lists whose items are related, one by one. -/
inductive Items (related : Value → Value → Prop) : Value → Value → Prop
  | list {items items' : List Value} : List.Forall₂ related items items' →
      Items related (list items) (list items')

/-- Two entries about wallets differ in the spelling of the public key alone. -/
def RespelledWallet : Value → Value → Prop :=
  DifferIn fun name v v' => name = "public_key" ∧ SpellAlike v v'

/-- Two entries about policies differ in the spelling of the expression alone. -/
def RespelledPolicy : Value → Value → Prop :=
  DifferIn fun name v v' => name = "data" ∧ SpellAlike v v'

/-- Two values of settings differ in the spelling of hex text alone. -/
def Respelled : Value → Value → Prop :=
  DifferIn fun name v v' =>
    name = "wallets" ∧ Items RespelledWallet v v' ∨ name = "policies" ∧ Items RespelledPolicy v v'

/-- A key is one name at most. -/
theorem isText_unique {key : Value} {name name' : String} (named : key.isText name = true)
    (named' : key.isText name' = true) : name = name' := by
  cases key with
  | text s =>
    unfold isText at named named'
    rw [beq_iff_eq] at named named'
    exact Text.ofString_injective (named.symm.trans named')
  | _ => cases named

/-- Under a name, mappings that differ in related values have the same value or related ones. -/
theorem rel_field? {related : String → Value → Value → Prop}
    {entries entries' : List (Value × Value)}
    (all : List.Forall₂ (EntriesDifferIn related) entries entries') (name : String) :
    Option.Rel (fun v v' => v = v' ∨ related name v v') (field? name entries)
      (field? name entries') := by
  unfold field?
  -- The last entry of a name counts, so the induction is on the entries from the last one on.
  have reversed := List.forall₂_reverse_iff.2 all
  generalize entries.reverse = later at reversed
  generalize entries'.reverse = later' at reversed
  induction reversed with
  | nil => exact .none
  | @cons e e' later later' first _ ih =>
    obtain ⟨key, v⟩ := e
    obtain ⟨key', v'⟩ := e'
    obtain ⟨eq, values⟩ := first
    obtain rfl : key = key' := eq
    rw [List.find?_cons, List.find?_cons]
    cases named : key.isText name with
    | false => exact ih
    | true =>
      refine .some (values.imp_right ?_)
      rintro ⟨other, named', differ⟩
      exact isText_unique named' named ▸ differ

end Value

/-! ## Checks up to what is done to their result -/

namespace Checked

open Value (field?)

variable {α β γ δ : Type} {f : α → β} {check : Value → Checked α}

/-- Something done to two results together is done to each. -/
theorem map_both (f : α → γ) (g : β → δ) (a : Checked α) (b : Checked β) :
    (both a b).map (Prod.map f g) = both (a.map f) (b.map g) := by
  cases a with
  | error flaws => cases b <;> rfl
  | ok x => cases b <;> rfl

/-- Something done to a result is done however far out it is seen. -/
theorem map_within (f : α → β) (step : Step) (c : Checked α) :
    (c.within step).map f = within step (c.map f) := by
  cases c <;> rfl

/-- Two things that are put together come out the same in a respect that is told by some respects of
their parts, if the parts are the same in these. -/
theorem map_map_congr {whole : α → β} {f : β → γ} (parts : α → δ)
    (told : ∀ x y, parts x = parts y → f (whole x) = f (whole y)) {a b : Checked α}
    (same : a.map parts = b.map parts) : (a.map whole).map f = (b.map whole).map f := by
  cases a with
  | error flaws =>
    cases b with
    | error flaws' => exact congrArg Except.error (Except.error.inj same)
    | ok y => cases same
  | ok x =>
    cases b with
    | error flaws' => cases same
    | ok y => exact congrArg Except.ok (told x y (Except.ok.inj same))

/-- A field that has to be there is what is found there, or missing. -/
theorem required_eq_elim (name : String) (check : Value → Checked α)
    (entries : List (Value × Value)) :
    required name check entries = (field? name entries).elim (.error [⟨[.field name], .missing⟩])
      fun v => within (.field name) (check v) := by
  unfold required
  cases field? name entries with
  | none => rfl
  | some v => rfl

/-- A field that may be left out is what is found there, or its default. -/
theorem optional_eq_elim (name : String) (default : α) (check : Value → Checked α)
    (entries : List (Value × Value)) :
    optional name default check entries = (field? name entries).elim (.ok default)
      fun v => within (.field name) (check v) := by
  unfold optional
  cases field? name entries with
  | none => rfl
  | some v => rfl

/-- Two values are checked alike, or none is there on either side. -/
theorem held_congr {held held' : Option Value} (values : Option.Rel (fun v v' =>
    (check v).map f = (check v').map f) held held') (step : Step) (absent : Checked α) :
    (held.elim absent fun v => within step (check v)).map f =
      (held'.elim absent fun v => within step (check v)).map f := by
  cases values with
  | none => rfl
  | some same =>
    show (within step _).map f = (within step _).map f
    rw [map_within, map_within, same]

section Fields

variable {related : String → Value → Value → Prop} {entries entries' : List (Value × Value)}
  (all : List.Forall₂ (Value.EntriesDifferIn related) entries entries') (name : String)
  (alike : ∀ v v', related name v v' → (check v).map f = (check v').map f)
include all alike

/-- What stands under a name is checked alike if what is related there is. -/
theorem rel_check : Option.Rel (fun v v' => (check v).map f = (check v').map f)
    (field? name entries) (field? name entries') := by
  have values := Value.rel_field? all name
  generalize field? name entries = held at values
  generalize field? name entries' = held' at values
  cases values with
  | none => exact .none
  | some same =>
    rcases same with rfl | differ
    · exact .some rfl
    · exact .some (alike _ _ differ)

/-- A field that has to be there is checked alike if what is related there is. -/
theorem required_congr :
    (required name check entries).map f = (required name check entries').map f := by
  rw [required_eq_elim, required_eq_elim]
  exact held_congr (rel_check all name alike) _ _

/-- A field that may be left out is checked alike if what is related there is. -/
theorem optional_congr (default : α) :
    (optional name default check entries).map f = (optional name default check entries').map f := by
  rw [optional_eq_elim, optional_eq_elim]
  exact held_congr (rel_check all name alike) _ _

end Fields

/-- Items are checked alike if each is. -/
theorem each_congr {items items' : List Value} (all : List.Forall₂ (fun v v' =>
    (check v).map f = (check v').map f) items items') (index : Nat) :
    (each check index items).map (List.map f) = (each check index items').map (List.map f) := by
  induction all generalizing index with
  | nil => rfl
  | cons first _ ih =>
    unfold each
    refine map_map_congr (Prod.map f (List.map f)) ?_ ?_
    · intro x y same
      exact congrArg (fun parts => parts.1 :: parts.2) same
    · rw [map_both, map_both, map_within, map_within, first, ih]

/-- Lists are checked alike if each of their items is. -/
theorem asListOf_congr {related : Value → Value → Prop}
    (alike : ∀ v v', related v v' → (check v).map f = (check v').map f) {v v' : Value}
    (items : Value.Items related v v') :
    (v.asListOf check).map (List.map f) = (v'.asListOf check).map (List.map f) := by
  cases items with
  | list all => exact each_congr (all.imp alike) 0

end Checked

/-! ## Settings without blanks -/

/-- A wallet's settings without the blanks of the public key. -/
def WalletSettings.bare (w : WalletSettings) : WalletSettings :=
  { w with publicKey := w.publicKey.bare }

/-- A policy's settings without the blanks of the expression. -/
def PolicySettings.bare (p : PolicySettings) : PolicySettings :=
  { p with data := p.data.bare }

/-- Settings without the blanks of their hex text. -/
def Settings.bare (s : Settings) : Settings :=
  { s with wallets := s.wallets.map (·.bare), policies := s.policies.map (·.bare) }

open Value Checked

/-- Texts that spell the same bytes are taken for hex text with the same bytes. -/
theorem Value.asHex_bare_congr {v v' : Value} (alike : SpellAlike v v') :
    v.asHex.map HexText.bare = v'.asHex.map HexText.bare := by
  obtain ⟨text, text', bytes, isText, isText', spells, spells'⟩ := alike
  obtain ⟨t, read, same⟩ := HexText.exists_ofText?_of_spells spells
  obtain ⟨t', read', same'⟩ := HexText.exists_ofText?_of_spells spells'
  rw [asHex_eq_ok.2 ⟨text, isText, read⟩, asHex_eq_ok.2 ⟨text', isText', read'⟩]
  exact congrArg Except.ok (HexText.bare_eq_bare_iff.2 (same.trans same'.symm))

/-- Entries about wallets that differ in the spelling of the public key alone are taken for settings
that are the same without blanks. -/
theorem Value.RespelledWallet.ofValue_bare {v v' : Value} (respelled : RespelledWallet v v') :
    (WalletSettings.ofValue v).map WalletSettings.bare =
      (WalletSettings.ofValue v').map WalletSettings.bare := by
  cases respelled with
  | same => rfl
  | @map entries entries' all =>
    have publicKey := required_congr all "public_key" fun _ _ h => asHex_bare_congr h.2
    -- Nothing else is related, so that any check of it comes out the same.
    have text (name : String) (other : name ≠ "public_key") (default : Text) :
        (optional name default asText entries).map id =
          (optional name default asText entries').map id :=
      optional_congr all name (fun _ _ h => absurd h.1 other) default
    unfold WalletSettings.ofValue
    simp only [asMapping]
    refine map_map_congr (Prod.map id (Prod.map id HexText.bare)) ?_ ?_
    · intro x y same
      exact congrArg (fun fields => WalletSettings.mk fields.1 fields.2.1 fields.2.2) same
    · rw [map_both, map_both, map_both, map_both, publicKey, text "type" (by decide),
        text "chain" (by decide)]

/-- Entries about policies that differ in the spelling of the expression alone are taken for
settings that are the same without blanks. -/
theorem Value.RespelledPolicy.ofValue_bare {v v' : Value} (respelled : RespelledPolicy v v') :
    (PolicySettings.ofValue v).map PolicySettings.bare =
      (PolicySettings.ofValue v').map PolicySettings.bare := by
  cases respelled with
  | same => rfl
  | @map entries entries' all =>
    have data := required_congr all "data" fun _ _ h => asHex_bare_congr h.2
    have needed {α : Type} (name : String) (other : name ≠ "data") (check : Value → Checked α) :
        (required name check entries).map id = (required name check entries').map id :=
      required_congr all name fun _ _ h => absurd h.1 other
    have left {α : Type} (name : String) (other : name ≠ "data") (default : α)
        (check : Value → Checked α) :
        (optional name default check entries).map id =
          (optional name default check entries').map id :=
      optional_congr all name (fun _ _ h => absurd h.1 other) default
    unfold PolicySettings.ofValue
    simp only [asMapping]
    refine map_map_congr (Prod.map id (Prod.map id (Prod.map id (Prod.map HexText.bare id)))) ?_ ?_
    · intro x y same
      exact congrArg (fun fields => PolicySettings.mk fields.1 fields.2.1 fields.2.2.1
        fields.2.2.2.1 fields.2.2.2.2) same
    · rw [map_both, map_both, map_both, map_both, map_both, map_both, map_both, map_both, data,
        needed "id" (by decide), needed "name" (by decide), left "type" (by decide),
        left "participants" (by decide)]

/-- Values that differ in the spelling of hex text alone have the same flaws, or are taken for
settings that are the same without blanks. -/
theorem Value.Respelled.ofValue_bare {value value' : Value} (respelled : Respelled value value') :
    (Settings.ofValue value).map Settings.bare = (Settings.ofValue value').map Settings.bare := by
  cases respelled with
  | same => rfl
  | @map entries entries' all =>
    have name : (optional "name" (.ofString "treasury") asText entries).map id =
        (optional "name" (.ofString "treasury") asText entries').map id := by
      refine optional_congr all "name" (fun v v' differ => ?_) _
      rcases differ with ⟨eq, -⟩ | ⟨eq, -⟩
      · exact absurd eq (by decide)
      · exact absurd eq (by decide)
    have wallets : (optional "wallets" [] (asListOf WalletSettings.ofValue) entries).map
        (List.map (·.bare)) = (optional "wallets" [] (asListOf WalletSettings.ofValue) entries').map
          (List.map (·.bare)) := by
      refine optional_congr all "wallets" (fun v v' differ => ?_) []
      rcases differ with ⟨-, items⟩ | ⟨eq, -⟩
      · exact asListOf_congr (fun _ _ respelled => RespelledWallet.ofValue_bare respelled) items
      · exact absurd eq (by decide)
    have policies : (optional "policies" [] (asListOf PolicySettings.ofValue) entries).map
        (List.map (·.bare)) = (optional "policies" [] (asListOf PolicySettings.ofValue)
          entries').map (List.map (·.bare)) := by
      refine optional_congr all "policies" (fun v v' differ => ?_) []
      rcases differ with ⟨eq, -⟩ | ⟨-, items⟩
      · exact absurd eq (by decide)
      · exact asListOf_congr (fun _ _ respelled => RespelledPolicy.ofValue_bare respelled) items
    unfold Settings.ofValue
    simp only [asMapping]
    refine map_map_congr (Prod.map id (Prod.map (List.map (·.bare)) (List.map (·.bare)))) ?_ ?_
    · intro x y same
      exact congrArg (fun fields => Settings.mk fields.1 fields.2.1 fields.2.2) same
    · rw [map_both, map_both, map_both, map_both, name, wallets, policies]

/-! ## Which spellings come out the same -/

/-- Hex text is told by its text. -/
theorem HexText.text_inj {t t' : HexText} : t.text = t'.text ↔ t = t' := by
  constructor
  · intro same
    unfold text at same
    rw [String.ofList_inj, List.cons.injEq, List.cons.injEq] at same
    obtain ⟨digits, _⟩ := t
    obtain ⟨digits', _⟩ := t'
    exact (mk.injEq ..).mpr same.2.2
  · exact congrArg text

/-- Without its blanks, the normal form of a text is the bytes as they are shown. -/
theorem HexText.unspaced_text {text : String} {t : HexText} (read : ofText? text = some t) :
    Hex.unspaced t.text.toList = (Hex.display t.bytes).toList := by
  unfold HexText.text Hex.display
  rw [String.toList_ofList, String.toList_ofList, Hex.unspaced_cons_of_not_isBlank (by decide),
    Hex.unspaced_cons_of_not_isBlank (by decide), unspaced_digits (isNormal_of_ofText? read)]

/-- Two values are taken for the same hex text exactly if they spell the same bytes with the same
blanks. -/
theorem Value.eq_iff_sameBlanks {v v' : Value} {t t' : HexText} (hex : v.asHex = .ok t)
    (hex' : v'.asHex = .ok t') : t = t' ↔ t.bytes = t'.bytes ∧ SameBlanks v v' := by
  obtain ⟨text, isText, read⟩ := asHex_eq_ok.1 hex
  obtain ⟨text', isText', read'⟩ := asHex_eq_ok.1 hex'
  rw [HexText.eq_iff_sameBlanks read read']
  refine and_congr_right fun _ => ⟨fun same => ⟨text, text', isText, isText', same⟩, ?_⟩
  rintro ⟨other, other', isOther, isOther', same⟩
  obtain rfl := Text.ofString_injective (Except.ok.inj (isText.symm.trans isOther))
  obtain rfl := Text.ofString_injective (Except.ok.inj (isText'.symm.trans isOther'))
  exact same

/-- Values that are taken for hex texts with the same bytes are taken for the same ones exactly if
they have the same blanks. -/
theorem Value.eq_iff_forall₂_sameBlanks {written written' : List Value} {ts ts' : List HexText}
    (all : List.Forall₂ (fun v t => v.asHex = .ok t) written ts)
    (all' : List.Forall₂ (fun v t => v.asHex = .ok t) written' ts')
    (bare : ts.map HexText.bare = ts'.map HexText.bare) :
    ts = ts' ↔ List.Forall₂ SameBlanks written written' := by
  induction all generalizing written' ts' with
  | nil =>
    obtain rfl := List.map_eq_nil_iff.1 bare.symm
    obtain rfl := List.forall₂_nil_right_iff.1 all'
    exact iff_of_true rfl .nil
  | @cons v t written ts first _ ih =>
    cases all' with
    | nil => cases bare
    | @cons v' t' written' ts' first' others' =>
      rw [List.map_cons, List.map_cons, List.cons.injEq, HexText.bare_eq_bare_iff] at bare
      rw [List.cons.injEq, List.forall₂_cons, ← ih others' bare.2, eq_iff_sameBlanks first first']
      simp only [bare.1, true_and]

/-- Two lists are the same if two things that tell an element are the same of them. -/
theorem eq_of_map_eq_map {α β γ : Type} {f : α → β} {g : α → γ} {as bs : List α}
    (told : ∀ a b, f a = f b → g a = g b → a = b) (first : as.map f = bs.map f)
    (second : as.map g = bs.map g) : as = bs := by
  have pairs : as.map (fun a => (f a, g a)) = bs.map fun a => (f a, g a) := by
    rw [← List.zip_map', ← List.zip_map', first, second]
  refine List.map_injective_iff.2 (fun a b same => ?_) pairs
  exact told a b (congrArg Prod.fst same) (congrArg Prod.snd same)

namespace Settings

/-- The hex texts of settings without blanks are those of the settings, each without blanks. -/
theorem hexTexts_bare (s : Settings) : s.bare.hexTexts = s.hexTexts.map HexText.bare := by
  unfold hexTexts bare
  rw [List.map_append, List.map_map, List.map_map, List.map_map, List.map_map]
  rfl

/-- Settings that are the same without blanks are the same exactly if their hex texts are. -/
theorem eq_iff_hexTexts {s s' : Settings} (same : s.bare = s'.bare) :
    s = s' ↔ s.hexTexts = s'.hexTexts := by
  constructor
  · exact congrArg hexTexts
  · intro hex
    obtain ⟨name, wallets, policies⟩ := s
    obtain ⟨name', wallets', policies'⟩ := s'
    obtain ⟨eq, bareWallets, barePolicies⟩ := (mk.injEq ..).mp same
    obtain rfl : name = name' := eq
    have length : wallets.length = wallets'.length := by
      simpa using congrArg List.length bareWallets
    obtain ⟨keys, expressions⟩ := List.append_inj hex (by simpa using length)
    have sameWallets : wallets = wallets' := by
      refine eq_of_map_eq_map (fun w w' bare key => ?_) bareWallets keys
      obtain ⟨type, chain, _⟩ := w
      obtain ⟨type', chain', _⟩ := w'
      simp_all [WalletSettings.bare]
    have samePolicies : policies = policies' := by
      refine eq_of_map_eq_map (fun p p' bare expression => ?_) barePolicies expressions
      obtain ⟨id, name, type, _, participants⟩ := p
      obtain ⟨id', name', type', _, participants'⟩ := p'
      simp_all [PolicySettings.bare]
    rw [sameWallets, samePolicies]

/-- The normal form of a text that spells bytes is the marker and these in lower case, with nothing
else exactly if the text has no blanks. Two texts have one normal form exactly if they spell the
same bytes and have the same blanks at the same places. If a value is taken for settings, then one
that differs in the spelling of hex text alone is taken for settings that are the same without
blanks, and the same altogether exactly if the two values have the same blanks in their hex text. -/
theorem hex_normalized_iff (text : String) (value : Value) :
    (∀ t, HexText.ofText? text = some t →
      Hex.Spells text.toList t.bytes ∧
      Hex.unspaced t.text.toList = (Hex.display t.bytes).toList ∧
      (t.text = Hex.display t.bytes ↔ ∀ c ∈ text.toList, Hex.isBlank c = false) ∧
      ∀ text' t', HexText.ofText? text' = some t' →
        (t.text = t'.text ↔ t.bytes = t'.bytes ∧ Hex.SameBlanks text.toList text'.toList)) ∧
    ∀ value' s, Respelled value value' → ofValue value = .ok s →
      ∃ s', ofValue value' = .ok s' ∧ s.bare = s'.bare ∧
        (s = s' ↔ List.Forall₂ SameBlanks value.writtenHex value'.writtenHex) := by
  constructor
  · intro t read
    refine ⟨HexText.spells_of_ofText? read, HexText.unspaced_text read,
      HexText.text_eq_display_iff read, ?_⟩
    intro text' t' read'
    rw [HexText.text_inj, HexText.eq_iff_sameBlanks read read']
  · intro value' s respelled read
    have same := respelled.ofValue_bare
    rw [read, eq_comm, Outcome.map_ok, Outcome.map_eq_ok] at same
    obtain ⟨s', read', same⟩ := same
    refine ⟨s', read', same.symm, ?_⟩
    rw [eq_iff_hexTexts same.symm]
    refine eq_iff_forall₂_sameBlanks (forall₂_writtenHex read) (forall₂_writtenHex read') ?_
    rw [← hexTexts_bare, ← hexTexts_bare, same]

/-- Settings with one wallet, of a public key as it is written. -/
def oneKey (key : String) : Value :=
  .ofFields [("wallets", .list [.ofFields [("public_key", .text (.ofString key))]])]

/-- One public key, spelled otherwise. -/
theorem respelled_oneKey {key key' : String} {bytes : Bytes} (spells : Hex.Spells key.toList bytes)
    (spells' : Hex.Spells key'.toList bytes) : Respelled (oneKey key) (oneKey key') := by
  have alike : SpellAlike (.text (.ofString key)) (.text (.ofString key')) :=
    ⟨key, key', bytes, rfl, rfl, spells, spells'⟩
  have wallet : RespelledWallet (.ofFields [("public_key", .text (.ofString key))])
      (.ofFields [("public_key", .text (.ofString key'))]) :=
    .map (.cons ⟨rfl, .inr ⟨"public_key", beq_self_eq_true _, rfl, alike⟩⟩ .nil)
  have wallets := Items.list (.cons wallet .nil)
  exact .map (.cons ⟨rfl, .inr ⟨"wallets", beq_self_eq_true _, .inl ⟨rfl, wallets⟩⟩⟩ .nil)

/-- A text in capital letters, two with one blank in the middle, and the settings with the one or
the other of these as a key. -/
theorem hex_normalized_iff_marked :
    (∃ t, HexText.ofText? "0XDEad" = some t ∧ t.text = Hex.display t.bytes) ∧
    (∃ t t', HexText.ofText? "0X02 AB" = some t ∧ HexText.ofText? "02 ab" = some t' ∧
      t.text = t'.text) ∧
    Respelled (oneKey "0X02 AB") (oneKey "02 ab") ∧
    ∃ s, ofValue (oneKey "0X02 AB") = .ok s ∧ ofValue (oneKey "02 ab") = .ok s := by
  have capitals : HexText.ofText? "0XDEad" = some ⟨"dead".toList, by decide⟩ := by decide +kernel
  have marked : HexText.ofText? "0X02 AB" = some ⟨"02 ab".toList, by decide⟩ := by decide +kernel
  have plain : HexText.ofText? "02 ab" = some ⟨"02 ab".toList, by decide⟩ := by decide +kernel
  have blanks : Hex.SameBlanks "0X02 AB".toList "02 ab".toList := by unfold Hex.SameBlanks; decide
  have respelled : Respelled (oneKey "0X02 AB") (oneKey "02 ab") :=
    respelled_oneKey (HexText.spells_of_ofText? marked) (HexText.spells_of_ofText? plain)
  have read : ofValue (oneKey "0X02 AB") = .ok ⟨"treasury",
      [⟨"ethereum", "ethereum", ⟨"02 ab".toList, by decide⟩⟩], []⟩ := by decide +kernel
  obtain ⟨ofCapitals, -⟩ := hex_normalized_iff "0XDEad" .null
  obtain ⟨ofMarked, ofKey⟩ := hex_normalized_iff "0X02 AB" (oneKey "0X02 AB")
  refine ⟨⟨_, capitals, ?_⟩, ⟨_, _, marked, plain, ?_⟩, respelled, _, read, ?_⟩
  · exact (ofCapitals _ capitals).2.2.1.2 (by simp [Hex.isBlank])
  · exact ((ofMarked _ marked).2.2.2 _ _ plain).2 ⟨rfl, blanks⟩
  · obtain ⟨s', read', -, iff⟩ := ofKey _ _ respelled read
    rw [iff.2 (.cons ⟨"0X02 AB", "02 ab", rfl, rfl, blanks⟩ .nil)]
    exact read'

/-- A blank that the normal form keeps: two texts of the same bytes have two normal forms, and the
settings with the one or the other as a key are not the same. -/
theorem blank_kept :
    (∃ t t', HexText.ofText? "12 34" = some t ∧ HexText.ofText? "1234" = some t' ∧
      t.bytes = [0x12, 0x34] ∧ t'.bytes = [0x12, 0x34] ∧
      t.text = "0x12 34" ∧ t'.text = "0x1234") ∧
    Respelled (oneKey "12 34") (oneKey "1234") ∧
    ∃ s s', ofValue (oneKey "12 34") = .ok s ∧ ofValue (oneKey "1234") = .ok s' ∧ s ≠ s' := by
  have spaced : HexText.ofText? "12 34" = some ⟨"12 34".toList, by decide⟩ := by decide +kernel
  have plain : HexText.ofText? "1234" = some ⟨"1234".toList, by decide⟩ := by decide +kernel
  have spells : Hex.Spells "12 34".toList [0x12, 0x34] := HexText.spells_of_ofText? spaced
  have spells' : Hex.Spells "1234".toList [0x12, 0x34] := HexText.spells_of_ofText? plain
  have read : ofValue (oneKey "12 34") = .ok ⟨"treasury",
      [⟨"ethereum", "ethereum", ⟨"12 34".toList, by decide⟩⟩], []⟩ := by decide +kernel
  have read' : ofValue (oneKey "1234") = .ok ⟨"treasury",
      [⟨"ethereum", "ethereum", ⟨"1234".toList, by decide⟩⟩], []⟩ := by decide +kernel
  refine ⟨⟨_, _, spaced, plain, rfl, rfl, rfl, rfl⟩, respelled_oneKey spells spells', _, _, read,
    read', ?_⟩
  decide +kernel

end Settings

end Custody
