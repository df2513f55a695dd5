import Custody.Proofs.Settings.Unset
import Custody.Proofs.Text.Expansion
import Custody.Settings.Build

/-!
# Validating what was validated

What a value was taken for is, as a value, taken for itself (`Settings.ofValue_toValue_self`): no
default is left to fill in, ids are integers, and hex text is in normal form with its marker. So
validating is a projection onto settings in normal form (`Settings.ofValue_projects`), and it keeps
the bytes of each hex text: those that the text spells as it was written are those that it spells in
normal form, marker and all. `Value.writtenHex` are the hex texts as they were written, in the order
of those that the settings have (`Settings.forall₂_writtenHex`).
-/

namespace Custody

/-! ## Hex text as it was written -/

/-- What stands in the value of settings where hex text is asked for, in the order of the hex texts
of the settings. -/
def Value.writtenHex (value : Value) : List Value :=
  (value.itemsUnder "wallets").filterMap (under? "public_key") ++
    (value.itemsUnder "policies").filterMap (under? "data")

/-- What the items of one list lead to is related to what those of another do, if it is item by
item. -/
theorem forall₂_filterMap_map {α β γ δ : Type} {related : α → β → Prop} {leads : γ → δ → Prop}
    {f : α → Option γ} {g : β → δ} {as : List α} {bs : List β} (all : List.Forall₂ related as bs)
    (each : ∀ a b, related a b → ∃ c, f a = some c ∧ leads c (g b)) :
    List.Forall₂ leads (as.filterMap f) (bs.map g) := by
  induction all with
  | nil => exact .nil
  | cons first _ ih =>
    obtain ⟨c, found, leads⟩ := each _ _ first
    rw [List.filterMap_cons_some found]
    exact .cons leads ih

/-- A public key stands in its entry as it was written. -/
theorem WalletSettings.exists_writtenHex {entry : Value} {w : WalletSettings}
    (read : ofValue entry = .ok w) :
    ∃ written, entry.under? "public_key" = some written ∧ written.asHex = .ok w.publicKey := by
  obtain ⟨entries, rfl, -, -, publicKey⟩ := ofValue_eq_ok.1 read
  exact Checked.required_eq_ok.1 publicKey

/-- An expression stands in its entry as it was written. -/
theorem PolicySettings.exists_writtenHex {entry : Value} {p : PolicySettings}
    (read : ofValue entry = .ok p) :
    ∃ written, entry.under? "data" = some written ∧ written.asHex = .ok p.data := by
  obtain ⟨entries, rfl, -, -, -, data, -⟩ := ofValue_eq_ok.1 read
  exact Checked.required_eq_ok.1 data

/-- What stands where hex text is asked for is taken for the hex texts of the settings. -/
theorem Settings.forall₂_writtenHex {value : Value} {s : Settings} (read : ofValue value = .ok s) :
    List.Forall₂ (fun written t => written.asHex = .ok t) value.writtenHex s.hexTexts := by
  obtain ⟨entries, rfl, -, wallets, policies⟩ := ofValue_eq_ok.1 read
  have keys : List.Forall₂ (fun written t => Value.asHex written = .ok t) _
      (s.wallets.map (·.publicKey)) :=
    forall₂_filterMap_map (Checked.forall₂_of_optional wallets) fun _ _ =>
      WalletSettings.exists_writtenHex
  have expressions : List.Forall₂ (fun written t => Value.asHex written = .ok t) _
      (s.policies.map (·.data)) :=
    forall₂_filterMap_map (Checked.forall₂_of_optional policies) fun _ _ =>
      PolicySettings.exists_writtenHex
  exact List.rel_append keys expressions

/-- Hex text spells its bytes, with the marker in front. -/
theorem HexText.spells_text (t : HexText) : Hex.Spells t.text.toList t.bytes := by
  unfold text
  rw [String.toList_ofList]
  exact .marked (.inl rfl) t.denotes_bytes

/-! ## Validating once more -/

namespace Settings

/-- Settings in normal form are, as a value, taken for themselves. -/
theorem ofValue_toValue_self {s : Settings} (normal : s.IsNormal) : ofValue s.toValue = .ok s := by
  have taken := ofValue_toValue (fun _ => none) normal
  -- Without values to put in, filling in does nothing on either side.
  have same : s.fill (fun _ => none) = s :=
    (fill_eq_self_iff s).2 fun t _ =>
      Placeholder.fill_of_unset fun name _ => Placeholder.valueOf_nothing name
  rwa [Value.fill_of_unset fun name _ => Placeholder.valueOf_nothing name, same] at taken

/-- Validating is a projection: what a value is taken for is, as a value, taken for settings that
are equal to it, and of which the same wallets and policies are built. Each of its hex texts spells
the bytes that the text spells that was written in its place. -/
theorem ofValue_projects {value : Value} {s : Settings} (read : ofValue value = .ok s) :
    (∃ again, ofValue s.toValue = .ok again ∧ again = s ∧
      again.buildWallets = s.buildWallets ∧ again.buildPolicies = s.buildPolicies) ∧
    List.Forall₂ (fun written t => ∃ text bytes, written.asText = .ok (.ofString text) ∧
      Hex.Spells text.toList bytes ∧ Hex.Spells (HexText.text t).toList bytes)
      value.writtenHex s.hexTexts := by
  constructor
  · exact ⟨s, ofValue_toValue_self (isNormal_of_ofValue read), rfl, rfl, rfl⟩
  · refine (forall₂_writtenHex read).imp fun written t hex => ?_
    obtain ⟨text, isText, normal⟩ := Value.asHex_eq_ok.1 hex
    exact ⟨text, t.bytes, isText, HexText.spells_of_ofText? normal, t.spells_text⟩

/-- A value of settings in which little is as it comes out: an id is spelled with a sign, zeros and
a point, hex text has blanks and markers and letters of both cases, and defaults are left out. -/
def loosely : Value :=
  .ofFields [("wallets", .list [.ofFields [("public_key", .text "0X02 aB\n")]]),
    ("policies", .list [.ofFields [("id", .text " +007.0 "), ("name", .bytes [0x61]),
      ("data", .text "08 03 22 01 61")]])]

/-- The settings that it is taken for are taken for themselves. -/
theorem ofValue_projects_loosely :
    let s : Settings := ⟨"treasury", [⟨"ethereum", "ethereum", ⟨"02 ab\n".toList, by decide⟩⟩],
      [⟨7, "a", "blackbird", ⟨"08 03 22 01 61".toList, by decide⟩, []⟩]⟩
    ofValue loosely = .ok s ∧ ofValue s.toValue = .ok s := by
  intro s
  have read : ofValue loosely = .ok s := by decide +kernel
  obtain ⟨⟨again, taken, rfl, -, -⟩, -⟩ := ofValue_projects read
  exact ⟨read, taken⟩

end Settings

end Custody
