import Custody.Proofs.Yaml.Leaves

/-!
# Scanning documents

The tokens of a document are those of what was written (`scan_document`). A list that is a field's
value stands in the column of the field, so that nothing marks its start and its end; all other
collections have tokens for both. `Written.Fits` says what can be written so that it is scanned: its
fields have names that need no quotes, and it does not nest so deeply that lines would start right
of `lineWidth`.

The proof follows the writer. What follows a colon and what follows a dash are scanned as their
tokens up to the start of the next line, where the block collections that start further right end
(`FieldScans`, `ItemScans`); items and fields one after another are so by induction on the list, and
values by induction on how deep they nest.
-/

namespace Custody.Yaml

open Scanner

namespace Written

mutual

/-- The tokens of what is written; a bare list has none for its start and its end. -/
def tokens (bare : Bool) : Written → List Token
  | .text s => [textToken s]
  | .int n => [.scalar (.ofString (toString n)) true]
  | .list [] => [.flowSequenceStart, .flowSequenceEnd]
  | .list (item :: rest) =>
    if bare then itemsTokens (item :: rest)
    else .blockSequenceStart :: itemsTokens (item :: rest) ++ [.blockEnd]
  | .record [] => [.flowMappingStart, .flowMappingEnd]
  | .record (field :: rest) => .blockMappingStart :: fieldsTokens (field :: rest) ++ [.blockEnd]

/-- The tokens of the items of a list. -/
def itemsTokens : List Written → List Token
  | [] => []
  | item :: rest => .blockEntry :: item.tokens false ++ itemsTokens rest

/-- The tokens of the fields of a record. -/
def fieldsTokens : List (String × Written) → List Token
  | [] => []
  | (name, value) :: rest =>
    .key :: .scalar (.ofString name) true :: .value :: value.tokens true ++ fieldsTokens rest

end

/-- That what follows a field's colon is scanned as the tokens of the value. -/
def FieldScans (levels : Nat) (v : Written) : Prop :=
  ∀ {s : Scanner} {indent column next : Nat} {outer : List Nat} {told : List Token}
    {rest : List Char},
    At s (writeField indent column v ++ (List.replicate next ' ' ++ rest)) column
      (indent :: outer) false told →
    indent < column → indent + 2 * levels + 3 ≤ lineWidth → next ≤ indent → StartsLine next rest →
    ∃ s', s.Leads s' ∧ s'.Comes rest next ((indent :: outer).dropWhile (next < ·)) true
      (told ++ v.tokens true ++ ends next (indent :: outer))

/-- That what follows an item's dash is scanned as the tokens of the item. -/
def ItemScans (levels : Nat) (v : Written) : Prop :=
  ∀ {s : Scanner} {indent next : Nat} {outer : List Nat} {told : List Token} {rest : List Char},
    At s (writeItem indent v ++ (List.replicate next ' ' ++ rest)) (indent + 1)
      (indent :: outer) true told →
    indent + 2 * levels + 3 ≤ lineWidth → next ≤ indent → StartsLine next rest →
    ∃ s', s.Leads s' ∧ s'.Comes rest next ((indent :: outer).dropWhile (next < ·)) true
      (told ++ v.tokens false ++ ends next (indent :: outer))

/-! ## Scalars and empty collections -/

/-- What stands after a space at the end of a line is scanned as its tokens. -/
theorem leads_of_scans {s : Scanner} {form : List Char} {tokens told : List Token}
    {indent column next : Nat} {outer : List Nat} {allowKey : Bool} {rest : List Char}
    (scans : Scans indent form tokens)
    (h : At s (' ' :: (form ++ ['\n']) ++ (List.replicate next ' ' ++ rest)) column
      (indent :: outer) allowKey told)
    (right : indent ≤ column) (left : next ≤ indent) (line : StartsLine next rest) :
    ∃ s', s.Leads s' ∧ s'.Comes rest next ((indent :: outer).dropWhile (next < ·)) true
      (told ++ tokens ++ ends next (indent :: outer)) := by
  have text : ' ' :: (form ++ ['\n']) ++ (List.replicate next ' ' ++ rest) =
      List.replicate 1 ' ' ++ (form ++ (newLine next ++ rest)) := by
    simp [newLine]
  rw [text] at h
  have comes := h.comes 1 (scans.starts _) fun i mem => by
    obtain rfl := Option.some.inj mem
    omega
  exact scans.leads comes (by omega) (fun _ => by omega) left line

/-- What is written on the line of its colon or dash is scanned as its tokens. -/
theorem scans_of_leaf {v : Written} (levels : Nat)
    (field : ∀ indent column, indent + 3 ≤ lineWidth → ∃ form,
      writeField indent column v = ' ' :: (form ++ ['\n']) ∧ Scans indent form (v.tokens true))
    (item : ∀ indent, indent + 3 ≤ lineWidth → ∃ form,
      writeItem indent v = ' ' :: (form ++ ['\n']) ∧ Scans indent form (v.tokens false)) :
    v.FieldScans levels ∧ v.ItemScans levels := by
  refine ⟨?_, ?_⟩
  · intro s indent column next outer told rest h right room left line
    obtain ⟨form, written, scans⟩ := field indent column (by omega)
    rw [written] at h
    exact leads_of_scans scans h (Nat.le_of_lt right) left line
  · intro s indent next outer told rest h room left line
    obtain ⟨form, written, scans⟩ := item indent (by omega)
    rw [written] at h
    exact leads_of_scans scans h (Nat.le_succ indent) left line

/-- A text is scanned as its token. -/
theorem scans_text (levels : Nat) (t : Text) :
    (text t).FieldScans levels ∧ (text t).ItemScans levels := by
  refine scans_of_leaf levels (fun indent column room => ?_) fun indent room => ?_
  · obtain ⟨form, written, scans⟩ := Yaml.scans_text (Nat.le_succ (indent + 1)) room column t
    exact ⟨form, by rw [writeField, written]; rfl, scans⟩
  · obtain ⟨form, written, scans⟩ :=
      Yaml.scans_text (Nat.le_succ (indent + 1)) room (indent + 1) t
    exact ⟨form, by rw [writeItem, written]; rfl, scans⟩

/-- An integer is scanned as its token. -/
theorem scans_int (levels : Nat) (n : Int) :
    (int n).FieldScans levels ∧ (int n).ItemScans levels :=
  scans_of_leaf levels (fun indent _ _ => ⟨_, rfl, Yaml.scans_int indent n⟩)
    fun indent _ => ⟨_, rfl, Yaml.scans_int indent n⟩

/-- An empty list is scanned as its brackets. -/
theorem scans_nil (levels : Nat) : (list []).FieldScans levels ∧ (list []).ItemScans levels :=
  scans_of_leaf levels (fun indent _ _ => ⟨_, rfl, scans_emptyList indent⟩)
    fun indent _ => ⟨_, rfl, scans_emptyList indent⟩

/-- An empty record is scanned as its brackets. -/
theorem scans_empty (levels : Nat) :
    (record []).FieldScans levels ∧ (record []).ItemScans levels :=
  scans_of_leaf levels (fun indent _ _ => ⟨_, rfl, scans_emptyRecord indent⟩)
    fun indent _ => ⟨_, rfl, scans_emptyRecord indent⟩

/-! ## Items -/

/-- A text is written after a space. -/
theorem writeText_space (indent column : Nat) (t : Text) :
    ∃ more, writeText indent column t = ' ' :: more := by
  rw [writeText]
  split
  · split <;> exact ⟨_, rfl⟩
  · exact ⟨_, rfl⟩

/-- A space follows a dash. -/
theorem atSpace_writeItem (indent : Nat) (v : Written) (rest : List Char) :
    atSpace (writeItem indent v ++ rest) = true := by
  have spaced : ∃ more, writeItem indent v = ' ' :: more := by
    unfold writeItem
    split
    · obtain ⟨more, eq⟩ := writeText_space (indent + 2) (indent + 1) _
      exact ⟨_, by rw [eq]; rfl⟩
    all_goals exact ⟨_, rfl⟩
  obtain ⟨more, eq⟩ := spaced
  rw [eq]
  rfl

/-- A line starts with a character that is no mark. -/
theorem startsLine_of_head {c : Char} {rest : List Char} (column : Nat)
    (token : IsShown c ∧ c ≠ ' ' ∧ c ≠ '#') (marker : startsWithMarker '-' (c :: rest) = false)
    (point : c ≠ '.') : StartsLine column (c :: rest) where
  token d mem := by
    obtain rfl := Option.some.inj mem
    exact token
  inside := by
    cases column with
    | zero => simp [atSeparator, marker, startsWithMarker_of_ne point]
    | succ n => exact atSeparator_indented (Nat.succ_pos n) _

/-- A line starts with an item. -/
theorem startsLine_items (indent column : Nat) (item : Written) (items : List Written)
    (rest : List Char) : StartsLine column (writeItems indent true (item :: items) ++ rest) := by
  have text : writeItems indent true (item :: items) ++ rest =
      '-' :: (writeItem indent item ++ (writeItems indent false items ++ rest)) := by
    simp [writeItems]
  rw [text]
  exact startsLine_of_head column (by decide)
    (startsWithMarker_dash (atSpace_writeItem indent item _)) (by decide)

/-- A block collection whose column is the innermost one does not open another there. -/
theorem opensWithin_self (indent : Nat) (outer : List Nat) :
    opensWithin indent (indent :: outer) = false := by
  simp [opensWithin]

/-- A block collection goes on in its column. -/
theorem indentsWith_self (indent : Nat) (outer : List Nat) :
    indentsWith indent (indent :: outer) = indent :: outer := by
  simp [indentsWith, opensWithin_self]

/-- No block collection ends at a line that is not left of the innermost one. -/
theorem ends_of_le {indent next : Nat} (right : indent ≤ next) (outer : List Nat) :
    ends next (indent :: outer) = [] ∧
      (indent :: outer).dropWhile (next < ·) = indent :: outer := by
  simp [ends, Nat.not_lt.2 right]

/-- Items are scanned as their tokens if each is. -/
theorem scans_items {levels indent : Nat} {items : List Written}
    (each : ∀ item ∈ items, ItemScans levels item) (some_item : items ≠ [])
    (room : indent + 2 * levels + 3 ≤ lineWidth) {next : Nat} {outer : List Nat}
    {rest : List Char} (left : next ≤ indent) (line : StartsLine next rest) :
    ∀ {s : Scanner} {indents : List Nat} {told : List Token},
      s.Comes (writeItems indent true items ++ (List.replicate next ' ' ++ rest)) indent indents
        true told →
      indentsWith indent indents = indent :: outer →
      ∃ s', s.Leads s' ∧ s'.Comes rest next ((indent :: outer).dropWhile (next < ·)) true
        (told ++ (if opensWithin indent indents then [.blockSequenceStart] else []) ++
          itemsTokens items ++ ends next (indent :: outer)) := by
  induction items with
  | nil => exact absurd rfl some_item
  | cons item items ih =>
    intro s indents told comes opened
    rw [List.forall_mem_cons] at each
    have text : writeItems indent true (item :: items) ++ (List.replicate next ' ' ++ rest) =
        '-' :: (writeItem indent item ++
          (writeItems indent false items ++ (List.replicate next ' ' ++ rest))) := by
      simp [writeItems]
    rw [text] at comes
    obtain ⟨s', dash, h⟩ := comes.dash (atSpace_writeItem indent item _)
    rw [opened] at h
    cases items with
    | nil =>
      obtain ⟨s'', leads, comes⟩ := each.1 h room left line
      refine ⟨s'', leads.head dash, ?_⟩
      simpa [itemsTokens] using comes
    | cons item' items =>
      have indented : writeItems indent false (item' :: items) =
          List.replicate indent ' ' ++ writeItems indent true (item' :: items) := by
        simp [writeItems]
      rw [indented, List.append_assoc] at h
      obtain ⟨s'', leads, comes⟩ := each.1 h room (Nat.le_refl indent)
        (startsLine_items indent indent item' items _)
      obtain ⟨none_ends, same⟩ := ends_of_le (Nat.le_refl indent) outer
      rw [none_ends, same, List.append_nil] at comes
      obtain ⟨s₃, further, comes⟩ := ih each.2 (by simp) comes (indentsWith_self indent outer)
      refine ⟨s₃, (leads.head dash).trans further, ?_⟩
      simpa [itemsTokens, opensWithin_self] using comes

/-! ## Fields -/

/-- A space or a line end follows a colon. -/
theorem atSpace_writeField (indent column : Nat) (v : Written) (rest : List Char) :
    atSpace (writeField indent column v ++ rest) = true := by
  have spaced : ∃ c more, writeField indent column v = c :: more ∧ (c = ' ' ∨ c = '\n') := by
    unfold writeField
    split
    · obtain ⟨more, eq⟩ := writeText_space (indent + 2) column _
      exact ⟨_, _, by rw [eq]; rfl, .inl rfl⟩
    · exact ⟨_, _, rfl, .inl rfl⟩
    · exact ⟨_, _, rfl, .inl rfl⟩
    · exact ⟨_, _, rfl, .inr rfl⟩
    · exact ⟨_, _, rfl, .inl rfl⟩
    · exact ⟨_, _, rfl, .inr rfl⟩
  obtain ⟨c, more, eq, rfl | rfl⟩ := spaced <;> rw [eq] <;> rfl

/-- A line starts with a field. -/
theorem startsLine_fields (indent column : Nat) {field : String × Written}
    (name : IsFieldName field.1.toList) (fields : List (String × Written)) (rest : List Char) :
    StartsLine column (writeFields indent true (field :: fields) ++ rest) := by
  obtain ⟨name', value⟩ := field
  obtain ⟨c, more, eq⟩ := List.exists_cons_of_ne_nil name.ne_nil
  obtain ⟨shown, space, -, indicator, -, dash, point⟩ :=
    name.char (by rw [eq]; exact List.mem_cons_self ..)
  have comment : c ≠ '#' := by
    rintro rfl
    exact absurd indicator (by decide)
  have text : writeFields indent true ((name', value) :: fields) ++ rest =
      c :: (more ++ ':' :: (writeField indent (indent + name'.toList.length + 1) value ++
        (writeFields indent false fields ++ rest))) := by
    simp [writeFields, eq]
  rw [text]
  exact startsLine_of_head column ⟨shown, space, comment⟩ (startsWithMarker_of_ne dash _) point

/-- A block collection that can be opened or goes on in a column is not left of the others. -/
theorem le_of_indentsWith {indent : Nat} {indents outer : List Nat}
    (opened : indentsWith indent indents = indent :: outer) : ∀ i ∈ indents.head?, i ≤ indent := by
  intro i mem
  rw [indentsWith] at opened
  split at opened
  · next opens =>
    rw [opensWithin, mem, Option.all_some, decide_eq_true_eq] at opens
    exact Nat.le_of_lt opens
  · rw [opened] at mem
    exact Nat.le_of_eq (Option.some.inj mem).symm

/-- The tokens of a filled slot are those of the mapping's start, if it starts, and of the key. -/
theorem keyTokens_eq (opening : Bool) :
    keyTokens opening = (if opening then [.blockMappingStart] else []) ++ [.key] := by
  cases opening <;> rfl

/-- Fields are scanned as their tokens if the value of each is. -/
theorem scans_fields {levels indent : Nat} {fields : List (String × Written)}
    (names : ∀ field ∈ fields, IsFieldName field.1.toList)
    (each : ∀ field ∈ fields, FieldScans levels field.2) (some_field : fields ≠ [])
    (room : indent + 2 * levels + 3 ≤ lineWidth) {next : Nat} {outer : List Nat}
    {rest : List Char} (left : next ≤ indent) (line : StartsLine next rest) :
    ∀ {s : Scanner} {indents : List Nat} {told : List Token},
      s.Comes (writeFields indent true fields ++ (List.replicate next ' ' ++ rest)) indent indents
        true told →
      indentsWith indent indents = indent :: outer →
      ∃ s', s.Leads s' ∧ s'.Comes rest next ((indent :: outer).dropWhile (next < ·)) true
        (told ++ (if opensWithin indent indents then [.blockMappingStart] else []) ++
          fieldsTokens fields ++ ends next (indent :: outer)) := by
  induction fields with
  | nil => exact absurd rfl some_field
  | cons field fields ih =>
    obtain ⟨name, value⟩ := field
    intro s indents told comes opened
    rw [List.forall_mem_cons] at each names
    -- The name of the first field and the colon are scanned as a key.
    have text : writeFields indent true ((name, value) :: fields) ++
        (List.replicate next ' ' ++ rest) =
        name.toList ++ ':' :: (writeField indent (indent + name.toList.length + 1) value ++
          (writeFields indent false fields ++ (List.replicate next ' ' ++ rest))) := by
      simp [writeFields]
    rw [text] at comes
    obtain ⟨s', key, h⟩ := comes.key names.1 (atSpace_writeField _ _ _ _)
      (le_of_indentsWith opened)
    rw [opened] at h
    have after : indent < indent + name.toList.length + 1 := by omega
    cases fields with
    | nil =>
      -- Its value is the last, so that what follows it follows the fields.
      obtain ⟨s'', leads, comes⟩ := each.1 h after room left line
      refine ⟨s'', key.trans leads, ?_⟩
      simpa [fieldsTokens, keyTokens_eq, Text.ofString] using comes
    | cons field' fields =>
      -- Its value is followed by the next field on a line of its own.
      have indented : writeFields indent false (field' :: fields) =
          List.replicate indent ' ' ++ writeFields indent true (field' :: fields) := by
        simp [writeFields]
      rw [indented, List.append_assoc] at h
      obtain ⟨s'', leads, comes⟩ := each.1 h after room (Nat.le_refl indent)
        (startsLine_fields indent indent (names.2 field' (List.mem_cons_self ..)) fields _)
      obtain ⟨none_ends, same⟩ := ends_of_le (Nat.le_refl indent) outer
      rw [none_ends, same, List.append_nil] at comes
      -- Nothing ends there, so that the other fields are scanned from the same state.
      obtain ⟨s₃, further, comes⟩ :=
        ih names.2 each.2 (by simp) comes (indentsWith_self indent outer)
      refine ⟨s₃, (key.trans leads).trans further, ?_⟩
      simpa [fieldsTokens, keyTokens_eq, Text.ofString, opensWithin_self] using comes

/-! ## Values -/

/-- A block collection that starts further right ends before the others. -/
theorem ends_cons {next column : Nat} (left : next < column) (outer : List Nat) :
    ends next (column :: outer) = .blockEnd :: ends next outer ∧
      (column :: outer).dropWhile (next < ·) = outer.dropWhile (next < ·) := by
  simp [ends, left, List.replicate_succ]

/-- A block collection is opened right of the innermost one. -/
theorem indentsWith_right {indent column : Nat} (right : indent < column) (outer : List Nat) :
    opensWithin column (indent :: outer) = true ∧
      indentsWith column (indent :: outer) = column :: indent :: outer := by
  simp [indentsWith, opensWithin, right]

/-- The scanner goes on to the line after a colon. -/
theorem comes_of_newLine {s : Scanner} {text : List Char} {column indent next : Nat}
    {outer : List Nat} {told : List Token}
    (h : At s (newLine next ++ text) column (indent :: outer) false told)
    (starts : StartsToken text) (right : indent ≤ next) :
    s.Comes text next (indent :: outer) true told := by
  have comes := h.toTold.comes_line h.rest_eq starts fun key mem => by simp [h.outermost_eq] at mem
  obtain ⟨none_ends, same⟩ := ends_of_le right outer
  rwa [none_ends, same, List.append_nil] at comes

/-- The scanner goes on to what stands after a dash on its line. -/
theorem comes_of_space {s : Scanner} {text : List Char} {indent : Nat} {outer : List Nat}
    {told : List Token} (h : At s (' ' :: text) (indent + 1) (indent :: outer) true told)
    (starts : StartsToken text) : s.Comes text (indent + 2) (indent :: outer) true told :=
  At.comes 1 h starts fun i mem => by
    obtain rfl := Option.some.inj mem
    omega

variable {levels : Nat}

/-- A list that is not empty is scanned as its tokens if each of its items is. -/
theorem scans_list {item : Written} {items : List Written}
    (each : ∀ i ∈ item :: items, ItemScans levels i) :
    (list (item :: items)).FieldScans (levels + 1) ∧
      (list (item :: items)).ItemScans (levels + 1) := by
  refine ⟨?_, ?_⟩
  · -- After a colon, the items stand in the column of the field.
    intro s indent column next outer told rest h right room left line
    have text : writeField indent column (.list (item :: items)) ++
        (List.replicate next ' ' ++ rest) =
        newLine indent ++ (writeItems indent true (item :: items) ++
          (List.replicate next ' ' ++ rest)) := by
      simp [writeField, writeItems, newLine]
    rw [text] at h
    have comes := comes_of_newLine h (startsLine_items indent indent item items _).token
      (Nat.le_refl indent)
    obtain ⟨s', leads, comes⟩ := scans_items each (by simp) (by omega) left line comes
      (indentsWith_self indent outer)
    refine ⟨s', leads, ?_⟩
    simpa [tokens, opensWithin_self] using comes
  · intro s indent next outer told rest h room left line
    have text : writeItem indent (.list (item :: items)) ++ (List.replicate next ' ' ++ rest) =
        ' ' :: (writeItems (indent + 2) true (item :: items) ++
          (List.replicate next ' ' ++ rest)) := by
      simp [writeItem]
    rw [text] at h
    have comes := comes_of_space h (startsLine_items (indent + 2) 0 item items _).token
    obtain ⟨opens, opened⟩ := indentsWith_right (Nat.lt_add_of_pos_right Nat.two_pos) outer
    obtain ⟨s', leads, comes⟩ := scans_items each (by simp) (by omega) (Nat.le_add_right_of_le left)
      line comes opened
    obtain ⟨closed, outside⟩ :=
      ends_cons (Nat.lt_of_le_of_lt left (Nat.lt_add_of_pos_right Nat.two_pos)) (indent :: outer)
    rw [opens, closed, outside] at comes
    refine ⟨s', leads, ?_⟩
    simpa [tokens] using comes

/-- A record that is not empty is scanned as its tokens if the value of each of its fields is. -/
theorem scans_record {field : String × Written} {fields : List (String × Written)}
    (names : ∀ f ∈ field :: fields, IsFieldName f.1.toList)
    (each : ∀ f ∈ field :: fields, FieldScans levels f.2) :
    (record (field :: fields)).FieldScans (levels + 1) ∧
      (record (field :: fields)).ItemScans (levels + 1) := by
  -- After a colon and after a dash alike, the fields stand two columns further right.
  have nested {s : Scanner} {indent next : Nat} {outer : List Nat} {told : List Token}
      {rest : List Char} (room : indent + 2 * (levels + 1) + 3 ≤ lineWidth) (left : next ≤ indent)
      (line : StartsLine next rest)
      (comes : s.Comes (writeFields (indent + 2) true (field :: fields) ++
        (List.replicate next ' ' ++ rest)) (indent + 2) (indent :: outer) true told)
      (bare : Bool) : ∃ s', s.Leads s' ∧
        s'.Comes rest next ((indent :: outer).dropWhile (next < ·)) true
          (told ++ (record (field :: fields)).tokens bare ++ ends next (indent :: outer)) := by
    obtain ⟨opens, opened⟩ := indentsWith_right (Nat.lt_add_of_pos_right Nat.two_pos) outer
    obtain ⟨s', leads, comes⟩ := scans_fields names each (by simp) (by omega)
      (Nat.le_add_right_of_le left) line comes opened
    obtain ⟨closed, outside⟩ :=
      ends_cons (Nat.lt_of_le_of_lt left (Nat.lt_add_of_pos_right Nat.two_pos)) (indent :: outer)
    rw [opens, closed, outside] at comes
    refine ⟨s', leads, ?_⟩
    simpa [tokens] using comes
  have name := names field (List.mem_cons_self ..)
  refine ⟨?_, ?_⟩
  · intro s indent column next outer told rest h right room left line
    have text : writeField indent column (.record (field :: fields)) ++
        (List.replicate next ' ' ++ rest) =
        newLine (indent + 2) ++ (writeFields (indent + 2) true (field :: fields) ++
          (List.replicate next ' ' ++ rest)) := by
      simp [writeField, writeFields, newLine]
    rw [text] at h
    have comes := comes_of_newLine h (startsLine_fields (indent + 2) 0 name fields _).token
      (Nat.le_add_right indent 2)
    exact nested room left line comes true
  · intro s indent next outer told rest h room left line
    have text : writeItem indent (.record (field :: fields)) ++
        (List.replicate next ' ' ++ rest) =
        ' ' :: (writeFields (indent + 2) true (field :: fields) ++
          (List.replicate next ' ' ++ rest)) := by
      simp [writeItem]
    rw [text] at h
    exact nested room left line
      (comes_of_space h (startsLine_fields (indent + 2) 0 name fields _).token) false

/-- What can be written is scanned as its tokens, after a colon and after a dash. -/
theorem scans_of_fits {v : Written} (fits : Fits levels v) :
    v.FieldScans levels ∧ v.ItemScans levels := by
  induction fits with
  | text t => exact scans_text _ t
  | int n => exact scans_int _ n
  | @list levels items _ each =>
    cases items with
    | nil => exact scans_nil _
    | cons item items =>
      have each (i : Written) (mem : i ∈ item :: items) : ItemScans levels i := (each i mem).2
      exact scans_list each
  | @record levels fields names distinct _ each =>
    cases fields with
    | nil => exact scans_empty _
    | cons field fields =>
      have each (f : String × Written) (mem : f ∈ field :: fields) : FieldScans levels f.2 :=
        (each f mem).1
      exact scans_record names each

/-! ## Documents -/

/-- A scanner at the start of a text. -/
theorem at_start (text : List Char) :
    At { cursor := { rest := text } } (List.replicate 0 ' ' ++ text) 0 [] true [] where
  indents_eq := rfl
  tokens_eq := rfl
  inner_eq := rfl
  fresh := ⟨fun _ mem => absurd mem List.not_mem_nil, fun _ filled => absurd filled (by simp)⟩
  rest_eq := rfl
  column_eq := rfl
  allowKey_eq := rfl
  outermost_eq := rfl

/-- The tokens of a text of which all is scanned before its end. -/
theorem scan_of_leads {text : List Char} {s : Scanner} {indents : List Nat} {told : List Token}
    {column : Nat} {allowKey : Bool} (simple : isSimple text = true)
    (leads : Scanner.Leads { cursor := { rest := text } } s)
    (comes : s.Comes [] column indents allowKey told) :
    Token.scan (unifyLineEnds text) = told ++ List.replicate indents.length .blockEnd := by
  obtain ⟨last, ends, tokens⟩ := comes.finish
  rw [unifyLineEnds_of_isSimple simple, Token.scan, if_pos (all_isPrintable_of_isSimple simple),
    run_of_leads leads ends (Nat.lt_succ_self _), tokens]

/-- A document is scanned as the tokens of its fields. -/
theorem scan_document {fields : List (String × Written)} (fits : Fits (levels + 1) (.record fields))
    (room : 2 * levels + 3 ≤ lineWidth) :
    Token.scan (unifyLineEnds (document fields)) = (record fields).tokens false := by
  have simple := isSimple_document fits
  have ended : StartsLine 0 [] := ⟨fun _ mem => by simp at mem, rfl⟩
  cases fits with
  | record names distinct fit =>
    cases fields with
    | nil =>
      have text : document [] = '\x7b' :: '\x7d' :: (newLine 0 ++ []) := rfl
      have brace {c : Char} (shown : IsShown c ∧ c ≠ ' ' ∧ c ≠ '#') (rest : List Char) :
          StartsToken (c :: rest) := by
        intro d mem
        obtain rfl := Option.some.inj mem
        exact shown
      have comes := (at_start (document [])).comes 0 (brace (by decide) _) (by simp)
      rw [text] at comes
      obtain ⟨s, leads, comes⟩ := Comes.brackets comes (by simp) ended.token (by decide)
        (brace (by decide) _) (fun _ => scanToken_openBrace) fun _ => scanToken_closeBrace
      rw [scan_of_leads simple (by rw [text]; exact leads) comes]
      simp [tokens, ends]
    | cons field fields =>
      have text : document (field :: fields) =
          writeFields 0 true (field :: fields) ++ (List.replicate 0 ' ' ++ []) := by
        simp [document, writeFields]
      have starts := startsLine_fields 0 0 (names field (List.mem_cons_self ..)) fields []
      have comes := (at_start (document (field :: fields))).comes 0
        (by simpa [text] using starts.token) (by simp)
      rw [text] at comes
      obtain ⟨s, leads, comes⟩ := scans_fields names (fun f mem => (scans_of_fits (fit f mem)).1)
        (by simp) (by omega) (Nat.le_refl 0) ended comes rfl
      rw [scan_of_leads simple (by rw [text]; exact leads) comes]
      simp [tokens, opensWithin, ends]

end Written

end Custody.Yaml
