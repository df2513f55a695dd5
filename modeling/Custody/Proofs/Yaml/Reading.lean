import Custody.Proofs.Yaml.Scanning
import Custody.Yaml.Tree

/-!
# Reading the tokens of documents

The tokens of what was written are read as its tree (`ofTokens_tokens`): a scalar for each text and
integer, a sequence for each list, and a mapping for each record, with no anchors, tags or aliases.

Reading is by fuel, of which two for each token and two more are enough, and nodes may be nested
less deeply than `Tree.deepest`. Both bounds are carried by `Reads`, which says that the tokens of a
value are read as its tree whatever follows them. After a field's colon the items of a list have no
start and no end of their own, so that what follows must not go on with them.
-/

namespace Custody.Yaml

open Custody.Yaml.Tree

namespace Written

mutual

/-- The tree of what is written. -/
def tree : Written → Tree
  | .text s => .scalar {} s (isPlainText s)
  | .int n => .scalar {} (.ofString (toString n)) true
  | .list items => .sequence {} (itemTrees items)
  | .record fields => .mapping {} (entryTrees fields)

/-- The trees of the items of a list. -/
def itemTrees : List Written → List Tree
  | [] => []
  | item :: rest => item.tree :: itemTrees rest

/-- The trees of the names and values of fields. -/
def entryTrees : List (String × Written) → List (Tree × Tree)
  | [] => []
  | (name, value) :: rest =>
    (.scalar {} (.ofString name) true, value.tree) :: entryTrees rest

end

variable {levels : Nat}

/-! ## Names of nodes -/

/-- Whether a token gives a node no name and refers to none. -/
def isUnnamed : Token → Bool
  | .alias _ | .anchor _ => false
  | _ => true

/-- Tokens without names misuse none. -/
theorem checkNames_eq {tokens : List Token} (unnamed : tokens.all isUnnamed = true)
    (known : List (List Char)) : checkNames known tokens = tokens := by
  induction tokens with
  | nil => rfl
  | cons t tokens ih =>
    rw [List.all_cons, Bool.and_eq_true] at unnamed
    unfold checkNames
    split
    · next eq => exact eq.symm
    · next eq =>
      obtain ⟨rfl, -⟩ := List.cons.inj eq
      exact Bool.noConfusion unnamed.1
    · next eq =>
      obtain ⟨rfl, -⟩ := List.cons.inj eq
      exact Bool.noConfusion unnamed.1
    · next eq =>
      obtain ⟨rfl, rfl⟩ := List.cons.inj eq
      rw [ih unnamed.2]

/-- Items have no names of nodes if each has none. -/
theorem isUnnamed_items {items : List Written}
    (each : ∀ item ∈ items, (item.tokens false).all isUnnamed = true) :
    (itemsTokens items).all isUnnamed = true := by
  induction items with
  | nil => rfl
  | cons item items ih =>
    rw [List.forall_mem_cons] at each
    rw [itemsTokens, List.cons_append, List.all_cons, List.all_append, each.1, ih each.2]
    rfl

/-- Fields have no names of nodes if the value of each has none. -/
theorem isUnnamed_fields {fields : List (String × Written)}
    (each : ∀ field ∈ fields, (field.2.tokens true).all isUnnamed = true) :
    (fieldsTokens fields).all isUnnamed = true := by
  induction fields with
  | nil => rfl
  | cons field fields ih =>
    rw [List.forall_mem_cons] at each
    simp only [fieldsTokens, List.cons_append, List.all_cons, List.all_append, each.1, ih each.2]
    rfl

/-- The marks of block collections have no names. -/
theorem isUnnamed_mark : isUnnamed .blockSequenceStart = true ∧
    isUnnamed .blockMappingStart = true ∧ isUnnamed .blockEnd = true := ⟨rfl, rfl, rfl⟩

/-- What is written has no names of nodes. -/
theorem isUnnamed_tokens {v : Written} (fits : Fits levels v) (bare : Bool) :
    (v.tokens bare).all isUnnamed = true := by
  induction fits generalizing bare with
  | text t => rfl
  | int n => rfl
  | @list levels items _ each =>
    have unnamed := isUnnamed_items fun item mem => each item mem false
    cases items with
    | nil => rfl
    | cons item items => cases bare <;> simp [tokens, unnamed, isUnnamed_mark]
  | @record levels fields _ _ _ each =>
    have unnamed := isUnnamed_fields fun field mem => each field mem true
    cases fields with
    | nil => rfl
    | cons field fields => simp [tokens, unnamed, isUnnamed_mark]

/-! ## Nodes -/

/-- That the tokens of a value are read as its tree, whatever follows them. -/
def Reads (levels : Nat) (v : Written) : Prop :=
  ∀ (bare : Bool) (rest : List Token) {depth fuel : Nat},
    levels < depth → 2 * (v.tokens bare).length + 2 ≤ fuel →
    (bare = true → rest.head? ≠ some .blockEntry) →
    readNode usualHandles true bare depth fuel (v.tokens bare ++ rest) = .ok (v.tree, rest)

/-- A scalar is read as itself. -/
theorem readNode_scalar (block bare : Bool) {depth fuel : Nat} (some_level : 0 < depth)
    (some_fuel : 0 < fuel) (t : Text) (plain : Bool) (rest : List Token) :
    readNode usualHandles block bare depth fuel (.scalar t plain :: rest) =
      .ok (.scalar {} t plain, rest) := by
  obtain ⟨depth, rfl⟩ := Nat.exists_eq_add_of_lt some_level
  obtain ⟨fuel, rfl⟩ := Nat.exists_eq_add_of_lt some_fuel
  rw [Nat.zero_add, Nat.zero_add]
  rfl

/-- The tokens of a value do not start with those that a value may be left out before. -/
theorem startsWith_tokens (v : Written) (bare : Bool) (rest : List Token) :
    startsWith (v.tokens bare ++ rest) [.key, .value, .blockEnd] = false ∧
      startsWith (v.tokens false ++ rest) [.blockEntry, .blockEnd] = false ∧
      startsWith (v.tokens false ++ rest) [.blockEntry, .key, .value, .blockEnd] = false := by
  cases v with
  | text t => exact ⟨rfl, rfl, rfl⟩
  | int n => exact ⟨rfl, rfl, rfl⟩
  | list items => cases items <;> cases bare <;> exact ⟨rfl, rfl, rfl⟩
  | record fields => cases fields <;> exact ⟨rfl, rfl, rfl⟩

section

variable {depth : Nat} {rest : List Token}

/-- The items of a block sequence are read as their trees if each is. -/
theorem readBlockSequence_items {items : List Written} (each : ∀ item ∈ items, Reads levels item)
    (deep : levels < depth) {fuel : Nat} (enough : 2 * (itemsTokens items).length + 1 ≤ fuel) :
    readBlockSequence usualHandles depth fuel (itemsTokens items ++ .blockEnd :: rest) =
      .ok (itemTrees items, rest) := by
  induction items generalizing fuel with
  | nil =>
    obtain ⟨fuel, rfl⟩ := Nat.exists_eq_add_of_le' (Nat.le_of_add_left_le enough)
    rfl
  | cons item items ih =>
    rw [List.forall_mem_cons] at each
    simp only [itemsTokens, List.cons_append, List.append_assoc, List.length_cons,
      List.length_append] at enough ⊢
    obtain ⟨fuel, rfl⟩ := Nat.exists_eq_add_of_le' (Nat.le_of_add_left_le enough)
    have read := each.1 false (itemsTokens items ++ .blockEnd :: rest) deep
      (show _ ≤ fuel by omega) fun bare => absurd bare Bool.false_ne_true
    simp only [readBlockSequence, (startsWith_tokens item false _).2.1, Bool.false_eq_true,
      if_false, read, Outcome.ok_bind, ih each.2 (show _ ≤ fuel by omega)]
    rfl

/-- Items that have no start and no end of their own are read as their trees if each is. -/
theorem readBareSequence_items {items : List Written} (each : ∀ item ∈ items, Reads levels item)
    (deep : levels < depth) (other : rest.head? ≠ some .blockEntry) {fuel : Nat}
    (enough : 2 * (itemsTokens items).length + 1 ≤ fuel) :
    readBareSequence usualHandles depth fuel (itemsTokens items ++ rest) =
      .ok (itemTrees items, rest) := by
  induction items generalizing fuel with
  | nil =>
    obtain ⟨fuel, rfl⟩ := Nat.exists_eq_add_of_le' (Nat.le_of_add_left_le enough)
    rw [itemsTokens, List.nil_append, readBareSequence]
    · rfl
    · rintro more rfl
      exact other rfl
  | cons item items ih =>
    rw [List.forall_mem_cons] at each
    simp only [itemsTokens, List.cons_append, List.append_assoc, List.length_cons,
      List.length_append] at enough ⊢
    obtain ⟨fuel, rfl⟩ := Nat.exists_eq_add_of_le' (Nat.le_of_add_left_le enough)
    have read := each.1 false (itemsTokens items ++ rest) deep
      (show _ ≤ fuel by omega) fun bare => absurd bare Bool.false_ne_true
    simp only [readBareSequence, (startsWith_tokens item false _).2.2, Bool.false_eq_true,
      if_false, read, Outcome.ok_bind, ih each.2 (show _ ≤ fuel by omega)]
    rfl

/-- Fields are read as the trees of their names and values if the value of each is. -/
theorem readBlockMapping_fields {fields : List (String × Written)}
    (each : ∀ field ∈ fields, Reads levels field.2) (deep : levels < depth) {fuel : Nat}
    (enough : 2 * (fieldsTokens fields).length + 1 ≤ fuel) :
    readBlockMapping usualHandles depth fuel (fieldsTokens fields ++ .blockEnd :: rest) =
      .ok (entryTrees fields, rest) := by
  induction fields generalizing fuel with
  | nil =>
    obtain ⟨fuel, rfl⟩ := Nat.exists_eq_add_of_le' (Nat.le_of_add_left_le enough)
    rfl
  | cons field fields ih =>
    obtain ⟨name, value⟩ := field
    rw [List.forall_mem_cons] at each
    obtain ⟨value_reads, each⟩ : Reads levels value ∧ ∀ field ∈ fields, Reads levels field.2 := each
    simp only [fieldsTokens, List.cons_append, List.append_assoc, List.length_cons,
      List.length_append] at enough ⊢
    obtain ⟨fuel, rfl⟩ := Nat.exists_eq_add_of_le' (Nat.le_of_add_left_le enough)
    -- A list that is the value ends before the next field, which starts with no dash.
    have no_entry : (fieldsTokens fields ++ .blockEnd :: rest).head? ≠ some .blockEntry := by
      cases fields <;> simp [fieldsTokens]
    have key := readNode_scalar true true (Nat.zero_lt_of_lt deep) (show 0 < fuel by omega)
      (.ofString name) true
      (.value :: (value.tokens true ++ (fieldsTokens fields ++ .blockEnd :: rest)))
    have read := value_reads true (fieldsTokens fields ++ .blockEnd :: rest) deep
      (show _ ≤ fuel by omega) fun _ => no_entry
    have named (more : List Token) :
        startsWith (.scalar (.ofString name) true :: more) [.key, .value, .blockEnd] = false := rfl
    simp only [readBlockMapping, named, (startsWith_tokens value true _).1, Bool.false_eq_true,
      if_false, key, read, Outcome.ok_bind, ih each (show _ ≤ fuel by omega)]
    rfl

end

/-- The tokens of a list are read as its tree if those of each item are. -/
theorem reads_list {items : List Written} (each : ∀ item ∈ items, Reads levels item) :
    Reads (levels + 1) (.list items) := by
  intro bare rest depth fuel deep enough other
  obtain ⟨depth, rfl⟩ := Nat.exists_eq_add_of_le' (Nat.one_le_of_lt deep)
  obtain ⟨fuel, rfl⟩ := Nat.exists_eq_add_of_le' (Nat.le_of_add_left_le enough)
  have deep : levels < depth := Nat.lt_of_succ_lt_succ deep
  cases items with
  | nil => rfl
  | cons item items =>
    cases bare with
    | true =>
      have start : readNode usualHandles true true (depth + 1) (fuel + 2)
          (itemsTokens (item :: items) ++ rest) =
          build (.sequence {}) (readBareSequence usualHandles depth (fuel + 1)
            (itemsTokens (item :: items) ++ rest)) := rfl
      simp only [tokens, if_true] at enough ⊢
      rw [start, readBareSequence_items each deep (other rfl) (by omega)]
      rfl
    | false =>
      have start (more : List Token) : readNode usualHandles true false (depth + 1) (fuel + 2)
          (.blockSequenceStart :: more) =
          build (.sequence {}) (readBlockSequence usualHandles depth (fuel + 1) more) := rfl
      simp only [tokens, Bool.false_eq_true, if_false, List.cons_append, List.append_assoc,
        List.length_cons, List.length_append, List.nil_append] at enough ⊢
      rw [start, readBlockSequence_items each deep (by omega)]
      rfl

/-- The tokens of a record are read as its tree if those of the value of each field are. -/
theorem reads_record {fields : List (String × Written)}
    (each : ∀ field ∈ fields, Reads levels field.2) : Reads (levels + 1) (.record fields) := by
  intro bare rest depth fuel deep enough other
  obtain ⟨depth, rfl⟩ := Nat.exists_eq_add_of_le' (Nat.one_le_of_lt deep)
  obtain ⟨fuel, rfl⟩ := Nat.exists_eq_add_of_le' (Nat.le_of_add_left_le enough)
  have deep : levels < depth := Nat.lt_of_succ_lt_succ deep
  cases fields with
  | nil => rfl
  | cons field fields =>
    have start (more : List Token) : readNode usualHandles true bare (depth + 1) (fuel + 2)
        (.blockMappingStart :: more) =
        build (.mapping {}) (readBlockMapping usualHandles depth (fuel + 1) more) := rfl
    simp only [tokens, List.cons_append, List.append_assoc, List.length_cons, List.length_append,
      List.nil_append] at enough ⊢
    rw [start, readBlockMapping_fields each deep (by omega)]
    rfl

/-- The tokens of a value are read as its tree. -/
theorem reads_of_fits {v : Written} (fits : Fits levels v) : Reads levels v := by
  induction fits with
  | text t =>
    intro bare rest depth fuel deep enough _
    exact readNode_scalar true bare (Nat.zero_lt_of_lt deep)
      (Nat.lt_of_lt_of_le (Nat.succ_pos _) enough) t _ rest
  | int n =>
    intro bare rest depth fuel deep enough _
    exact readNode_scalar true bare (Nat.zero_lt_of_lt deep)
      (Nat.lt_of_lt_of_le (Nat.succ_pos _) enough) _ _ rest
  | list fit each => exact reads_list each
  | record names distinct fit each => exact reads_record each

/-! ## Documents -/

/-- The tokens of a value are read as the tree of a document. -/
theorem ofTokens_tokens {v : Written} (fits : Fits levels v) (room : levels < deepest) :
    ofTokens (v.tokens false) = .ok (some v.tree) := by
  have read := reads_of_fits fits false [] room (Nat.le_refl _) fun bare =>
    absurd bare Bool.false_ne_true
  rw [List.append_nil] at read
  have start : readDocument (v.tokens false) =
      (readNode usualHandles true false deepest (2 * (v.tokens false).length + 2)
        (v.tokens false) >>= fun read => .ok (some read.1, read.2)) := by
    cases v with
    | text t => rfl
    | int n => rfl
    | list items => cases items <;> rfl
    | record fields => cases fields <;> rfl
  have document : readDocument (v.tokens false) = .ok (some v.tree, []) := by
    rw [start, read]
    rfl
  rw [ofTokens, checkNames_eq (isUnnamed_tokens fits false), document]
  rfl

end Written

end Custody.Yaml
