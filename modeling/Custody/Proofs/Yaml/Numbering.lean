import Mathlib.Data.List.Nodup
import Custody.Proofs.Yaml.Filling
import Custody.Proofs.Yaml.Reading
import Custody.Yaml.Document

/-!
# Numbering the nodes of what was written

The tree of what was written is numbered into a graph that represents it (`ofTree_tree`), and the
value of such a graph is the value that was written (`Represents.value_eq`).

`Represents` says that the node at a place is that of what was written, with all that is inside at
later places. Numbering goes on from the nodes that are there already (`Grows`): it keeps them, and
each node more represents something that was written. A collection gets its place before what is in
it, and its shape only afterwards; since nothing inside comes before it, that changes none of the
others.
-/

namespace Custody.Yaml

open Outcome Custody.Yaml.Graph

namespace Written

variable [NumeralLimit]

omit [NumeralLimit] in
/-- The values of the items of a list are those of each. -/
theorem valuesOf_eq (items : List Written) : valuesOf items = items.map toValue := by
  induction items with
  | nil => rfl
  | cons item items ih => rw [valuesOf, ih, List.map_cons]

omit [NumeralLimit] in
/-- The entries of the fields of a record are those of each. -/
theorem entriesOf_eq (fields : List (String × Written)) :
    entriesOf fields = fields.map fun field => (.text field.1, field.2.toValue) := by
  induction fields with
  | nil => rfl
  | cons field fields ih => rw [entriesOf, ih, List.map_cons]

/-- Items are within the limit exactly if each is. -/
theorem exceededByItems?_eq_none {items : List Written} :
    exceededByItems? items = none ↔ ∀ item ∈ items, item.exceeded? = none := by
  induction items with
  | nil => simp [exceededByItems?]
  | cons item items ih => rw [exceededByItems?, Option.or_eq_none_iff, ih, List.forall_mem_cons]

/-- Fields are within the limit exactly if the value of each is. -/
theorem exceededByFields?_eq_none {fields : List (String × Written)} :
    exceededByFields? fields = none ↔ ∀ field ∈ fields, field.2.exceeded? = none := by
  induction fields with
  | nil => simp [exceededByFields?]
  | cons field fields ih => rw [exceededByFields?, Option.or_eq_none_iff, ih, List.forall_mem_cons]

/-- That the node at a place is that of what was written. Integers are within the limit. -/
inductive Represents (g : Graph) : Written → Place → Prop
  | text {place : Place} {s : Text} (node : g[place]? = some ⟨.scalar .text, .scalar s⟩) :
      Represents g (.text s) place
  | int {place : Place} {n : Int}
      (node : g[place]? = some ⟨.scalar .int, .scalar (.ofString (toString n))⟩)
      (admitted : NumeralLimit.Admits n) : Represents g (.int n) place
  | list {place : Place} {items : List Written} {places : List Place}
      (node : g[place]? = some ⟨.list, .sequence places⟩)
      (as_many : items.length = places.length) (later : ∀ p ∈ places, place < p)
      (each : ∀ pair ∈ items.zip places, Represents g pair.1 pair.2) :
      Represents g (.list items) place
  | record {place : Place} {fields : List (String × Written)} {entries : List (Place × Place)}
      (node : g[place]? = some ⟨.map, .mapping entries⟩)
      (as_many : fields.length = entries.length)
      (later : ∀ entry ∈ entries, place < entry.1 ∧ place < entry.2)
      (distinct : (fields.map Prod.fst).Nodup)
      (names : ∀ pair ∈ fields.zip entries,
        g[pair.2.1]? = some ⟨.scalar .text, .scalar (.ofString pair.1.1)⟩)
      (each : ∀ pair ∈ fields.zip entries, Represents g pair.1.2 pair.2.2) :
      Represents g (.record fields) place

variable {g g' : Graph} {v : Written} {place : Place}

/-- A node that represents something is there. -/
theorem Represents.lt_size (represents : Represents g v place) : place < g.size := by
  cases represents with
  | text node => exact (Array.getElem?_eq_some_iff.1 node).1
  | int node _ => exact (Array.getElem?_eq_some_iff.1 node).1
  | list node => exact (Array.getElem?_eq_some_iff.1 node).1
  | record node => exact (Array.getElem?_eq_some_iff.1 node).1

/-- What a node represents does not depend on the nodes before it. -/
theorem Represents.mono (represents : Represents g v place)
    (kept : ∀ p, place ≤ p → ∀ node, g[p]? = some node → g'[p]? = some node) :
    Represents g' v place := by
  induction represents with
  | text node => exact .text (kept _ (Nat.le_refl _) _ node)
  | int node admitted => exact .int (kept _ (Nat.le_refl _) _ node) admitted
  | @list place items places node as_many later each ih =>
    refine .list (kept _ (Nat.le_refl _) _ node) as_many later fun pair mem => ?_
    have after := later pair.2 (List.of_mem_zip mem).2
    exact ih pair mem fun p above => kept p (Nat.le_trans (Nat.le_of_lt after) above)
  | @record place fields entries node as_many later distinct names each ih =>
    refine .record (kept _ (Nat.le_refl _) _ node) as_many later distinct (fun pair mem => ?_)
      fun pair mem => ?_
    · have after := later pair.2 (List.of_mem_zip mem).2
      exact kept _ (Nat.le_of_lt after.1) _ (names pair mem)
    · have after := later pair.2 (List.of_mem_zip mem).2
      exact ih pair mem fun p above => kept p (Nat.le_trans (Nat.le_of_lt after.2) above)

/-! ## Values -/

omit [NumeralLimit] in
/-- Each element of the second of two lists of one length is in a pair. -/
theorem exists_mem_zip {α β : Type} {as : List α} {bs : List β} (as_many : as.length = bs.length)
    {b : β} (mem : b ∈ bs) : ∃ a, (a, b) ∈ as.zip bs := by
  rw [← List.map_snd_zip (Nat.le_of_eq as_many.symm), List.mem_map] at mem
  obtain ⟨⟨a, _⟩, mem, rfl⟩ := mem
  exact ⟨a, mem⟩

/-- The entries of a mapping that represents a record, with their keys. -/
def heldFor (fields : List (String × Written)) (entries : List (Place × Place)) :
    List (Key × Place) :=
  (fields.zip entries).map fun pair => (⟨pair.2.1, .text (.ofString pair.1.1)⟩, pair.2.2)

omit [NumeralLimit] in
/-- The places of the entries. -/
theorem placesOf_heldFor {fields : List (String × Written)} {entries : List (Place × Place)}
    (as_many : fields.length = entries.length) : placesOf (heldFor fields entries) = entries := by
  rw [placesOf, heldFor, List.map_map]
  exact List.map_snd_zip (Nat.le_of_eq as_many.symm)

omit [NumeralLimit] in
/-- The keys of the entries are the names of the fields. -/
theorem atoms_heldFor {fields : List (String × Written)} {entries : List (Place × Place)}
    (as_many : fields.length = entries.length) :
    (heldFor fields entries).map (fun entry => entry.1.atom) =
      (fields.map Prod.fst).map fun name => .text (.ofString name) := by
  conv_rhs => rw [← List.map_fst_zip (Nat.le_of_eq as_many)]
  simp only [heldFor, List.map_map, Function.comp_def]

/-- An integer within the limit is read from its digits. -/
theorem read_toString {n : Int} (admitted : NumeralLimit.Admits n) :
    Atom.read .int (.ofString (toString n)) = .ok (.int n) := by
  rw [Atom.read, readInt_toString admitted]
  rfl

/-- A node that represents something tells what it holds. -/
theorem Represents.holds (represents : Represents g v place) :
    ∃ content, g.Holds place content ∧ ∀ p ∈ content.inside, p < g.size := by
  cases represents with
  | text node => exact ⟨_, .atom node rfl, nofun⟩
  | @int _ n node admitted =>
    exact ⟨.atom (.int n), .atom node (read_toString admitted), nofun⟩
  | list node as_many later each =>
    refine ⟨_, .list node, fun p mem => ?_⟩
    obtain ⟨item, mem⟩ := exists_mem_zip as_many mem
    exact (each _ mem).lt_size
  | @record _ fields entries node as_many later distinct names each =>
    refine ⟨.map (heldFor fields entries), .map ?_ ?_ ?_, ?_⟩
    · rw [placesOf_heldFor as_many]
      exact node
    · intro entry mem
      obtain ⟨pair, held, rfl⟩ := List.mem_map.1 mem
      exact ⟨_, names pair held, rfl⟩
    · rw [atoms_heldFor as_many]
      have injective : Function.Injective fun name : String => Atom.text (.ofString name) :=
        fun a b same => Text.ofString_injective (Atom.text.inj same)
      exact List.Nodup.map injective distinct
    · intro p mem
      obtain ⟨entry, held, rfl⟩ := List.mem_map.1 mem
      obtain ⟨pair, zipped, rfl⟩ := List.mem_map.1 held
      exact (each pair zipped).lt_size

omit [NumeralLimit] in
/-- As much fuel as there are nodes from a place on is enough to go on from there. -/
theorem exists_fuel {node : Node} {fuel : Nat} (here : g[place]? = some node)
    (enough : g.size ≤ place + fuel) :
    ∃ more, fuel = more + 1 ∧ ∀ {p : Place}, place < p → g.size ≤ p + more := by
  obtain ⟨inside, -⟩ := Array.getElem?_eq_some_iff.1 here
  have some_fuel : 0 < fuel := by
    by_contra no_fuel
    exact Nat.not_lt.2 enough (by rwa [Nat.eq_zero_of_not_pos no_fuel])
  obtain ⟨more, rfl⟩ := Nat.exists_eq_add_one.2 some_fuel
  refine ⟨more, rfl, fun {p} after => Nat.le_trans enough ?_⟩
  rw [Nat.add_comm more, ← Nat.add_assoc]
  exact Nat.add_le_add_right after more

/-- The value of a node that represents something is what was written. -/
theorem Represents.valueAt_eq {contents : Array (Option Content)} (knows : g.Knows contents)
    (represents : Represents g v place) : ∀ {fuel : Nat}, (contents[place]?.join).isSome →
      g.size ≤ place + fuel → valueAt contents fuel place = .ok v.toValue := by
  induction represents with
  | text node =>
    intro fuel known enough
    obtain ⟨fuel, rfl, -⟩ := exists_fuel node enough
    obtain ⟨content, known⟩ := Option.isSome_iff_exists.1 known
    obtain rfl := (knows.holds known).eq_atom node rfl
    rw [valueAt, known]
    rfl
  | @int place n node admitted =>
    intro fuel known enough
    obtain ⟨fuel, rfl, -⟩ := exists_fuel node enough
    obtain ⟨content, known⟩ := Option.isSome_iff_exists.1 known
    obtain rfl := (knows.holds known).eq_atom node (read_toString admitted)
    rw [valueAt, known]
    rfl
  | @list place items places node as_many later each ih =>
    intro fuel known enough
    obtain ⟨fuel, rfl, further⟩ := exists_fuel node enough
    obtain ⟨content, known⟩ := Option.isSome_iff_exists.1 known
    obtain rfl := (knows.holds known).eq_list node
    -- The items stand behind the list, so that the fuel that is left is enough for each.
    have values : places.mapM (valueAt contents fuel) = .ok (items.map toValue) := by
      refine mapM_eq_map_of_zip as_many fun pair mem => ?_
      have inside := (List.of_mem_zip mem).2
      exact ih pair mem (knows.inside known _ inside) (further (later _ inside))
    simp only [valueAt, known, values, ok_bind, toValue, valuesOf_eq]
  | @record place fields entries node as_many later distinct names each ih =>
    intro fuel known enough
    obtain ⟨fuel, rfl, further⟩ := exists_fuel node enough
    obtain ⟨content, known⟩ := Option.isSome_iff_exists.1 known
    obtain ⟨held, rfl, rfl, texts⟩ := (knows.holds known).eq_map node
    -- The same with the values of the fields. The keys that the content holds are the names: each
    -- is a text, and it is at the place where its name was numbered.
    have values : held.mapM (fun entry => do
        let value ← valueAt contents fuel entry.2
        .ok (entry.1.atom.toValue, value)) =
        .ok (fields.map fun field => (.text field.1, field.2.toValue)) := by
      refine mapM_eq_map_of_zip (by simpa [placesOf] using as_many) fun pair mem => ?_
      obtain ⟨field, key, p⟩ := pair
      have inside := (List.of_mem_zip mem).2
      have zipped : (field, key.place, p) ∈ fields.zip (placesOf held) := by
        rw [placesOf, List.zip_map_right]
        exact List.mem_map_of_mem mem
      obtain ⟨t, isText⟩ := texts (key, p) inside
      have name := names _ zipped
      rw [isText.node] at name
      cases name
      have value := ih _ zipped (knows.inside known p (List.mem_map_of_mem inside))
        (further (later _ (List.mem_map_of_mem inside)).2)
      have atom_eq : key.atom = .text (.ofString field.1) := isText.atom_eq
      simp only [value, ok_bind, atom_eq]
      rfl
    simp only [valueAt, known, values, ok_bind, toValue, entriesOf_eq]

/-- The value of a graph whose nodes all represent something is what its root represents. -/
theorem Represents.value_eq (represents : Represents g v place)
    (all : ∀ p < g.size, ∃ w, Represents g w p) : g.value place = .ok v.toValue := by
  have direct : g.IsDirect := fun p inside => by
    obtain ⟨w, represents⟩ := all p inside
    exact represents.holds
  obtain ⟨contents, eq, knows, known⟩ := contentsFrom_of_direct direct represents.lt_size
  rw [Graph.value, eq, ok_bind]
  exact represents.valueAt_eq knows known (by rw [knows.size_eq]; exact Nat.le_add_left ..)

/-! ## Numbering -/

/-- That a graph goes on from another with nodes that represent something. -/
structure Grows (g g' : Graph) : Prop where
  /-- There are no fewer nodes. -/
  larger : g.size ≤ g'.size
  /-- The nodes that were there are kept. -/
  kept : ∀ p < g.size, g'[p]? = g[p]?
  /-- Each node more represents something. -/
  each : ∀ p, g.size ≤ p → p < g'.size → ∃ w, Represents g' w p

/-- A graph goes on from itself. -/
theorem Grows.refl (g : Graph) : Grows g g :=
  ⟨Nat.le_refl _, fun _ _ => rfl, fun _ above below => absurd below (Nat.not_lt.2 above)⟩

/-- What is represented stays so. -/
theorem Grows.represents (grows : Grows g g') (represents : Represents g v place) :
    Represents g' v place := by
  refine represents.mono fun p _ node here => ?_
  rw [grows.kept p (Array.getElem?_eq_some_iff.1 here).1, here]

/-- Going on twice. -/
theorem Grows.trans {g'' : Graph} (first : Grows g g') (second : Grows g' g'') : Grows g g'' where
  larger := Nat.le_trans first.larger second.larger
  kept p below := by rw [second.kept p (Nat.lt_of_lt_of_le below first.larger), first.kept p below]
  each p above below := by
    by_cases old : p < g'.size
    · obtain ⟨w, represents⟩ := first.each p above old
      exact ⟨w, second.represents represents⟩
    · exact second.each p (Nat.not_lt.1 old) below

/-- A node more. -/
theorem Grows.push {node : Node} (represents : Represents (g.push node) v g.size) :
    Grows g (g.push node) where
  larger := by simp
  kept p below := by rw [Array.getElem?_push_lt below, Array.getElem?_eq_getElem below]
  each p above below := by
    obtain rfl : p = g.size := by
      rw [Array.size_push] at below
      exact Nat.le_antisymm (Nat.le_of_lt_succ below) above
    exact ⟨v, represents⟩

omit [NumeralLimit] in
/-- The other nodes where one gets another shape. -/
theorem getElem?_setShape {p : Place} (other : p ≠ place) (shape : Shape) :
    (g.setShape place shape)[p]? = g[p]? := by
  rw [setShape, Array.getElem?_modify, if_neg (Ne.symm other)]

/-- The node that comes next, whatever it represents before it gets its shape. -/
theorem Grows.shaped {node : Node} (grows : Grows (g.push node) g') (shape : Shape) :
    (g'.setShape g.size shape)[g.size]? = some { node with shape } := by
  have here : g'[g.size]? = some node := by
    rw [grows.kept g.size (by simp), Array.getElem?_push_size]
  rw [setShape, Array.getElem?_modify, if_pos rfl, here]
  rfl

/-- What is represented inside of a collection stays so when the collection gets its shape. -/
theorem Represents.setShape {p : Place} (represents : Represents g v p) (after : place < p)
    (shape : Shape) : Represents (g.setShape place shape) v p := by
  refine represents.mono fun q above node here => ?_
  have other : q ≠ place := Nat.ne_of_gt (Nat.lt_of_lt_of_le after above)
  rw [getElem?_setShape other, here]

/-- A collection is numbered that gets its shape after what is inside of it. -/
theorem Grows.finish {node : Node} {shape : Shape} (grows : Grows (g.push node) g')
    (represents : Represents (g'.setShape g.size shape) v g.size) :
    Grows g (g'.setShape g.size shape) := by
  have larger := grows.larger
  rw [Array.size_push] at larger
  have size_eq : (g'.setShape g.size shape).size = g'.size := Array.size_modify
  refine ⟨by rw [size_eq]; exact Nat.le_of_succ_le larger, fun p below => ?_,
    fun p above below => ?_⟩
  -- What was there is left of the collection's place, and what is inside is right of it.
  · rw [getElem?_setShape (Nat.ne_of_lt below),
      grows.kept p (by rw [Array.size_push]; exact Nat.lt_succ_of_lt below),
      Array.getElem?_push_lt below, Array.getElem?_eq_getElem below]
  · obtain rfl | after := Nat.eq_or_lt_of_le above
    · exact ⟨v, represents⟩
    · rw [size_eq] at below
      obtain ⟨w, inner⟩ := grows.each p (by rwa [Array.size_push]) below
      exact ⟨w, inner.setShape after shape⟩

/-- That the tree of what was written is numbered. -/
def Numbers (v : Written) : Prop :=
  ∀ g : Graph, ∃ g', Numbering.addTree ⟨g, []⟩ v.tree = .ok (g.size, ⟨g', []⟩) ∧ Grows g g' ∧
    Represents g' v g.size

omit [NumeralLimit] in
/-- A scalar is numbered. -/
theorem addTree_scalar {t : Text} {plain : Bool} {type : ScalarType}
    (type_eq : NodeType.ofScalar none t plain = .scalar type) (g : Graph) :
    Numbering.addTree ⟨g, []⟩ (.scalar {} t plain) =
      .ok (g.size, ⟨g.push ⟨.scalar type, .scalar t⟩, []⟩) := by
  rw [Numbering.addTree, type_eq]
  rfl

omit [NumeralLimit] in
/-- A plain scalar counts as what its spelling does. -/
theorem ofScalar_plain (cs : List Char) :
    NodeType.ofScalar none (.ofChars cs) true = .ofPlain (PlainType.of cs) := by
  simp [NodeType.ofScalar, NodeType.of, NodeType.ofText]

omit [NumeralLimit] in
/-- A text counts as a text, however it was written. -/
theorem ofScalar_text (t : Text) : NodeType.ofScalar none t (isPlainText t) = .scalar .text := by
  cases plain : isPlainText t with
  | false => rfl
  | true =>
    rw [isPlainText, Option.any_eq_true] at plain
    obtain ⟨cs, chars, plain⟩ := plain
    obtain rfl := Text.eq_ofChars_of_chars? (Option.filter_eq_some_iff.1 chars).1
    have type_eq : PlainType.of cs = .text := by
      simp only [writesPlain, Bool.and_eq_true, beq_iff_eq] at plain
      exact plain.1.1.1.1.1
    rw [ofScalar_plain, type_eq]
    rfl

omit [NumeralLimit] in
/-- An integer counts as one. -/
theorem ofScalar_int (n : Int) :
    NodeType.ofScalar none (.ofString (toString n)) true = .scalar .int := by
  rw [Text.ofString, ofScalar_plain, of_toString]
  rfl

omit [NumeralLimit] in
/-- A name of a field counts as a text. -/
theorem ofScalar_name {name : String} (isName : IsFieldName name.toList) :
    NodeType.ofScalar none (.ofString name) true = .scalar .text := by
  rw [Text.ofString, ofScalar_plain, isName.type_eq]
  rfl

/-- The items of a list are numbered, one after another, if each is. -/
theorem addItems_eq {items : List Written} (each : ∀ item ∈ items, Numbers item) :
    ∀ g : Graph, ∃ g' places,
      Numbering.addItems ⟨g, []⟩ (itemTrees items) = .ok (places, ⟨g', []⟩) ∧ Grows g g' ∧
      items.length = places.length ∧ (∀ p ∈ places, g.size ≤ p) ∧
      ∀ pair ∈ items.zip places, Represents g' pair.1 pair.2 := by
  induction items with
  | nil => exact fun g => ⟨g, [], rfl, .refl g, rfl, nofun, nofun⟩
  | cons item items ih =>
    intro g
    rw [List.forall_mem_cons] at each
    obtain ⟨g₁, numbered, first, represents⟩ := each.1 g
    obtain ⟨g₂, places, others, second, as_many, above, represent⟩ := ih each.2 g₁
    refine ⟨g₂, g.size :: places, ?_, first.trans second, congrArg Nat.succ as_many, ?_, ?_⟩
    · simp only [itemTrees, Numbering.addItems, numbered, ok_bind, others]
    · rw [List.forall_mem_cons]
      exact ⟨Nat.le_refl _, fun p mem => Nat.le_trans first.larger (above p mem)⟩
    · rw [List.zip_cons_cons, List.forall_mem_cons]
      exact ⟨second.represents represents, represent⟩

/-- The names and values of fields are numbered, one after another, if each value is. -/
theorem addEntries_eq {fields : List (String × Written)}
    (isName : ∀ field ∈ fields, IsFieldName field.1.toList)
    (each : ∀ field ∈ fields, Numbers field.2) :
    ∀ g : Graph, ∃ g' entries,
      Numbering.addEntries ⟨g, []⟩ (entryTrees fields) = .ok (entries, ⟨g', []⟩) ∧ Grows g g' ∧
      fields.length = entries.length ∧ (∀ e ∈ entries, g.size ≤ e.1 ∧ g.size ≤ e.2) ∧
      (∀ pair ∈ fields.zip entries,
        g'[pair.2.1]? = some ⟨.scalar .text, .scalar (.ofString pair.1.1)⟩) ∧
      ∀ pair ∈ fields.zip entries, Represents g' pair.1.2 pair.2.2 := by
  induction fields with
  | nil => exact fun g => ⟨g, [], rfl, .refl g, rfl, nofun, nofun, nofun⟩
  | cons field fields ih =>
    intro g
    rw [List.forall_mem_cons] at each isName
    obtain ⟨name, value⟩ := field
    -- The name gets the next place and the value the one after it.
    have named := addTree_scalar (ofScalar_name isName.1) g
    have key : Represents (g.push ⟨.scalar .text, .scalar (.ofString name)⟩)
        (.text (.ofString name)) g.size := .text Array.getElem?_push_size
    obtain ⟨g₁, numbered, first, represents⟩ :=
      each.1 (g.push ⟨.scalar .text, .scalar (.ofString name)⟩)
    obtain ⟨g₂, entries, others, second, as_many, above, names, represent⟩ := ih isName.2 each.2 g₁
    have grows := (Grows.push key).trans (first.trans second)
    have after : g.size ≤ g₁.size := ((Grows.push key).trans first).larger
    refine ⟨g₂, (g.size, g.size + 1) :: entries, ?_, grows, congrArg Nat.succ as_many, ?_, ?_, ?_⟩
    · simp only [entryTrees, Numbering.addEntries, named, ok_bind, numbered, others,
        Array.size_push]
    · rw [List.forall_mem_cons]
      exact ⟨⟨Nat.le_refl _, Nat.le_succ _⟩, fun e mem =>
        ⟨Nat.le_trans after (above e mem).1, Nat.le_trans after (above e mem).2⟩⟩
    · rw [List.zip_cons_cons, List.forall_mem_cons]
      refine ⟨?_, names⟩
      rw [(first.trans second).kept g.size (by simp), Array.getElem?_push_size]
    · rw [List.zip_cons_cons, List.forall_mem_cons]
      rw [Array.size_push] at represents
      exact ⟨second.represents represents, represent⟩

/-- The tree of what can be written within the limit is numbered. -/
theorem numbers_of_fits {levels : Nat} (fits : Fits levels v) (within : v.exceeded? = none) :
    Numbers v := by
  -- A scalar is one node more at the end of the graph.
  induction fits with
  | text t =>
    intro g
    have represents : Represents (g.push ⟨.scalar .text, .scalar t⟩) (.text t) g.size :=
      .text Array.getElem?_push_size
    exact ⟨_, addTree_scalar (ofScalar_text t) g, .push represents, represents⟩
  | int n =>
    intro g
    rw [exceeded?] at within
    have represents : Represents (g.push ⟨.scalar .int, .scalar (.ofString (toString n))⟩) (.int n)
        g.size := .int Array.getElem?_push_size within
    exact ⟨_, addTree_scalar (ofScalar_int n) g, .push represents, represents⟩
  | @list levels items fit each =>
    intro g
    rw [exceeded?, exceededByItems?_eq_none] at within
    -- The collection is there while its items are numbered, and has its shape afterwards.
    obtain ⟨g₁, places, numbered, grows, as_many, above, represent⟩ :=
      addItems_eq (fun item mem => each item mem (within item mem)) (g.push ⟨.list, .sequence []⟩)
    rw [Array.size_push] at above
    have represents : Represents (g₁.setShape g.size (.sequence places)) (.list items) g.size :=
      .list (grows.shaped _) as_many above fun pair mem =>
        (represent pair mem).setShape (above _ (List.of_mem_zip mem).2) _
    refine ⟨_, ?_, grows.finish represents, represents⟩
    -- Numbering the collection is numbering what is in it and finishing it.
    have start : Numbering.addTree ⟨g, []⟩ (tree (.list items)) =
        (Numbering.addItems ⟨g.push ⟨.list, .sequence []⟩, []⟩ (itemTrees items) >>= fun added =>
          .ok (g.size, added.2.finish g.size (.sequence added.1))) := by
      rw [tree, Numbering.addTree]
      rfl
    rw [start, numbered]
    rfl
  | @record levels fields names distinct fit each =>
    intro g
    rw [exceeded?, exceededByFields?_eq_none] at within
    -- The same with a record: names and values are numbered behind it.
    obtain ⟨g₁, entries, numbered, grows, as_many, above, named, represent⟩ :=
      addEntries_eq names (fun field mem => each field mem (within field mem))
        (g.push ⟨.map, .mapping []⟩)
    rw [Array.size_push] at above
    have represents : Represents (g₁.setShape g.size (.mapping entries)) (.record fields) g.size :=
      .record (grows.shaped _) as_many above distinct (fun pair mem => by
        have after := (above _ (List.of_mem_zip mem).2).1
        rw [getElem?_setShape (Nat.ne_of_gt after), named pair mem]) fun pair mem =>
        (represent pair mem).setShape (above _ (List.of_mem_zip mem).2).2 _
    refine ⟨_, ?_, grows.finish represents, represents⟩
    -- Numbering the record is numbering these and finishing it.
    have start : Numbering.addTree ⟨g, []⟩ (tree (.record fields)) =
        (Numbering.addEntries ⟨g.push ⟨.map, .mapping []⟩, []⟩ (entryTrees fields) >>= fun added =>
          .ok (g.size, added.2.finish g.size (.mapping added.1))) := by
      rw [tree, Numbering.addTree]
      rfl
    rw [start, numbered]
    rfl

/-- The graph of the tree of what was written represents it, and so do all of its nodes. -/
theorem ofTree_tree {levels : Nat} (fits : Fits levels v) (within : v.exceeded? = none) : ∃ root g,
    Graph.ofTree v.tree = .ok (root, g) ∧ Represents g v root ∧
      ∀ p < g.size, ∃ w, Represents g w p := by
  obtain ⟨g, numbered, grows, represents⟩ := numbers_of_fits fits within #[]
  refine ⟨0, g, ?_, represents, fun p below => grows.each p (Nat.zero_le p) below⟩
  have start : Graph.ofTree v.tree = (Numbering.addTree ⟨#[], []⟩ v.tree >>= fun added =>
      .ok (added.1, added.2.graph)) := rfl
  rw [start, numbered]
  rfl

/-- A document is written exactly if all its integers are within the limit. -/
theorem dump_eq_ok {fields : List (String × Written)} {text : List Char} :
    dump fields = .ok text ↔ (record fields).exceeded? = none ∧ document fields = text := by
  rw [dump, exceeded?]
  cases exceededByFields? fields with
  | none => simp
  | some most => simp

end Written

/-! ## Documents -/

/-- A document that was written is read as the value that was written. -/
theorem load_dump [NumeralLimit] {levels : Nat} {fields : List (String × Written)}
    {text : List Char} (fits : Written.Fits (levels + 1) (.record fields))
    (room : 2 * levels + 3 ≤ lineWidth) (dumped : Written.dump fields = .ok text) :
    load text = .ok (Written.record fields).toValue := by
  have shallow : levels + 1 < Tree.deepest := by
    rw [lineWidth] at room
    rw [Tree.deepest]
    omega
  obtain ⟨within, rfl⟩ := Written.dump_eq_ok.1 dumped
  obtain ⟨root, g, numbered, represents, all⟩ := Written.ofTree_tree fits within
  rw [load, Written.scan_document fits room, Written.ofTokens_tokens fits shallow]
  simp only [ok_bind, numbered, represents.value_eq all]

end Custody.Yaml
