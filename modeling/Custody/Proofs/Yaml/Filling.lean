import Custody.Proofs.Outcome
import Custody.Yaml.Content

/-!
# Filling graphs without marks

In a graph without merging, what each node holds can be told from the node itself (`Graph.Holds`): a
scalar that can be read, a list, or a mapping whose keys are different texts. From any node of such
a graph, filling succeeds, and what it finds out is right and closed: a node is known together with
all nodes inside it (`contentsFrom_of_direct`).

The invariant is that of a worklist (`Filling.Sound`). What is known of a node is right, or the node
is waiting to be filled. Coming to a node makes it known and makes no more work than one waiting
node for one unknown (`Filling.todo`), so that as many steps as there are nodes leave none waiting.
-/

namespace Custody.Yaml

open Outcome

/-- The places that the value of what a node holds goes on to. -/
def Content.inside : Content → List Place
  | .list items => items
  | .map entries => entries.map Prod.snd
  | _ => []

/-- The places of the keys and values of a mapping. -/
def placesOf (entries : List (Key × Place)) : List (Place × Place) :=
  entries.map fun entry => (entry.1.place, entry.2)

/-- The places of one entry and of the others. -/
theorem placesOf_cons (entry : Key × Place) (entries : List (Key × Place)) :
    placesOf (entry :: entries) = (entry.1.place, entry.2) :: placesOf entries := rfl

namespace Graph

/-- That a key of a mapping is the text of a scalar. -/
structure IsTextKey (g : Graph) (key : Key) (t : Text) : Prop where
  /-- It is that of its node. -/
  node : g[key.place]? = some ⟨.scalar .text, .scalar t⟩
  /-- It is the key's value. -/
  atom_eq : key.atom = .text t

/-- What a node holds, as the node itself tells. -/
inductive Holds [NumeralLimit] (g : Graph) (place : Place) : Content → Prop
  | atom {type : ScalarType} {t : Text} {a : Atom}
      (node : g[place]? = some ⟨.scalar type, .scalar t⟩) (read : Atom.read type t = .ok a) :
      Holds g place (.atom a)
  | list {items : List Place} (node : g[place]? = some ⟨.list, .sequence items⟩) :
      Holds g place (.list items)
  | map {entries : List (Key × Place)}
      (node : g[place]? = some ⟨.map, .mapping (placesOf entries)⟩)
      (texts : ∀ entry ∈ entries, ∃ t, g.IsTextKey entry.1 t)
      (distinct : (entries.map fun entry => entry.1.atom).Nodup) : Holds g place (.map entries)

/-- A scalar that can be read holds its atom. -/
theorem Holds.eq_atom [NumeralLimit] {g : Graph} {place : Place} {content : Content}
    {type : ScalarType} {t : Text} {a : Atom} (holds : g.Holds place content)
    (here : g[place]? = some ⟨.scalar type, .scalar t⟩)
    (read : Atom.read type t = .ok a) : content = .atom a := by
  cases holds with
  | atom node read' =>
    rw [here] at node
    cases node
    rw [Except.ok.inj (read.symm.trans read')]
  | list node => simp [here] at node
  | map node => simp [here] at node

/-- A sequence holds a list of its items. -/
theorem Holds.eq_list [NumeralLimit] {g : Graph} {place : Place} {content : Content}
    {items : List Place} (holds : g.Holds place content)
    (here : g[place]? = some ⟨.list, .sequence items⟩) :
    content = .list items := by
  cases holds with
  | atom node => simp [here] at node
  | list node =>
    rw [here] at node
    cases node
    rfl
  | map node => simp [here] at node

/-- A mapping holds its entries. -/
theorem Holds.eq_map [NumeralLimit] {g : Graph} {place : Place} {content : Content}
    {places : List (Place × Place)} (holds : g.Holds place content)
    (here : g[place]? = some ⟨.map, .mapping places⟩) :
    ∃ entries, content = .map entries ∧ placesOf entries = places ∧
      ∀ entry ∈ entries, ∃ t, g.IsTextKey entry.1 t := by
  cases holds with
  | atom node => simp [here] at node
  | list node => simp [here] at node
  | @map entries node texts =>
    rw [here] at node
    cases node
    exact ⟨entries, rfl, rfl, texts⟩

/-- A graph of which each node tells what it holds, and leads to no place outside. -/
def IsDirect [NumeralLimit] (g : Graph) : Prop :=
  ∀ place < g.size, ∃ content, g.Holds place content ∧ (∀ p ∈ content.inside, p < g.size)

variable {g : Graph} {place : Place} {node : Node}

/-- The type of a node that is there. -/
theorem typeAt_eq (here : g[place]? = some node) : g.typeAt place = node.type := by
  rw [typeAt, here]
  rfl

/-- The shape of a node that is there. -/
theorem shapeAt_eq (here : g[place]? = some node) : g.shapeAt place = node.shape := by
  rw [shapeAt, here]
  rfl

/-- The atom of a scalar's node is read from its text. -/
theorem atomAt_eq [NumeralLimit] {type : ScalarType} {t : Text}
    (here : g[place]? = some ⟨.scalar type, .scalar t⟩) :
    g.atomAt type place = Atom.read type t := by
  simp [atomAt, scalarText, shapeAt_eq here]

/-- Changing a node into itself changes nothing. -/
theorem modify_eq_self {f : Node → Node} (here : g[place]? = some node) (same : f node = node) :
    g.modify place f = g := by
  refine Array.ext_getElem? fun i => ?_
  rw [Array.getElem?_modify]
  split
  · next eq =>
    rw [← eq, here, Option.map_some, same]
  · rfl

/-- No entry of a mapping whose keys are texts is under the merge mark. -/
theorem splitMerge_eq_none {entries : List (Place × Place)}
    (texts : ∀ entry ∈ entries, g.typeAt entry.1 = .scalar .text) :
    g.splitMerge entries = none := by
  induction entries with
  | nil => rfl
  | cons entry entries ih =>
    rw [List.forall_mem_cons] at texts
    rw [splitMerge, texts.1, if_neg (by decide), ih texts.2]
    rfl

/-- No key of a mapping whose keys are texts has to be made text. -/
theorem foldl_keyAsText {entries : List (Key × Place)}
    (texts : ∀ entry ∈ entries, ∃ t, g.IsTextKey entry.1 t) :
    (placesOf entries).foldl
      (fun g (key, _) => g.keyAsText key) g = g := by
  induction entries with
  | nil => rfl
  | cons entry entries ih =>
    rw [List.forall_mem_cons] at texts
    obtain ⟨⟨t, isText⟩, texts⟩ := texts
    have same : g.keyAsText entry.1.place = g := modify_eq_self isText.node rfl
    simp only [placesOf_cons, List.foldl_cons, same, ih texts]

/-- Nothing is merged into a mapping whose keys are texts. -/
theorem merged_eq {entries : List (Key × Place)}
    (here : g[place]? = some ⟨.map, .mapping (placesOf entries)⟩)
    (texts : ∀ entry ∈ entries, ∃ t, g.IsTextKey entry.1 t) : g.merged place = .ok g := by
  have listed : g.entriesAt place = .ok (placesOf entries) := by
    rw [entriesAt, shapeAt_eq here]
  have none_merged : g.splitMerge (placesOf entries) = none := by
    refine splitMerge_eq_none fun places mem => ?_
    obtain ⟨entry, held, rfl⟩ := List.mem_map.1 mem
    obtain ⟨t, isText⟩ := texts entry held
    exact typeAt_eq isText.node
  have same : g.setShape place (.mapping ([] ++ placesOf entries)) = g :=
    modify_eq_self here rfl
  rw [merged, mergeInto, listed, ok_bind, none_merged]
  simp only [foldl_keyAsText texts, same]

end Graph

namespace Filling

variable {g : Graph} {filling : List Place} {s s' : Filling} {place : Place}

/-- What is left to do: places that are not known, and places that are waiting. -/
def todo (s : Filling) : Nat :=
  s.contents.countP Option.isNone + s.waiting.length

/-! ## What is known -/

/-- What is known after a place is made known. -/
theorem content?_put (content : Content) (inside : place < s.contents.size) (p : Place) :
    (s.put place content).content? p = if p = place then some content else s.content? p := by
  by_cases same : place = p
  · subst same
    simp [content?, put, inside]
  · simp [content?, put, same, Ne.symm same]

/-- A place that was made known. -/
theorem content?_put_self (content : Content) (inside : place < s.contents.size) :
    (s.put place content).content? place = some content := by
  rw [content?_put content inside, if_pos rfl]

/-- What is known after a collection is opened. -/
theorem content?_openWith (content : Content) (p : Place) :
    (s.openWith place content).content? p = (s.put place content).content? p := rfl

/-- A place that is known is inside. -/
theorem lt_of_known (known : (s.content? place).isSome) : place < s.contents.size := by
  by_contra outside
  simp [content?, Array.getElem?_eq_none (Nat.not_lt.1 outside)] at known

/-- What is not known after a place is made known. -/
theorem countP_put (content : Content) (inside : place < s.contents.size) :
    (s.put place content).contents.countP Option.isNone =
      s.contents.countP Option.isNone - if s.content? place = none then 1 else 0 := by
  have same : s.content? place = s.contents[place] := by
    simp [content?, Array.getElem?_eq_getElem inside]
  simp [put, Array.setIfInBounds, inside, Array.countP_set, same]

/-- Some place is not known as long as one is not. -/
theorem one_le_countP (inside : place < s.contents.size) (unknown : s.content? place = none) :
    1 ≤ s.contents.countP Option.isNone := by
  have same : s.contents[place] = none := by
    simpa [content?, Array.getElem?_eq_getElem inside] using unknown
  have := Array.boole_getElem_le_countP inside (p := Option.isNone)
  simpa [same] using this

/-- What is known stays known. -/
theorem isSome_put (content : Content) (inside : place < s.contents.size) {p : Place}
    (known : (s.content? p).isSome) : ((s.put place content).content? p).isSome := by
  rw [content?_put content inside]
  split
  · rfl
  · exact known

/-! ## Coming to a node -/

variable [NumeralLimit]

/-- What is known while some collections are being filled. -/
structure Sound (g : Graph) (filling : List Place) (s : Filling) : Prop where
  /-- Nothing was merged. -/
  graph_eq : s.graph = g
  /-- There is room for all nodes. -/
  size_eq : s.contents.size = g.size
  /-- What is known of a collection that is not open is right, and so are the nodes inside it. -/
  known : ∀ {place content}, s.content? place = some content →
    place ∈ filling ++ s.waiting ∨
      (g.Holds place content ∧ ∀ p ∈ content.inside, (s.content? p).isSome)
  /-- Only collections that were come to are open. -/
  opened : ∀ place ∈ filling ++ s.waiting, (s.content? place).isSome ∧
    ∀ type, g.typeAt place ≠ .scalar type

/-- That a step from a sound filling leads to another, keeps what is known and makes no more
work. -/
structure Goes (g : Graph) (filling : List Place) (s s' : Filling) : Prop where
  /-- It leads to a sound filling. -/
  sound : Sound g filling s'
  /-- What was known stays. -/
  kept : ∀ p, (s.content? p).isSome → s'.content? p = s.content? p
  /-- There is no more work. -/
  work : s'.todo ≤ s.todo

/-- No step. -/
theorem Goes.refl (sound : Sound g filling s) : Goes g filling s s :=
  ⟨sound, fun _ _ => rfl, Nat.le_refl _⟩

/-- One step after the other. -/
theorem Goes.trans {s'' : Filling} (first : Goes g filling s s') (second : Goes g filling s' s'') :
    Goes g filling s s'' where
  sound := second.sound
  kept p known := by
    have same := first.kept p known
    rw [second.kept p (same ▸ known), same]
  work := Nat.le_trans second.work first.work

/-- A scalar made known. -/
theorem Sound.put_atom (sound : Sound g filling s) (inside : place < s.contents.size)
    (unknown : s.content? place = none) {a : Atom} (holds : g.Holds place (.atom a)) :
    Goes g filling s (s.put place (.atom a)) where
  sound :=
    { graph_eq := sound.graph_eq
      size_eq := by simp [put, sound.size_eq]
      known := by
        intro p content known
        rw [content?_put _ inside] at known
        split at known
        · next same =>
          obtain rfl := Option.some.inj known
          exact .inr ⟨same ▸ holds, nofun⟩
        · exact (sound.known known).imp_right fun right =>
            ⟨right.1, fun q mem => isSome_put _ inside (right.2 q mem)⟩
      opened := fun p mem => ⟨isSome_put _ inside (sound.opened p mem).1, (sound.opened p mem).2⟩ }
  kept p known := by
    rw [content?_put _ inside, if_neg]
    rintro rfl
    simp [unknown] at known
  work := by
    rw [todo, countP_put _ inside]
    exact Nat.add_le_add_right (Nat.sub_le _ _) _

/-- A collection opened. -/
theorem Sound.openWith (sound : Sound g filling s) (inside : place < s.contents.size)
    (unknown : s.content? place = none) (content : Content)
    (collection : ∀ type, g.typeAt place ≠ .scalar type) :
    Goes g filling s (s.openWith place content) where
  sound :=
    { graph_eq := sound.graph_eq
      size_eq := by simp [Filling.openWith, put, sound.size_eq]
      known := by
        intro p content' (known : (s.put place content).content? p = some content')
        rw [content?_put _ inside] at known
        split at known
        · next same => exact .inl (by simp [Filling.openWith, same])
        · refine (sound.known known).imp (fun mem => ?_) fun right =>
            ⟨right.1, fun q mem => isSome_put _ inside (right.2 q mem)⟩
          rw [Filling.openWith, ← List.append_assoc]
          exact List.mem_append_left _ mem
      opened := by
        intro p mem
        rw [Filling.openWith, ← List.append_assoc, List.mem_append, List.mem_singleton] at mem
        obtain mem | rfl := mem
        · exact ⟨isSome_put _ inside (sound.opened p mem).1, (sound.opened p mem).2⟩
        · exact ⟨by rw [content?_openWith, content?_put_self _ inside]; rfl, collection⟩ }
  kept p known := by
    show (s.put place content).content? p = s.content? p
    rw [content?_put _ inside, if_neg]
    rintro rfl
    simp [unknown] at known
  work := by
    have := one_le_countP inside unknown
    have fewer := countP_put content inside
    rw [if_pos unknown] at fewer
    show (s.put place content).contents.countP Option.isNone + (s.waiting ++ [place]).length ≤ _
    rw [fewer, List.length_append, List.length_singleton, todo]
    omega

/-- Coming to a node makes it known. -/
theorem Sound.visit (sound : Sound g filling s) (direct : g.IsDirect) (inside : place < g.size) :
    ∃ s', s.visit place = .ok s' ∧ Goes g filling s s' ∧ (s'.content? place).isSome := by
  cases known : s.content? place with
  | some content => exact ⟨s, by rw [Filling.visit, known], .refl sound, by rw [known]; rfl⟩
  | none =>
    have room : place < s.contents.size := by rwa [sound.size_eq]
    obtain ⟨content, holds, -⟩ := direct place inside
    -- A scalar is known at once; a collection is opened with nothing in it, and waits.
    cases id holds with
    | @atom type t a node read =>
      have goes := sound.put_atom room known holds
      refine ⟨_, ?_, goes, by rw [content?_put_self _ room]; rfl⟩
      simp [Filling.visit, known, sound.graph_eq, Graph.typeAt_eq node, Graph.atomAt_eq node, read]
    | list node =>
      have goes := sound.openWith room known (.list []) (by simp [Graph.typeAt_eq node])
      refine ⟨_, ?_, goes, by rw [content?_openWith, content?_put_self _ room]; rfl⟩
      simp [Filling.visit, known, sound.graph_eq, Graph.typeAt_eq node]
    | map node _ _ =>
      have goes := sound.openWith room known (.map []) (by simp [Graph.typeAt_eq node])
      refine ⟨_, ?_, goes, by rw [content?_openWith, content?_put_self _ room]; rfl⟩
      simp [Filling.visit, known, sound.graph_eq, Graph.typeAt_eq node]

/-- Coming to some nodes one after another makes all of them known. -/
theorem Sound.foldlM_visit (direct : g.IsDirect) {places : List Place}
    (inside : ∀ p ∈ places, p < g.size) : ∀ {s : Filling}, Sound g filling s →
    ∃ s', places.foldlM Filling.visit s = .ok s' ∧ Goes g filling s s' ∧
      ∀ p ∈ places, (s'.content? p).isSome := by
  induction places with
  | nil => exact fun sound => ⟨_, rfl, .refl sound, nofun⟩
  | cons p places ih =>
    intro s sound
    rw [List.forall_mem_cons] at inside
    obtain ⟨s₁, visited, first, known⟩ := sound.visit direct inside.1
    obtain ⟨s₂, others, second, all⟩ := ih inside.2 first.sound
    refine ⟨s₂, ?_, first.trans second, ?_⟩
    · rw [List.foldlM_cons, visited, ok_bind, others]
    · rw [List.forall_mem_cons, second.kept p known]
      exact ⟨known, all⟩

/-! ## Entries of mappings -/

/-- Coming to a key gives the key. -/
theorem Sound.visitKey (sound : Sound g filling s) (direct : g.IsDirect) {key : Key} {t : Text}
    (isText : g.IsTextKey key t) :
    ∃ s', s.visitKey key.place = .ok (key, s') ∧ Goes g filling s s' := by
  obtain ⟨inside, -⟩ := Array.getElem?_eq_some_iff.1 isText.node
  obtain ⟨s', visited, goes, known⟩ := sound.visit direct inside
  obtain ⟨content, known⟩ := Option.isSome_iff_exists.1 known
  have scalar := Graph.typeAt_eq isText.node
  obtain opened | ⟨holds, -⟩ := goes.sound.known known
  · exact absurd scalar ((goes.sound.opened _ opened).2 _)
  · have same := holds.eq_atom isText.node (congrArg Except.ok isText.atom_eq.symm)
    refine ⟨s', ?_, goes⟩
    rw [Filling.visitKey, visited, ok_bind]
    simp only [known, same]

omit [NumeralLimit] in
/-- Keys of different texts are different. -/
theorem same_eq_false {a b : Key} {t u : Text} (isText : g.IsTextKey a t)
    (isText' : g.IsTextKey b u) (ne : a.atom ≠ b.atom) : a.same b = false := by
  have texts : t ≠ u := by
    rintro rfl
    exact ne (isText.atom_eq.trans isText'.atom_eq.symm)
  have places : a.place ≠ b.place := by
    intro same
    have nodes := isText.node
    rw [same, isText'.node] at nodes
    simp [texts.symm] at nodes
  simp [Key.same, places, isText.atom_eq, isText'.atom_eq, Atom.sameKey, Atom.asKey, texts]

omit [NumeralLimit] in
/-- A key that is different from all others comes last. -/
theorem insertEntry_eq {key : Key} {value : Place} {held : List (Key × Place)}
    (different : ∀ entry ∈ held, entry.1.same key = false) :
    insertEntry key value held = held ++ [(key, value)] := by
  induction held with
  | nil => rfl
  | cons entry held ih =>
    rw [List.forall_mem_cons] at different
    rw [insertEntry, if_neg (by rw [different.1]; exact Bool.false_ne_true), ih different.2]
    rfl

/-- Coming to the entries of a mapping, one after another, gives them and makes their values
known. -/
theorem Sound.foldlM_visitEntries (direct : g.IsDirect) {entries : List (Key × Place)}
    (inside : ∀ entry ∈ entries, entry.2 < g.size) : ∀ {s : Filling} (held : List (Key × Place)),
    Sound g filling s → (∀ entry ∈ held ++ entries, ∃ t, g.IsTextKey entry.1 t) →
    ((held ++ entries).map fun entry => entry.1.atom).Nodup →
    ∃ s', (placesOf entries).foldlM
        (fun (held, s) (key, value) => do
          let (key, s) ← s.visitKey key
          let s ← s.visit value
          .ok (insertEntry key value held, s)) (held, s) = .ok (held ++ entries, s') ∧
      Goes g filling s s' ∧ ∀ entry ∈ entries, (s'.content? entry.2).isSome := by
  -- A key is compared with all that are held already, so that these are part of the induction.
  induction entries with
  | nil => exact fun _ sound _ _ => ⟨_, by rw [List.append_nil]; rfl, .refl sound, nofun⟩
  | cons entry entries ih =>
    obtain ⟨key, value⟩ := entry
    intro s held sound texts distinct
    rw [List.forall_mem_cons] at inside
    obtain ⟨t, isText⟩ := texts (key, value) (by simp)
    obtain ⟨s₁, keyed, first⟩ := sound.visitKey direct isText
    obtain ⟨s₂, visited, second, known⟩ := first.sound.visit direct inside.1
    have inserted : insertEntry key value held = held ++ [(key, value)] := by
      refine insertEntry_eq fun other mem => ?_
      obtain ⟨u, isText'⟩ := texts other (List.mem_append_left _ mem)
      refine same_eq_false isText' isText fun same => ?_
      rw [List.map_append, List.nodup_append] at distinct
      exact distinct.2.2 _ (List.mem_map_of_mem mem) _
        (List.mem_map_of_mem (List.mem_cons_self ..)) same
    have whole : held ++ (key, value) :: entries = (held ++ [(key, value)]) ++ entries := by simp
    rw [whole] at texts distinct ⊢
    obtain ⟨s₃, others, third, all⟩ := ih inside.2 _ second.sound texts distinct
    refine ⟨s₃, ?_, (first.trans second).trans third, ?_⟩
    · simp only [placesOf_cons, List.foldlM_cons, keyed, visited, ok_bind, inserted, others]
    · rw [List.forall_mem_cons, third.kept value known]
      exact ⟨known, all⟩

/-- Coming to what is in a mapping gives its entries and makes their values known. -/
theorem Sound.visitEntries (sound : Sound g filling s) (direct : g.IsDirect)
    {entries : List (Key × Place)} (holds : g.Holds place (.map entries))
    (inside : ∀ entry ∈ entries, entry.2 < g.size) :
    ∃ s', s.visitEntries place = .ok (entries, s') ∧ Goes g filling s s' ∧
      ∀ entry ∈ entries, (s'.content? entry.2).isSome := by
  cases holds with
  | map node texts distinct =>
    obtain ⟨s', visited, goes, known⟩ :=
      Sound.foldlM_visitEntries direct inside [] sound texts distinct
    refine ⟨s', ?_, goes, known⟩
    have same : { s with graph := g } = s := by rw [← sound.graph_eq]
    have listed : g.entriesAt place = .ok (placesOf entries) := by
      rw [Graph.entriesAt, Graph.shapeAt_eq node]
    rw [Filling.visitEntries, sound.graph_eq, Graph.merged_eq node texts, ok_bind, listed, ok_bind,
      same]
    exact visited

/-! ## Filling -/

/-- That a step from one filling leads to a sound one in which nothing is being filled, with no more
work and with all that was known. -/
structure Closes (g : Graph) (s s' : Filling) : Prop where
  /-- It leads to a sound filling. -/
  sound : Sound g [] s'
  /-- There is no more work. -/
  work : s'.todo ≤ s.todo
  /-- What was known still is. -/
  known : ∀ p, (s.content? p).isSome → (s'.content? p).isSome

/-- Steps before do not matter. -/
theorem Goes.closes {s'' : Filling} (goes : Goes g filling s s') (closes : Closes g s' s'') :
    Closes g s s'' where
  sound := closes.sound
  work := Nat.le_trans closes.work goes.work
  known p known := closes.known p (by rwa [goes.kept p known])

/-- A collection filled. -/
theorem Sound.close (sound : Sound g [place] s) {content : Content} (holds : g.Holds place content)
    (within : ∀ p ∈ content.inside, (s.content? p).isSome) : Closes g s (s.put place content) := by
  have opened := (sound.opened place (List.mem_cons_self ..)).1
  have inside := lt_of_known opened
  have known (p : Place) : (s.content? p).isSome → ((s.put place content).content? p).isSome :=
    isSome_put content inside
  refine ⟨⟨sound.graph_eq, ?_, ?_, ?_⟩, ?_, known⟩
  · simp [put, sound.size_eq]
  · intro p content' here
    rw [content?_put _ inside] at here
    split at here
    · next same =>
      obtain rfl := Option.some.inj here
      exact .inr ⟨same ▸ holds, fun q mem => known q (within q mem)⟩
    · next other =>
      obtain mem | ⟨right, closed⟩ := sound.known here
      · exact .inl ((List.mem_cons.1 mem).resolve_left other)
      · exact .inr ⟨right, fun q mem => known q (closed q mem)⟩
  · intro p mem
    obtain ⟨some_content, collection⟩ := sound.opened p (List.mem_cons_of_mem _ mem)
    exact ⟨known p some_content, collection⟩
  · rw [todo, countP_put _ inside]
    exact Nat.add_le_add_right (Nat.sub_le _ _) _

/-- Filling a collection makes what it holds known. -/
theorem Sound.fill (sound : Sound g [place] s) (direct : g.IsDirect) :
    ∃ s', s.fill place = .ok s' ∧ Closes g s s' := by
  obtain ⟨opened, collection⟩ := sound.opened place (List.mem_cons_self ..)
  obtain ⟨content, holds, within⟩ := direct place (sound.size_eq ▸ lt_of_known opened)
  cases id holds with
  | atom node read => exact absurd (Graph.typeAt_eq node) (collection _)
  | @list items node =>
    obtain ⟨s₁, visited, goes, known⟩ : ∃ s₁, items.foldlM Filling.visit s = .ok s₁ ∧ _ :=
      sound.foldlM_visit direct within
    refine ⟨s₁.put place (.list items), ?_, goes.closes (goes.sound.close holds known)⟩
    simp only [Filling.fill, sound.graph_eq, Graph.typeAt_eq node, Graph.shapeAt_eq node, visited,
      ok_bind]
  | @map entries node texts distinct =>
    have within : ∀ entry ∈ entries, entry.2 < g.size := fun entry mem =>
      within entry.2 (List.mem_map_of_mem mem)
    obtain ⟨s₁, visited, goes, known⟩ := sound.visitEntries direct holds within
    have closes := goes.sound.close holds fun p mem => by
      obtain ⟨entry, held, rfl⟩ := List.mem_map.1 mem
      exact known entry held
    refine ⟨s₁.put place (.map entries), ?_, goes.closes closes⟩
    simp only [Filling.fill, sound.graph_eq, Graph.typeAt_eq node, Graph.shapeAt_eq node, visited,
      ok_bind]

/-- Filling ends with nothing waiting. -/
theorem Sound.fillAll (direct : g.IsDirect) {fuel : Nat} : ∀ {s : Filling}, Sound g [] s →
    s.todo ≤ fuel → ∃ s', s.fillAll fuel = .ok s' ∧ Closes g s s' ∧ s'.waiting = [] := by
  induction fuel with
  | zero =>
    intro s sound enough
    have none_waiting : s.waiting = [] := by
      rw [todo] at enough
      exact List.eq_nil_of_length_eq_zero (by omega)
    exact ⟨s, rfl, ⟨sound, Nat.le_refl _, fun _ => id⟩, none_waiting⟩
  | succ fuel ih =>
    intro s sound enough
    cases waiting : s.waiting with
    | nil =>
      exact ⟨s, by rw [Filling.fillAll, waiting], ⟨sound, Nat.le_refl _, fun _ => id⟩, waiting⟩
    | cons place rest =>
      -- What waited first is being filled now: it is still open, and one piece of work less.
      have placed : Sound g [place] { s with waiting := rest } := by
        refine ⟨sound.graph_eq, sound.size_eq, ?_, ?_⟩
        · intro p content known
          have := sound.known known
          rwa [waiting] at this
        · intro p mem
          refine sound.opened p ?_
          rwa [waiting]
      have less : { s with waiting := rest }.todo + 1 = s.todo := by
        rw [todo, todo, waiting, List.length_cons, Nat.add_assoc]
      obtain ⟨s₁, filled, closes⟩ := placed.fill direct
      have work := closes.work
      obtain ⟨s₂, ends, others, done⟩ := ih closes.sound (by omega)
      refine ⟨s₂, ?_, ⟨others.sound, ?_, fun p known => others.known p (closes.known p known)⟩,
        done⟩
      · rw [Filling.fillAll, waiting]
        simp only [filled, ok_bind, ends]
      · have := others.work
        omega

end Filling

/-- That what is known of the nodes of a graph is right, and known of all nodes inside. -/
structure Graph.Knows [NumeralLimit] (g : Graph) (contents : Array (Option Content)) : Prop where
  /-- There is room for all nodes. -/
  size_eq : contents.size = g.size
  /-- What is known is right. -/
  holds : ∀ {place : Place} {content : Content}, contents[place]?.join = some content →
    g.Holds place content
  /-- The nodes inside are known too. -/
  inside : ∀ {place : Place} {content : Content}, contents[place]?.join = some content →
    ∀ p ∈ content.inside, (contents[p]?.join).isSome

/-- From any node of a graph that tells what its nodes hold, filling succeeds. -/
theorem Graph.contentsFrom_of_direct [NumeralLimit] {g : Graph} (direct : IsDirect g) {root : Place}
    (inside : root < g.size) :
    ∃ contents, g.contentsFrom root = .ok contents ∧ Graph.Knows g contents ∧
      (contents[root]?.join).isSome := by
  have start : Filling.Sound g [] { graph := g, contents := Array.replicate g.size none } := by
    refine ⟨rfl, Array.size_replicate, ?_, nofun⟩
    intro place content known
    rw [Filling.content?, Array.getElem?_replicate] at known
    split at known <;> exact absurd known nofun
  obtain ⟨s₁, visited, goes, known⟩ := start.visit direct inside
  have enough : s₁.todo ≤ g.size := by
    simpa [Filling.todo, Array.countP_replicate] using goes.work
  obtain ⟨s₂, filled, closes, done⟩ := goes.sound.fillAll direct enough
  have right {place : Place} {content : Content} (here : s₂.contents[place]?.join = some content) :=
    closes.sound.known here
  rw [done] at right
  refine ⟨s₂.contents, ?_, ⟨closes.sound.size_eq, fun here => ?_, fun here => ?_⟩,
    closes.known root known⟩
  · rw [contentsFrom, visited, ok_bind, filled]
    rfl
  · exact ((right here).resolve_left List.not_mem_nil).1
  · exact ((right here).resolve_left List.not_mem_nil).2

end Custody.Yaml
