/-!
# Sets of names

A set of names is the list of its members in code point order, each once, so that two sets with
the same members are equal (`NameSet.ext`). Sets of names are what evaluators answer, what
approvers form, and what messages list.
-/

namespace Custody

/-- A name put into an ordered list of names, unless it is there. -/
def insertName (name : String) : List String → List String
  | [] => [name]
  | head :: tail =>
    if name < head then name :: head :: tail
    else if name = head then head :: tail
    else head :: insertName name tail

/-- A list of names in code point order, with repeated names kept. -/
def sortNames (names : List String) : List String :=
  names.mergeSort fun a b => decide (a ≤ b)

/-- A put-in name is a member, and so are those that were there. -/
theorem mem_insertName {a name : String} {names : List String} :
    a ∈ insertName name names ↔ a = name ∨ a ∈ names := by
  induction names with
  | nil => simp [insertName]
  | cons head tail ih =>
    simp only [insertName]
    split
    · simp
    · split
      · next h => subst h; simp
      · simp only [List.mem_cons, ih]
        constructor
        · rintro (h | h | h) <;> simp [h]
        · rintro (h | h | h) <;> simp [h]

/-- Putting a name into an ordered list keeps it ordered. -/
theorem pairwise_insertName {name : String} {names : List String}
    (h : names.Pairwise (· < ·)) : (insertName name names).Pairwise (· < ·) := by
  induction names with
  | nil => simp [insertName]
  | cons head tail ih =>
    obtain ⟨first, rest⟩ := List.pairwise_cons.1 h
    simp only [insertName]
    split
    · next lt =>
      refine List.pairwise_cons.2 ⟨fun a ha => ?_, h⟩
      rcases List.mem_cons.1 ha with rfl | ha
      · exact lt
      · exact String.lt_trans lt (first a ha)
    · split
      · exact h
      · next notLt ne =>
        refine List.pairwise_cons.2 ⟨fun a ha => ?_, ih rest⟩
        rcases mem_insertName.1 ha with rfl | ha
        · exact Std.lt_of_le_of_ne (String.not_lt.1 notLt) (Ne.symm ne)
        · exact first a ha

/-- A finite set of names. -/
structure NameSet where
  /-- The members in code point order. -/
  toList : List String
  /-- The members are in strictly increasing order. -/
  ordered : toList.Pairwise (· < ·)
deriving DecidableEq

namespace NameSet

/-- The set of the names in a list. -/
def ofList (names : List String) : NameSet where
  toList := names.foldr insertName []
  ordered := by
    induction names with
    | nil => exact List.Pairwise.nil
    | cons _ _ ih => exact pairwise_insertName ih

instance : Membership String NameSet where
  mem s name := name ∈ s.toList

instance (name : String) (s : NameSet) : Decidable (name ∈ s) :=
  inferInstanceAs (Decidable (name ∈ s.toList))

/-- Membership is membership in the list of members. -/
theorem mem_def {name : String} {s : NameSet} : name ∈ s ↔ name ∈ s.toList := Iff.rfl

/-- The set of a list has the list's members. -/
@[simp] theorem mem_ofList {name : String} {names : List String} :
    name ∈ ofList names ↔ name ∈ names := by
  rw [mem_def]
  induction names with
  | nil => simp [ofList]
  | cons head tail ih => simp_all [ofList, mem_insertName]

/-- The members of one set that are not in another. -/
def diff (s t : NameSet) : NameSet where
  toList := s.toList.filter (· ∉ t)
  ordered := s.ordered.filter _

/-- The difference has the members of the first set that the second lacks. -/
@[simp] theorem mem_diff {name : String} {s t : NameSet} :
    name ∈ s.diff t ↔ name ∈ s ∧ name ∉ t := by
  simp [mem_def, diff]

/-- Whether a set has no members. -/
def isEmpty (s : NameSet) : Bool :=
  s.toList.isEmpty

/-- Two sets with the same members are equal. -/
@[ext] theorem ext {s t : NameSet} (h : ∀ name, name ∈ s ↔ name ∈ t) : s = t := by
  obtain ⟨xs, hxs⟩ := s
  obtain ⟨ys, hys⟩ := t
  congr
  have sameMembers : ∀ name, name ∈ xs ↔ name ∈ ys := h
  clear h
  induction xs generalizing ys with
  | nil =>
    cases ys with
    | nil => rfl
    | cons y ys => simpa using (sameMembers y).2 (by simp)
  | cons x xs ih =>
    cases ys with
    | nil => simpa using (sameMembers x).1 (by simp)
    | cons y ys =>
      obtain ⟨hx, tailX⟩ := List.pairwise_cons.1 hxs
      obtain ⟨hy, tailY⟩ := List.pairwise_cons.1 hys
      have notBefore : ∀ {a : String} {l : List String}, (∀ b ∈ l, a < b) → a ∉ l :=
        fun h mem => String.lt_irrefl _ (h _ mem)
      have headEq : x = y := by
        rcases List.mem_cons.1 ((sameMembers x).1 (by simp)) with h | hxy
        · exact h
        · rcases List.mem_cons.1 ((sameMembers y).2 (by simp)) with h | hyx
          · exact h.symm
          · exact absurd (String.lt_trans (hy x hxy) (hx y hyx)) (String.lt_irrefl _)
      subst headEq
      have tailEq : xs = ys := ih tailX ys tailY fun name => by
        constructor
        · intro mem
          rcases List.mem_cons.1 ((sameMembers name).1 (List.mem_cons_of_mem _ mem)) with rfl | h
          · exact absurd mem (notBefore hx)
          · exact h
        · intro mem
          rcases List.mem_cons.1 ((sameMembers name).2 (List.mem_cons_of_mem _ mem)) with rfl | h
          · exact absurd mem (notBefore hy)
          · exact h
      rw [tailEq]

end NameSet

end Custody
