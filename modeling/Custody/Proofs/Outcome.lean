import Mathlib.Data.List.Forall2

/-!
# Outcomes of chained readers

Readers and writers are chains of steps in `Except`. The lemmas here say when such a chain
succeeds and when it fails, one for each way of combining steps, so that proofs take a chain apart
without opening the monad.
-/

namespace Custody.Outcome

variable {ε ε' α β : Type}

/-- A step that succeeded hands its value on. -/
@[simp] theorem ok_bind (a : α) (f : α → Except ε β) : ((.ok a : Except ε α) >>= f) = f a := rfl

/-- A step that failed ends the chain. -/
@[simp] theorem error_bind (e : ε) (f : α → Except ε β) :
    ((.error e : Except ε α) >>= f) = .error e := rfl

/-- Changing the value of a step that succeeded. -/
@[simp] theorem map_ok (a : α) (f : α → β) : (.ok a : Except ε α).map f = .ok (f a) := rfl

/-- Changing the value of a step that failed does nothing. -/
@[simp] theorem map_error (e : ε) (f : α → β) : (.error e : Except ε α).map f = .error e := rfl

/-- Changing the fault of a step that succeeded does nothing. -/
@[simp] theorem mapError_ok (a : α) (f : ε → ε') : (.ok a : Except ε α).mapError f = .ok a := rfl

/-- Changing the fault of a step that failed. -/
@[simp] theorem mapError_error (e : ε) (f : ε → ε') :
    (.error e : Except ε α).mapError f = .error (f e) := rfl

/-- A chain succeeds if both of its parts do. -/
theorem bind_eq_ok {x : Except ε α} {f : α → Except ε β} {b : β} :
    (x >>= f) = .ok b ↔ ∃ a, x = .ok a ∧ f a = .ok b := by
  cases x with
  | error e => simp
  | ok a => simp

/-- A chain fails with the fault of the first part that fails. -/
theorem bind_eq_error {x : Except ε α} {f : α → Except ε β} {e : ε} :
    (x >>= f) = .error e ↔ x = .error e ∨ ∃ a, x = .ok a ∧ f a = .error e := by
  cases x with
  | error e' => simp
  | ok a => simp

/-- Changing a step's value keeps whether it succeeds. -/
theorem map_eq_ok {x : Except ε α} {f : α → β} {b : β} :
    x.map f = .ok b ↔ ∃ a, x = .ok a ∧ f a = b := by
  cases x with
  | error e => simp
  | ok a => simp

/-- Changing a step's value keeps its fault. -/
theorem map_eq_error {x : Except ε α} {f : α → β} {e : ε} :
    x.map f = .error e ↔ x = .error e := by
  cases x with
  | error e' => simp
  | ok a => simp

/-- Where the rest of a chain fails alike for every value, the chain's own values do not matter for
its fault. -/
theorem discard_bind {x : Except ε α} {f : α → Except ε β} {rest : Except ε Unit}
    (alike : ∀ a, (f a).map (fun _ => ()) = rest) :
    (x >>= f).map (fun _ => ()) = (x.map fun _ => ()) >>= fun _ => rest := by
  cases x with
  | error e => rfl
  | ok a => exact alike a

/-- Changing a step's fault keeps its value. -/
theorem mapError_eq_ok {x : Except ε α} {f : ε → ε'} {a : α} :
    x.mapError f = .ok a ↔ x = .ok a := by
  cases x with
  | error e => simp
  | ok b => simp

/-- Changing a step's fault keeps whether it fails. -/
theorem mapError_eq_error {x : Except ε α} {f : ε → ε'} {e' : ε'} :
    x.mapError f = .error e' ↔ ∃ e, x = .error e ∧ f e = e' := by
  cases x with
  | error e => simp
  | ok a => simp

/-- A step for each element of a list succeeds if it does for every element, and hands on their
values in order. -/
theorem mapM_eq_ok {f : α → Except ε β} {as : List α} {bs : List β} :
    as.mapM f = .ok bs ↔ List.Forall₂ (fun a b => f a = .ok b) as bs := by
  induction as generalizing bs with
  | nil =>
    rw [List.mapM_nil, List.forall₂_nil_left_iff]
    constructor
    · intro eq
      exact (Except.ok.inj eq).symm
    · rintro rfl
      rfl
  | cons a as ih =>
    rw [List.mapM_cons, bind_eq_ok, List.forall₂_cons_left_iff]
    simp only [bind_eq_ok, ih]
    constructor
    · rintro ⟨b, first, rest, others, eq⟩
      exact ⟨b, rest, first, others, (Except.ok.inj eq).symm⟩
    · rintro ⟨b, rest, first, others, rfl⟩
      exact ⟨b, first, rest, others, rfl⟩

/-- A step for each element of a list gives what a function does, if it does for each of them. -/
theorem mapM_eq_map {f : α → Except ε β} {g : α → β} {as : List α}
    (each : ∀ a ∈ as, f a = .ok (g a)) : as.mapM f = .ok (as.map g) := by
  rw [mapM_eq_ok, List.forall₂_map_right_iff, List.forall₂_same]
  exact each

/-- A step for each element of a list gives what is told by the elements of another list, if each
does. -/
theorem mapM_eq_map_of_zip {γ : Type} {f : α → Except ε β} {as : List α} {cs : List γ} {h : γ → β}
    (as_many : cs.length = as.length) (each : ∀ pair ∈ cs.zip as, f pair.2 = .ok (h pair.1)) :
    as.mapM f = .ok (cs.map h) := by
  refine mapM_eq_ok.2 (List.Forall₂.flip ?_)
  rw [List.forall₂_map_left_iff, List.forall₂_iff_zip]
  exact ⟨as_many, fun mem => each _ mem⟩

/-- A step for each element of a list succeeds exactly if it does for every element. -/
theorem exists_mapM_eq_ok_iff {f : α → Except ε β} {as : List α} :
    (∃ bs, as.mapM f = .ok bs) ↔ ∀ a ∈ as, ∃ b, f a = .ok b := by
  simp only [mapM_eq_ok]
  induction as with
  | nil => simp
  | cons a as ih =>
    rw [List.forall_mem_cons, ← ih]
    constructor
    · rintro ⟨bs, all⟩
      obtain ⟨b, rest, first, others, -⟩ := List.forall₂_cons_left_iff.1 all
      exact ⟨⟨b, first⟩, rest, others⟩
    · rintro ⟨⟨b, first⟩, rest, others⟩
      exact ⟨b :: rest, .cons first others⟩

/-- Where a step for each element of a list fails, it does so for one of the elements. -/
theorem exists_of_mapM_eq_error {f : α → Except ε β} {as : List α} {e : ε}
    (failed : as.mapM f = .error e) : ∃ a ∈ as, f a = .error e := by
  induction as with
  | nil => cases failed
  | cons a as ih =>
    rw [List.mapM_cons, bind_eq_error] at failed
    obtain first | ⟨b, -, failed⟩ := failed
    · exact ⟨a, List.mem_cons_self, first⟩
    · obtain later | ⟨bs, -, done⟩ := bind_eq_error.1 failed
      · obtain ⟨a', mem, fails⟩ := ih later
        exact ⟨a', List.mem_cons_of_mem a mem, fails⟩
      · cases done

/-- A step for each element of a list depends on what it does for these elements alone. -/
theorem mapM_congr {f g : α → Except ε β} {as : List α} (same : ∀ a ∈ as, f a = g a) :
    as.mapM f = as.mapM g := by
  induction as with
  | nil => rfl
  | cons a as ih =>
    obtain ⟨first, others⟩ := List.forall_mem_cons.1 same
    rw [List.mapM_cons, List.mapM_cons, first, ih others]

/-- A step for each element of a list fails as it does for the first element for which it fails,
whatever comes after that. -/
theorem mapM_eq_error_of_first {f : α → Except ε β} {before : List α} {a : α} {e : ε}
    (succeed : ∀ b ∈ before, ∃ c, f b = .ok c) (fails : f a = .error e) (later : List α) :
    (before ++ a :: later).mapM f = .error e := by
  obtain ⟨cs, done⟩ := exists_mapM_eq_ok_iff.2 succeed
  rw [List.mapM_append, done, ok_bind, List.mapM_cons, fails]
  rfl

/-- A step without a value that did not fail succeeded. -/
theorem eq_ok_of_isOk {x : Except ε Unit} (ok : x.isOk = true) : x = .ok () := by
  cases x with
  | error e => simp [Except.isOk, Except.toBool] at ok
  | ok _ => rfl

end Custody.Outcome
