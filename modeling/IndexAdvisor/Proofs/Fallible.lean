/-!
# Chains of operations that may fail

A chain succeeds if each of its operations does, one after the other. An operation on each item of
a list succeeds if it does on all of them, and otherwise fails as it does on the first that it fails
on.
-/

set_option autoImplicit false

namespace IndexAdvisor

variable {ε α β : Type}

theorem bind_eq_ok_iff {x : Except ε α} {f : α → Except ε β} {b : β} :
    (x >>= f) = .ok b ↔ ∃ a, x = .ok a ∧ f a = .ok b := by
  cases x with
  | error fault =>
      constructor
      · intro h
        cases h
      · rintro ⟨a, h, -⟩
        cases h
  | ok a =>
      constructor
      · intro h
        exact ⟨a, rfl, h⟩
      · rintro ⟨a, h, hf⟩
        cases h
        exact hf

theorem map_eq_ok_iff {x : Except ε α} {f : α → β} {b : β} :
    x.map f = .ok b ↔ ∃ a, x = .ok a ∧ f a = b := by
  cases x with
  | error fault => simp [Except.map]
  | ok a => simp [Except.map]

/-- How an operation failed, if it did. -/
def fault? : Except ε α → Option ε
  | .ok _ => none
  | .error fault => some fault

theorem fault?_map (x : Except ε α) (f : α → β) : fault? (x.map f) = fault? x := by
  cases x <;> rfl

/-- The first item that an operation fails on tells how it fails. Without such an item it gives
what it gives for each. -/
theorem mapM_eq_elim (f : α → Except ε β) (xs : List α) :
    xs.mapM f = (xs.findSome? fun x => fault? (f x)).elim
      (.ok (xs.filterMap fun x => (f x).toOption)) .error := by
  induction xs with
  | nil => rfl
  | cons x xs ih =>
      rw [List.mapM_cons, List.findSome?_cons, List.filterMap_cons, ih]
      generalize (xs.findSome? fun x => fault? (f x)) = first
      cases f x with
      | error fault => rfl
      | ok b => cases first <;> rfl

end IndexAdvisor
