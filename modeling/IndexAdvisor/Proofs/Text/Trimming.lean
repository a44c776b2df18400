import IndexAdvisor.Proofs.Sql.Bindings
import Mathlib.Data.List.TakeWhile

/-!
# Trimming

A trimmed text has no blank at either end, and is all that is left of a text without them. So it
stays as it is, and blanks at the end of a text make no difference to it.
-/

set_option autoImplicit false

namespace IndexAdvisor.Text

/-- What is trimmed is a part of the text. -/
theorem mem_of_mem_trim {cs : List Char} {c : Char} (h : c ∈ trim cs) : c ∈ cs :=
  (List.dropWhile_sublist isBlank).subset (Sql.mem_of_mem_dropEndWhile h)

theorem not_blank_of_head?_trim {cs : List Char} {c : Char} (h : c ∈ (trim cs).head?) :
    isBlank c = false := by
  have hhead : c ∈ (cs.dropWhile isBlank).head? := Sql.head?_dropEndWhile h
  have hahead := not_blankAhead_dropWhile cs
  rwa [blankAhead, Option.mem_def.mp hhead] at hahead

theorem not_blank_of_getLast?_trim {cs : List Char} {c : Char} (h : c ∈ (trim cs).getLast?) :
    isBlank c = false :=
  Sql.getLast?_dropEndWhile h

/-- Nothing is trimmed off a text without blanks at its ends. -/
theorem trim_of_ends {cs : List Char} (hhead : ∀ c ∈ cs.head?, isBlank c = false)
    (hlast : ∀ c ∈ cs.getLast?, isBlank c = false) : trim cs = cs := by
  have hfront : blankAhead cs = false := by
    rw [blankAhead]
    cases hcs : cs.head? with
    | none => rfl
    | some c => exact hhead c hcs
  rw [trim, dropWhile_of_not_blankAhead hfront, Sql.dropEndWhile_of_getLast? hlast]

theorem trim_trim (cs : List Char) : trim (trim cs) = trim cs :=
  trim_of_ends (fun _ => not_blank_of_head?_trim) fun _ => not_blank_of_getLast?_trim

theorem dropEndWhile_append_singleton {p : Char → Bool} {c : Char} (hc : p c = true)
    (cs : List Char) : dropEndWhile p (cs ++ [c]) = dropEndWhile p cs := by
  induction cs with
  | nil => exact if_pos hc
  | cons d cs ih => rw [List.cons_append, dropEndWhile_cons, dropEndWhile_cons, ih]

/-- A blank at the end is trimmed off. -/
theorem trim_append_blank {c : Char} (hc : isBlank c = true) (cs : List Char) :
    trim (cs ++ [c]) = trim cs := by
  rw [trim, trim, List.dropWhile_append]
  by_cases hblank : (cs.dropWhile isBlank).isEmpty = true
  · rw [if_pos hblank, List.dropWhile_cons_of_pos hc, List.isEmpty_iff.mp hblank]
    rfl
  · rw [if_neg hblank, dropEndWhile_append_singleton hc]

/-- Only a blank text is trimmed to nothing. -/
theorem trim_eq_nil_iff {cs : List Char} : trim cs = [] ↔ isBlankText cs = true := by
  constructor
  · intro h
    rw [isBlankText, List.all_eq_true]
    exact Sql.forall_of_dropEndWhile_dropWhile h
  · intro h
    rw [isBlankText, List.all_eq_true] at h
    rw [trim, List.dropWhile_eq_nil_iff.mpr h]
    rfl

end IndexAdvisor.Text
