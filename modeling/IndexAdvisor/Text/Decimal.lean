/-!
# Decimal numbers

Natural numbers as ASCII digits.
-/

set_option autoImplicit false

namespace IndexAdvisor.Text

/-- The number that some digits write, if there is a digit and nothing else. -/
def natural? (cs : List Char) : Option Nat :=
  if !cs.isEmpty && cs.all Char.isDigit then some (Nat.ofDigitChars 10 cs 0) else none

/-- The number below `2 ^ bits` that a text writes; a plus sign may stand in front. -/
def unsigned? (bits : Nat) (cs : List Char) : Option Nat := do
  let n ← natural? (match cs with
    | '+' :: ds => ds
    | _ => cs)
  if n < Nat.pow 2 bits then some n else none

/-- The written form of a number reads back. -/
theorem natural?_toDigits (n : Nat) : natural? (Nat.toDigits 10 n) = some n := by
  have hne : Nat.toDigits 10 n ≠ [] := Nat.toDigits_ne_nil
  have hall : (Nat.toDigits 10 n).all Char.isDigit = true := by
    rw [List.all_eq_true]
    intro c hc
    exact Nat.isDigit_of_mem_toDigits (by omega) (by omega) hc
  simp only [natural?, hall, Bool.and_true, Bool.not_eq_true', List.isEmpty_eq_false_iff]
  rw [if_pos (by simp), Nat.ofDigitChars_toDigits (by omega) (by omega)]

end IndexAdvisor.Text
