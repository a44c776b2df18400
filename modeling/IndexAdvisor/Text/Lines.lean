/-!
# Lines

A line ends at a line feed or with the text; a carriage return right before the line feed belongs
to the line's end. The same rule serves characters and octets.
-/

set_option autoImplicit false

namespace IndexAdvisor.Text

variable {α : Type} [DecidableEq α]

/-- Drops each `ret` that stands right before a `feed`. -/
def dropReturns (ret feed : α) : List α → List α
  | [] => []
  | [c] => [c]
  | c :: d :: cs =>
    if c = ret ∧ d = feed then dropReturns ret feed (d :: cs)
    else c :: dropReturns ret feed (d :: cs)

/-- The pieces before each `feed`, and the rest behind the last one unless it is empty. -/
def splitLines (feed : α) : List α → List (List α)
  | [] => []
  | c :: cs =>
    if c = feed then [] :: splitLines feed cs
    else
      match splitLines feed cs with
      | [] => [[c]]
      | l :: ls => (c :: l) :: ls

/-- The lines of a text. -/
def lines (cs : List Char) : List (List Char) := splitLines '\n' (dropReturns '\r' '\n' cs)

/-- The lines of a text given as octets. -/
def byteLines (bs : List UInt8) : List (List UInt8) := splitLines 10 (dropReturns 13 10 bs)

end IndexAdvisor.Text
