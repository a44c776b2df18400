/-!
# Blanks

A blank is a character of the Unicode property White_Space. Texts are trimmed, cut into words and
counted as empty by this rule, so a no-break space is a blank while a zero-width space is not.
-/

set_option autoImplicit false

namespace IndexAdvisor.Text

/-- A character with the Unicode property White_Space. -/
def isBlank (c : Char) : Bool :=
  let n := c.toNat
  (9 ≤ n && n ≤ 13) || n == 0x20 || n == 0x85 || n == 0xA0 || n == 0x1680 ||
    (0x2000 ≤ n && n ≤ 0x200A) || n == 0x2028 || n == 0x2029 || n == 0x202F || n == 0x205F ||
    n == 0x3000

/-- A text of blanks only, the empty one among them. -/
def isBlankText (cs : List Char) : Bool := cs.all isBlank

/-! ## Trimming -/

/-- Drops from the end all that `p` holds of. -/
def dropEndWhile (p : Char → Bool) : List Char → List Char
  | [] => []
  | c :: cs =>
    match dropEndWhile p cs with
    | [] => if p c then [] else [c]
    | d :: ds => c :: d :: ds

/-- Drops blanks at both ends. -/
def trim (cs : List Char) : List Char := dropEndWhile isBlank (cs.dropWhile isBlank)

/-! ## Words -/

/-- The maximal blank-free pieces of a text, in order. -/
def words (cs : List Char) : List (List Char) :=
  (cs.splitOnP isBlank).filter fun w => !w.isEmpty

end IndexAdvisor.Text
