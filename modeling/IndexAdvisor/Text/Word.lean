import IndexAdvisor.Text.Range
import IndexAdvisor.Text.Alphabetic
import IndexAdvisor.Text.Numeric
import IndexAdvisor.Text.Mark

/-!
# Word characters

The Unicode word class decides where a keyword may begin and end; the letters and numbers decide
what is cut from the ends of a table name. ASCII is answered without a look at the tables.

The tables are those of version 17 of the standard. The word class is the one of version 16: what
version 17 has added is a letter or a number, but ends a word.
-/

set_option autoImplicit false

namespace IndexAdvisor.Text

/-- Letters, marks and digits that came with version 17 of the standard, in increasing order. -/
def addedRanges : List (Nat × Nat) := [
   (0x88F, 0x88F), (0xC5C, 0xC5C), (0xCDC, 0xCDC), (0x1ACF, 0x1ADD), (0x1AE0, 0x1AEB),
   (0xA7CE, 0xA7CF), (0xA7D2, 0xA7D2), (0xA7D4, 0xA7D4), (0xA7F1, 0xA7F1), (0x10940, 0x10959),
   (0x10EC5, 0x10EC7), (0x10EFA, 0x10EFB), (0x11B60, 0x11B67), (0x11DB0, 0x11DDB),
   (0x11DE0, 0x11DE9), (0x16EA0, 0x16EB8), (0x16EBB, 0x16ED3), (0x16FF2, 0x16FF6),
   (0x187F8, 0x187FF), (0x18D09, 0x18D1E), (0x18D80, 0x18DF2), (0x1E6C0, 0x1E6DE),
   (0x1E6E0, 0x1E6F5), (0x1E6FE, 0x1E6FF), (0x2B73A, 0x2B73F), (0x2CEA2, 0x2CEAD),
   (0x323B0, 0x33479)]

/-- A character of the Unicode word class: alphabetic, a mark, a decimal digit, connector
punctuation or a join control. -/
def isWordChar (c : Char) : Bool :=
  if c.toNat < 128 then c.isAlphanum || c == '_'
  else (inRanges alphabeticRanges c || inRanges decimalRanges c || inRanges markRanges c) &&
    !inRanges addedRanges c

/-- An alphabetic character or a number of any kind. -/
def isAlphanumeric (c : Char) : Bool :=
  if c.toNat < 128 then c.isAlphanum
  else inRanges alphabeticRanges c || inRanges decimalRanges c || inRanges otherNumberRanges c

/-- A character of a plain name: a lower-case ASCII letter, an ASCII digit or an underscore. -/
def isNameChar (c : Char) : Bool := c.isLower || c.isDigit || c == '_'

/-- The characters of plain names are ASCII. -/
theorem toNat_lt_of_isNameChar {c : Char} (h : isNameChar c = true) : c.toNat < 128 := by
  have hbelow {first last : Char} (hlast : last.toNat < 128)
      (hc : (decide (c.val ≥ first.val) && decide (c.val ≤ last.val)) = true) :
      c.toNat < 128 := by
    rw [Bool.and_eq_true, decide_eq_true_eq, decide_eq_true_eq] at hc
    exact Nat.lt_of_le_of_lt (UInt32.le_iff_toNat_le.mp hc.2) hlast
  rw [isNameChar, Bool.or_eq_true, Bool.or_eq_true, beq_iff_eq] at h
  rcases h with (h | h) | rfl
  · exact hbelow (by decide : 'z'.toNat < 128) h
  · exact hbelow (by decide : '9'.toNat < 128) h
  · decide

/-- Every character of a plain name belongs to a word. -/
theorem isWordChar_of_isNameChar {c : Char} (h : isNameChar c = true) : isWordChar c = true := by
  rw [isWordChar, if_pos (toNat_lt_of_isNameChar h)]
  show (((c.isUpper || c.isLower) || c.isDigit) || c == '_') = true
  rw [isNameChar, Bool.or_eq_true, Bool.or_eq_true] at h
  rw [Bool.or_eq_true, Bool.or_eq_true, Bool.or_eq_true]
  rcases h with (h | h) | h
  · exact Or.inl (Or.inl (Or.inr h))
  · exact Or.inl (Or.inr h)
  · exact Or.inr h

end IndexAdvisor.Text
