import IndexAdvisor.Text.Range
import IndexAdvisor.Text.Unprintable

/-!
# Texts shown between quotes

A text inside a message stands between quotes. Quotes and backslashes in it stand behind a
backslash, four characters have a letter of their own, and what is not printable is shown by its
number.
-/

set_option autoImplicit false

namespace IndexAdvisor.Text

/-- The character is shown as it is. -/
def isPrintable (c : Char) : Bool :=
  decide (0x20 ≤ c.toNat) && c.toNat != 0x7F && !inRanges unprintableRanges c

/-- How a character is shown between quotes. -/
def showChar (c : Char) : List Char :=
  if c = '"' then ['\\', '"']
  else if c = '\\' then ['\\', '\\']
  else if c = '\t' then ['\\', 't']
  else if c = '\n' then ['\\', 'n']
  else if c = '\r' then ['\\', 'r']
  else if c.toNat = 0 then ['\\', '0']
  else if isPrintable c then [c]
  else "\\u\x7b".toList ++ Nat.toDigits 16 c.toNat ++ ['\x7d']

/-- How a text is shown. -/
def shown (s : String) : String :=
  "\"" ++ String.ofList (s.toList.flatMap showChar) ++ "\""

end IndexAdvisor.Text
