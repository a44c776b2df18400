import IndexAdvisor.Text.Blank
import IndexAdvisor.Text.Word

/-!
# Reading pieces of a statement

Small readers over the characters of a statement: each returns what is left of the text, or
nothing where it does not fit. `firstAt` and `everyAt` look for the places at which a reader that
begins with a keyword fits; a keyword begins only where no word character stands before it.

Where letter case does not matter, letters are compared after `foldCase`.
-/

set_option autoImplicit false

namespace IndexAdvisor.Sql

open IndexAdvisor.Text

/-! ## Letter case -/

/-- ASCII letters in lower case; the long s and the Kelvin sign count as `s` and `k`, because the
other case of these letters is theirs too. -/
def foldCase (c : Char) : Char :=
  if c.toNat = 0x17F then 's' else if c.toNat = 0x212A then 'k' else c.toLower

/-! ## Readers -/

/-- Reads the letters of `w`, compared after `fold`. -/
def letters (fold : Char → Char) : List Char → List Char → Option (List Char)
  | [], cs => some cs
  | _ :: _, [] => none
  | w :: ws, c :: cs => if fold c = w then letters fold ws cs else none

/-- Reads the letters of `w` as they stand. -/
def exactly (w : String) (cs : List Char) : Option (List Char) := letters id w.toList cs

/-- Reads the letters of `w` in any case. -/
def anyCase (w : String) (cs : List Char) : Option (List Char) := letters foldCase w.toList cs

/-- Reads one or more blanks. -/
def blanks : List Char → Option (List Char)
  | [] => none
  | c :: cs => if isBlank c then some (cs.dropWhile isBlank) else none

/-- Reads nothing, at a place where a word ends. -/
def wordEnd : List Char → Option (List Char)
  | [] => some []
  | c :: cs => if isWordChar c then none else some (c :: cs)

/-- Reads the longest name at hand: one or more name characters, compared after `fold`. -/
def name (fold : Char → Char) (cs : List Char) : Option (List Char × List Char) :=
  match cs.takeWhile fun c => isNameChar (fold c) with
  | [] => none
  | n => some (n, cs.dropWhile fun c => isNameChar (fold c))

/-- Reads the character `d`. -/
def char (d : Char) : List Char → Option (List Char)
  | [] => none
  | c :: cs => if c = d then some cs else none

/-! ## Places -/

/-- The answer of `f` at the first place where no word character stands before and `f` fits.
`inWord` tells whether the character before the text is a word character. -/
def firstAt {β : Type} (f : List Char → Option β) : Bool → List Char → Option β
  | _, [] => none
  | inWord, c :: cs =>
    match if inWord then none else f (c :: cs) with
    | some b => some b
    | none => firstAt f (isWordChar c) cs

/-- The answers of `f` from left to right at such places, none inside the text that the answer
before it has read. `skip` counts the characters that are still inside. -/
def everyAt {β : Type} (f : List Char → Option (β × List Char)) :
    Nat → Bool → List Char → List β
  | _, _, [] => []
  | skip + 1, _, c :: cs => everyAt f skip (isWordChar c) cs
  | 0, inWord, c :: cs =>
    match if inWord then none else f (c :: cs) with
    | some (b, rest) => b :: everyAt f (cs.length - rest.length) (isWordChar c) cs
    | none => everyAt f 0 (isWordChar c) cs

end IndexAdvisor.Sql
