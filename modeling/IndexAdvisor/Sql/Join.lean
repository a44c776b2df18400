import IndexAdvisor.Sql.Scan
import IndexAdvisor.Text.Lowercase

/-!
# JOIN clauses

`join table [[as] alias] on t1.c1 = t2.c2` in any letter case, wherever it stands in a text. The
targets of joins are read apart from their conditions, because a join without one still names a
table.
-/

set_option autoImplicit false

namespace IndexAdvisor.Sql

open IndexAdvisor.Text

/-- The two columns of an equi-join, with their qualifiers as written. -/
structure JoinPair where
  leftTable : String
  leftColumn : String
  rightTable : String
  rightColumn : String
  deriving DecidableEq, Repr

/-- Reads `join`, blanks and the name of a table. -/
def joinedTable (fold : Char → Char) (cs : List Char) : Option (List Char × List Char) := do
  let cs ← letters fold "join".toList cs
  let cs ← blanks cs
  name fold cs

/-- Goes on with `tail` past an alias: one after `as`, else one that stands alone, else none. -/
def pastAlias {β : Type} (fold : Char → Char) (tail : List Char → Option β)
    (cs : List Char) : Option β :=
  (do
    let cs ← blanks cs
    let cs ← letters fold "as".toList cs
    let cs ← blanks cs
    let (_, cs) ← name fold cs
    tail cs) <|>
  (do
    let cs ← blanks cs
    let (_, cs) ← name fold cs
    tail cs) <|>
  tail cs

/-- Reads blanks, `on` and blanks. -/
def onKeyword (fold : Char → Char) (cs : List Char) : Option (List Char) := do
  let cs ← blanks cs
  let cs ← letters fold "on".toList cs
  blanks cs

/-! ## Pairs -/

/-- Reads `qualifier.column`. -/
def columnRef (cs : List Char) : Option ((List Char × List Char) × List Char) := do
  let (table, cs) ← name foldCase cs
  let cs ← char '.' cs
  let (column, cs) ← name foldCase cs
  some ((table, column), cs)

/-- Reads `on t1.c1 = t2.c2`. -/
def equality (cs : List Char) : Option (JoinPair × List Char) := do
  let cs ← onKeyword foldCase cs
  let (left, cs) ← columnRef cs
  let cs ← char '=' (cs.dropWhile isBlank)
  let (right, cs) ← columnRef (cs.dropWhile isBlank)
  let text (n : List Char) := String.ofList (lower n)
  some (⟨text left.1, text left.2, text right.1, text right.2⟩, cs)

/-- Reads a join with an equality of two columns. -/
def joinPair? (cs : List Char) : Option (JoinPair × List Char) := do
  let (_, cs) ← joinedTable foldCase cs
  pastAlias foldCase equality cs

/-- The pairs of a text, in order. -/
def joinPairs (cs : List Char) : List JoinPair := everyAt joinPair? 0 false cs

/-! ## Targets -/

/-- Reads blanks and `as`, if they are there and the word ends there. -/
def skipAs (cs : List Char) : List Char :=
  match ((blanks cs).bind (anyCase "as")).bind wordEnd with
  | some rest => rest
  | none => cs

/-- Reads a joined table and the word after it, `as` aside. -/
def joinTarget? (cs : List Char) : Option ((List Char × Option (List Char)) × List Char) := do
  let (table, cs) ← joinedTable foldCase cs
  let cs := skipAs cs
  match (blanks cs).bind (name foldCase) with
  | some (word, rest) => some ((lower table, some (lower word)), rest)
  | none => some ((lower table, none), cs)

/-- The joined tables of a text with the word after each, in order. -/
def joinTargets (cs : List Char) : List (List Char × Option (List Char)) :=
  everyAt joinTarget? 0 false cs

end IndexAdvisor.Sql
