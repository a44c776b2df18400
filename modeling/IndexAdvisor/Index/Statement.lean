import IndexAdvisor.Index.Kind
import IndexAdvisor.Text.Word

/-!
# Index statements

The name of an index and the statement that creates it. Both are made of plain names only:
whatever stands in a table or a column, a character outside `a-z`, `0-9` and `_` becomes an
underscore, so nothing of the input can end the statement or begin another one.
-/

set_option autoImplicit false

namespace IndexAdvisor.Index

open IndexAdvisor.Text

/-- A character of a plain name: ASCII letters in lower case, an underscore for any other
character that a plain name may not hold. -/
def plainChar (c : Char) : Char := if isNameChar c.toLower then c.toLower else '_'

/-- The plain name of a text. -/
def plain (cs : List Char) : List Char := cs.map plainChar

theorem isNameChar_plainChar (c : Char) : isNameChar (plainChar c) = true := by
  unfold plainChar
  split
  · assumption
  · decide

theorem isNameChar_of_mem_plain {cs : List Char} {c : Char} (h : c ∈ plain cs) :
    isNameChar c = true := by
  obtain ⟨d, -, rfl⟩ := List.mem_map.mp h
  exact isNameChar_plainChar d

/-- The parts of a table name between its points. -/
def segments (table : List Char) : List (List Char) := table.splitOn '.'

/-- The name of an index: the last part of the table and the columns, as plain names. -/
def nameOf (table : List Char) (columns : List (List Char)) : List Char :=
  "idx_".toList ++ plain ((segments table).getLastD table) ++
    columns.flatMap fun column => '_' :: plain column

/-- The name of an index on columns of a table. -/
def name (table : String) (columns : List String) : String :=
  String.ofList (nameOf table.toList (columns.map String.toList))

/-- The statement that creates an index. -/
def statementOf (kind : Kind) (table : List Char) (columns : List (List Char)) : List Char :=
  "CREATE INDEX ".toList ++ nameOf table columns ++ " ON ".toList ++
    List.intercalate ['.'] ((segments table).map plain) ++ " (".toList ++
    List.intercalate [',', ' '] (columns.map plain) ++ ')' :: kind.usingClause.toList

/-- The statement that creates an index on columns of a table. -/
def statement (kind : Kind) (table : String) (columns : List String) : String :=
  String.ofList (statementOf kind table.toList (columns.map String.toList))

end IndexAdvisor.Index
