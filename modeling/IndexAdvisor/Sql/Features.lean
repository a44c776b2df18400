import IndexAdvisor.Sql.Alias
import IndexAdvisor.Sql.Clause
import IndexAdvisor.Sql.Predicate
import IndexAdvisor.Text.Lowercase

/-!
# Features of a statement

What is read off a statement: its tables, which clauses it has and their texts, the columns that
its conditions, joins and orderings name, and the aliases of its tables. Every text has features;
a clause that is not there is described by a fixed phrase.
-/

set_option autoImplicit false

namespace IndexAdvisor.Sql

open IndexAdvisor.Text

/-- The table of a statement that names none. -/
def unknownTable : String := "unknown_table"

/-- The text of a WHERE clause that is not there. -/
def unknownConditions : String := "unknown conditions"

/-- The text of an ORDER BY or GROUP BY clause that is not there. -/
def unknownColumn : String := "unknown column"

/-- The text of a join condition that is not there. -/
def unknownJoinCondition : String := "unknown join condition"

/-- What is read off one statement. -/
structure Features where
  /-- The tables of the FROM clause, or the unknown table. -/
  tables : List String
  hasJoin : Bool
  hasWhere : Bool
  hasOrderBy : Bool
  hasGroupBy : Bool
  whereText : String
  orderByText : String
  groupByText : String
  joinConditionText : String
  predicates : List Predicate
  joinPairs : List JoinPair
  /-- The columns of the ORDER BY clause, with their qualifiers but without directions. -/
  orderColumns : List String
  aliases : Aliases
  deriving DecidableEq, Repr

namespace Features

/-- The first table. -/
def primaryTable (f : Features) : String := f.tables.headD unknownTable

/-- The statement names no table. -/
def isUnknownTable (f : Features) : Bool := f.tables == [unknownTable]

/-- The table that a qualifier stands for. -/
def resolveTable (f : Features) (qualifier : String) : String := f.aliases.resolve qualifier

end Features

/-! ## Reading the features -/

/-- The statement in lower case, without blanks around it and without closing semicolons. -/
def normalize (cs : List Char) : List Char :=
  lower (dropEndWhile (fun c => c == ';' || isBlank c) (trim cs))

/-- A character that may stand at the end of a table name. -/
def isTableChar (c : Char) : Bool := isAlphanumeric c || c == '_' || c == '.'

/-- The name of the table of one FROM entry: its first word without the characters at its ends
that cannot end a name. -/
def entryTable? (entry : List Char) : Option (List Char) :=
  match words entry with
  | [] => none
  | w :: _ =>
    match dropEndWhile (fun c => !isTableChar c) (w.dropWhile fun c => !isTableChar c) with
    | [] => none
    | t => some t

/-- The tables of a FROM text. -/
def entryTables (cs : List Char) : List (List Char) := (cs.splitOn ',').filterMap entryTable?

/-- A name that begins with a letter or an underscore. -/
def isIdentifier : List Char → Bool
  | [] => false
  | c :: cs => (c.isLower || c == '_') && cs.all isNameChar

/-- An identifier, or two with a point between them. -/
def isColumnRef (w : List Char) : Bool :=
  match w.splitOn '.' with
  | [column] => isIdentifier column
  | [table, column] => isIdentifier table && isIdentifier column
  | _ => false

/-- What may follow a column of an ORDER BY clause. -/
def orderModifiers : List (List String) :=
  ["", "asc", "desc"].flatMap fun direction =>
    ["", "first", "last"].map fun nulls =>
      (if direction = "" then [] else [direction]) ++ if nulls = "" then [] else ["nulls", nulls]

/-- The column of one ORDER BY entry, unless the entry is something else than a column. -/
def orderColumn? (entry : List Char) : Option (List Char) :=
  match words entry with
  | [] => none
  | w :: more =>
    if isColumnRef w && orderModifiers.any fun m => m.map String.toList == more then some w
    else none

/-- The features of a statement. -/
def features (sql : String) : Features :=
  let q := normalize sql.toList
  let text (t : Option (List Char)) (missing : String) := (t.map String.ofList).getD missing
  let tables := ((fromClause q).map entryTables).getD []
  { tables := if tables.isEmpty then [unknownTable] else tables.map String.ofList
    hasJoin := mentions ["join"] q
    hasWhere := mentions ["where"] q
    hasOrderBy := mentions ["order", "by"] q
    hasGroupBy := mentions ["group", "by"] q
    whereText := text (whereClause q) unknownConditions
    orderByText := text (orderByClause q) unknownColumn
    groupByText := text (groupByClause q) unknownColumn
    joinConditionText := text (joinCondition q) unknownJoinCondition
    predicates := ((whereClause q).map predicates).getD []
    joinPairs := joinPairs q
    orderColumns := (((orderByClause q).map fun t =>
      (t.splitOn ',').filterMap orderColumn?).getD []).map String.ofList
    aliases := .ofClauses (fromClause q) q }

end IndexAdvisor.Sql
