import IndexAdvisor.Sql.Join

/-!
# Clauses

A clause is found at the first place where its keyword stands as a word with blanks after it. Its
text begins at the next character that is no blank and ends before the first run of blanks that
one of the clause's closing words follows, or with the statement.
-/

set_option autoImplicit false

namespace IndexAdvisor.Sql

open IndexAdvisor.Text

/-- One of the words stands at the front and ends there. -/
def anyWordAhead (ws : List String) (cs : List Char) : Bool :=
  ws.any fun w => ((exactly w cs).bind wordEnd).isSome

/-- The text before the first run of blanks that one of the words follows. -/
def upTo (ws : List String) : List Char → List Char
  | [] => []
  | c :: cs =>
    if isBlank c && anyWordAhead ws (cs.dropWhile isBlank) then [] else c :: upTo ws cs

/-- The text up to a closing word, unless nothing is left to read. -/
def fragment (ws : List String) : List Char → Option (List Char)
  | [] => none
  | cs => some (upTo ws cs)

/-- Reads the words of a keyword, blanks between them. -/
def keyword : List String → List Char → Option (List Char)
  | [], cs => some cs
  | [w], cs => exactly w cs
  | w :: ws, cs => ((exactly w cs).bind blanks).bind (keyword ws)

/-- The text of the clause with this keyword and these closing words. -/
def clause (kw closing : List String) (cs : List Char) : Option (List Char) :=
  firstAt (fun cs => ((keyword kw cs).bind blanks).bind (fragment closing)) false cs

/-- The keyword stands somewhere as a word of its own. -/
def mentions (kw : List String) (cs : List Char) : Bool :=
  (firstAt (fun cs => (keyword kw cs).bind wordEnd) false cs).isSome

/-! ## The clauses of a statement -/

/-- The FROM text. -/
def fromClause (cs : List Char) : Option (List Char) :=
  clause ["from"] ["where", "group", "order", "limit"] cs

/-- The WHERE text. -/
def whereClause (cs : List Char) : Option (List Char) :=
  clause ["where"] ["group", "order", "limit"] cs

/-- The ORDER BY text. -/
def orderByClause (cs : List Char) : Option (List Char) := clause ["order", "by"] ["limit"] cs

/-- The GROUP BY text. -/
def groupByClause (cs : List Char) : Option (List Char) :=
  clause ["group", "by"] ["having", "order", "limit"] cs

/-- Reads a join and the text of its condition. -/
def joinCondition? (cs : List Char) : Option (List Char) := do
  let (_, cs) ← joinedTable id cs
  pastAlias id
    (fun cs => (onKeyword id cs).bind (fragment ["where", "group", "order", "limit"])) cs

/-- The text of the first join condition. -/
def joinCondition (cs : List Char) : Option (List Char) := firstAt joinCondition? false cs

end IndexAdvisor.Sql
