import IndexAdvisor.Text.Lowercase

/-!
# Cardinality of a column

Whether a column is expected to hold many or few values, judged by its name alone: by the ending of
a key first, then by a word that stands for a small set of values.
-/

set_option autoImplicit false

namespace IndexAdvisor.Sql

open IndexAdvisor.Text

/-- How many different values a column is expected to hold. -/
inductive Cardinality where
  | low
  | high
  deriving DecidableEq, Repr

/-- The written form. -/
def Cardinality.text : Cardinality → String
  | low => "low"
  | high => "high"

/-- Endings of columns that identify something. -/
def keyEndings : List String := ["_id", "id", "_key", "key", "code", "num", "number"]

/-- Words in the names of columns with few values. -/
def smallSetWords : List String :=
  ["status", "type", "category", "gender", "priority", "state", "active", "enabled", "flag", "role",
   "level", "tier", "color"]

/-- The word occurs somewhere in the text. -/
def occurs (w : List Char) : List Char → Bool
  | [] => w.isEmpty
  | c :: cs => w.isPrefixOf (c :: cs) || occurs w cs

/-- The cardinality that the name of a column suggests. -/
def cardinality (column : String) : Cardinality :=
  let n := lower column.toList
  if keyEndings.any fun w => w.toList.isSuffixOf n then .high
  else if smallSetWords.any fun w => occurs w.toList n then .low
  else .high

end IndexAdvisor.Sql
