/-!
# Comparison operators

The eight operators a condition may use, and their spelling. Word operators are read in any ASCII
letter case and written in lower case.
-/

set_option autoImplicit false

namespace IndexAdvisor.Sql

/-- An operator between a column and a value. -/
inductive Operator where
  | eq
  | gt
  | lt
  | ge
  | le
  | ne
  | like
  | isIn
  deriving DecidableEq, Repr

namespace Operator

/-- All operators. -/
def all : List Operator := [eq, gt, lt, ge, le, ne, like, isIn]

/-- The written form. -/
def text : Operator → String
  | eq => "="
  | gt => ">"
  | lt => "<"
  | ge => ">="
  | le => "<="
  | ne => "!="
  | like => "like"
  | isIn => "in"

/-- Reads an operator in any ASCII letter case. -/
def ofText? (token : List Char) : Option Operator :=
  all.find? fun op => op.text.toList == token.map Char.toLower

/-- Plain equality. -/
def isEquality (op : Operator) : Bool := op == eq

/-- Pattern matching. -/
def isPattern (op : Operator) : Bool := op == like

theorem mem_all (op : Operator) : op ∈ all := by
  cases op <;> decide

/-- The written form reads back. -/
theorem ofText?_text (op : Operator) : ofText? op.text.toList = some op := by
  cases op <;> decide

end Operator

end IndexAdvisor.Sql
