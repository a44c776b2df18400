import IndexAdvisor.Sql.Operator
import IndexAdvisor.Sql.Scan
import IndexAdvisor.Text.Lowercase

/-!
# Conditions of a WHERE clause

A WHERE text is cut at the words `and` and `or` that blanks surround. Each piece that reads as
`[qualifier.]column operator value` gives a predicate; any other piece is dropped.
-/

set_option autoImplicit false

namespace IndexAdvisor.Sql

open IndexAdvisor.Text

/-- A column that a condition compares, with the operator of the comparison. -/
structure Predicate where
  /-- Table or alias in front of the column, if it is qualified. -/
  table : Option String
  column : String
  operator : Operator
  deriving DecidableEq, Repr

/-! ## Cutting a text into conditions -/

/-- Reads blanks, `and` or `or` in any case, and blanks. -/
def connective (cs : List Char) : Option (List Char) := do
  let cs ← blanks cs
  let cs ← anyCase "and" cs <|> anyCase "or" cs
  blanks cs

/-- The conditions of a text as the first one and the ones after it, past `skip` characters that
belong to a connective. -/
def conditionsFrom : Nat → List Char → List Char × List (List Char)
  | _, [] => ([], [])
  | skip + 1, _ :: cs => conditionsFrom skip cs
  | 0, c :: cs =>
    match connective (c :: cs) with
    | some rest =>
      let r := conditionsFrom (cs.length - rest.length) cs
      ([], r.1 :: r.2)
    | none =>
      let r := conditionsFrom 0 cs
      (c :: r.1, r.2)

/-- The pieces of a text between its connectives. -/
def conditions (cs : List Char) : List (List Char) :=
  let r := conditionsFrom 0 cs
  r.1 :: r.2

/-! ## Reading one condition -/

/-- Reads a symbol operator and at least one character after it. The two-character symbols come
first, so that a shorter one is read only where the longer one leaves no value. -/
def symbolOperator (cs : List Char) : Option Operator :=
  [Operator.ge, .le, .ne, .eq, .gt, .lt].find? fun op =>
    match exactly op.text cs with
    | some (_ :: _) => true
    | _ => false

/-- Reads blanks, a word operator that ends there, and at least one character after it. -/
def wordOperator (cs : List Char) : Option Operator := do
  let start ← blanks cs
  let rest ← anyCase "like" start <|> anyCase "in" start
  match ← wordEnd rest with
  | [] => none
  | _ :: _ => Operator.ofText? (start.take (start.length - rest.length))

/-- Reads the operator of a condition, after the column. -/
def comparison (cs : List Char) : Option Operator :=
  symbolOperator (cs.dropWhile isBlank) <|> wordOperator cs

/-- Reads a point and a name, if they are there. -/
def qualified (cs : List Char) : Option (List Char) × List Char :=
  match (char '.' cs).bind (name foldCase) with
  | some (n, rest) => (some n, rest)
  | none => (none, cs)

/-- Reads one condition, past blanks and opening parentheses. -/
def predicate? (cs : List Char) : Option Predicate := do
  let cs := ((cs.dropWhile isBlank).dropWhile (· == '(')).dropWhile isBlank
  let (first, cs) ← name foldCase cs
  let (second, cs) := qualified cs
  let operator ← comparison cs
  let text (n : List Char) := String.ofList (lower n)
  match second with
  | some column => some ⟨some (text first), text column, operator⟩
  | none => some ⟨none, text first, operator⟩

/-- The predicates of a WHERE text, in order. -/
def predicates (cs : List Char) : List Predicate := (conditions cs).filterMap predicate?

end IndexAdvisor.Sql
