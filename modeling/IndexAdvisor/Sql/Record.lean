import IndexAdvisor.Json.Shape
import IndexAdvisor.Sql.Features

/-!
# Written forms of features

How operators, predicates, join pairs and features are written as JSON.
-/

set_option autoImplicit false

namespace IndexAdvisor.Sql

open IndexAdvisor.Json

/-- An operator is written as its text. -/
def Operator.layout : Layout Operator where
  shape := .choice (Operator.all.map Operator.text)
  ofCarrier i := Operator.all.get (Fin.cast (by decide) i)
  toCarrier
    | .eq => ⟨0, by decide⟩
    | .gt => ⟨1, by decide⟩
    | .lt => ⟨2, by decide⟩
    | .ge => ⟨3, by decide⟩
    | .le => ⟨4, by decide⟩
    | .ne => ⟨5, by decide⟩
    | .like => ⟨6, by decide⟩
    | .isIn => ⟨7, by decide⟩
  ofCarrier_toCarrier op := by cases op <;> rfl

/-- A predicate; null stands for a qualifier that is not there. -/
def Predicate.layout : Layout Predicate where
  shape := .record "PredicateColumn" <| .cons "table" [] .nullable .text <|
    .cons "column" [] .required .text <|
    .cons "operator" [] .required Operator.layout.shape .nil
  ofCarrier c := ⟨c.1, c.2.1, Operator.layout.ofCarrier c.2.2.1⟩
  toCarrier p := (p.table, p.column, Operator.layout.toCarrier p.operator, ())
  ofCarrier_toCarrier p := by
    simp only [Operator.layout.ofCarrier_toCarrier]

/-- A join pair. -/
def JoinPair.layout : Layout JoinPair where
  shape := .record "JoinPair" <| .cons "leftTable" [] .required .text <|
    .cons "leftColumn" [] .required .text <| .cons "rightTable" [] .required .text <|
    .cons "rightColumn" [] .required .text .nil
  ofCarrier c := ⟨c.1, c.2.1, c.2.2.1, c.2.2.2.1⟩
  toCarrier p := (p.leftTable, p.leftColumn, p.rightTable, p.rightColumn, ())
  ofCarrier_toCarrier _ := rfl

/-- The features of a statement, without its aliases. -/
def Features.toJson (f : Features) : Json := .object [
  ("tables", .strings f.tables),
  ("hasJoin", .bool f.hasJoin),
  ("hasWhere", .bool f.hasWhere),
  ("hasOrderBy", .bool f.hasOrderBy),
  ("hasGroupBy", .bool f.hasGroupBy),
  ("whereText", .string f.whereText),
  ("orderByText", .string f.orderByText),
  ("groupByText", .string f.groupByText),
  ("joinConditionText", .string f.joinConditionText),
  ("whereColumns", .array (f.predicates.map Predicate.layout.toJson)),
  ("joinPairs", .array (f.joinPairs.map JoinPair.layout.toJson)),
  ("orderByColumns", .strings f.orderColumns)]

end IndexAdvisor.Sql
