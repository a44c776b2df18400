import IndexAdvisor.Index.Statement
import IndexAdvisor.Sql.Record

/-!
# Recommendations

An index that would help a statement, with the share of time it is said to save, the reason for it
and the statement that creates it.
-/

set_option autoImplicit false

namespace IndexAdvisor

/-- An index recommended for a statement. -/
structure Recommendation where
  /-- The number of the recommendation within its statement, from 1. -/
  id : UInt32
  kind : Index.Kind
  table : String
  columns : List String
  /-- The improvement in percent. -/
  improvement : UInt8
  reason : String
  /-- The operator of the condition that asks for the index. -/
  operator : Option Sql.Operator
  /-- The statement that creates the index. -/
  sql : String
  deriving DecidableEq, Repr

namespace Recommendation

/-- A recommendation with its statement; the improvement is at most 100. -/
def make (id : UInt32) (kind : Index.Kind) (table : String) (columns : List String)
    (improvement : UInt8) (reason : String) (operator : Option Sql.Operator) : Recommendation where
  id := id
  kind := kind
  table := table
  columns := columns
  improvement := min improvement 100
  reason := reason
  operator := operator
  sql := Index.statement kind table columns

/-- The name of the index. -/
def indexName (r : Recommendation) : String := Index.name r.table r.columns

/-- How a recommendation is written; an operator that is not there is left out. -/
def layout : Json.Layout Recommendation where
  shape := .record "Recommendation" <| .cons "id" [] .required (.count 32) <|
    .cons "type" [] .required Index.Kind.layout.shape <| .cons "table" [] .required .text <|
    .cons "columns" [] .required (.list .text) <| .cons "improvement" [] .required (.count 8) <|
    .cons "reason" [] .required .text <|
    .cons "operator" [] .optional Sql.Operator.layout.shape <| .cons "sql" [] .required .text .nil
  ofCarrier c :=
    { id := .ofNat c.1.val
      kind := Index.Kind.layout.ofCarrier c.2.1
      table := c.2.2.1
      columns := c.2.2.2.1
      improvement := .ofNat c.2.2.2.2.1.val
      reason := c.2.2.2.2.2.1
      operator := c.2.2.2.2.2.2.1.map Sql.Operator.layout.ofCarrier
      sql := c.2.2.2.2.2.2.2.1 }
  toCarrier r :=
    (⟨r.id.toNat, r.id.toNat_lt⟩, Index.Kind.layout.toCarrier r.kind, r.table, r.columns,
      ⟨r.improvement.toNat, r.improvement.toNat_lt⟩, r.reason,
      r.operator.map Sql.Operator.layout.toCarrier, r.sql, ())
  ofCarrier_toCarrier r := by
    have hop : (r.operator.map Sql.Operator.layout.toCarrier).map Sql.Operator.layout.ofCarrier
        = r.operator := by
      cases r.operator with
      | none => rfl
      | some op => exact congrArg some (Sql.Operator.layout.ofCarrier_toCarrier op)
    simp only [Index.Kind.layout.ofCarrier_toCarrier, UInt32.ofNat_toNat, UInt8.ofNat_toNat, hop]

end Recommendation

end IndexAdvisor
