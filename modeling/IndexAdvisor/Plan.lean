import IndexAdvisor.Json.Double
import IndexAdvisor.Json.Shape
import IndexAdvisor.Sql.Features
import IndexAdvisor.Text.Decimal

/-!
# Execution plans

The plan of a statement is made up from its features alone. Its operators stand in the order join,
filter, grouping, sort; each costs what has run up when the operators after it are done. One scan
for each table follows.
-/

set_option autoImplicit false

namespace IndexAdvisor.Plan

open IndexAdvisor.Json (Double)
open IndexAdvisor.Sql

/-- What a step of a plan does. -/
inductive Kind where
  | hashJoin
  | filter
  | groupBy
  | sort
  | seqScan
  deriving DecidableEq, Repr

namespace Kind

/-- The name of the step as it is shown. -/
def label : Kind → String
  | hashJoin => "Hash Join"
  | filter => "Filter"
  | groupBy => "Group By"
  | sort => "Sort"
  | seqScan => "Seq Scan"

/-- The front part of the id of the step. -/
def tag : Kind → String
  | hashJoin => "hash_join"
  | filter => "filter"
  | groupBy => "groupby"
  | sort => "sort"
  | seqScan => "seq_scan"

/-- What a step adds to the running cost. -/
def increment : Kind → Nat
  | hashJoin => 300
  | filter => 200
  | groupBy => 200
  | sort => 150
  | seqScan => 0

end Kind

/-- One step of a plan. The cost is kept as text. -/
structure Node where
  id : String
  label : String
  description : String
  cost : String
  deriving DecidableEq, Repr

namespace Node

/-- The step of an operator. -/
def operator (kind : Kind) (description : String) (cost : Nat) : Node :=
  ⟨kind.tag, kind.label, description, toString cost⟩

/-- The scan of a table. -/
def scan (table : String) (cost : Nat) : Node :=
  ⟨Kind.seqScan.tag ++ "_" ++ table, Kind.seqScan.label, table, toString cost⟩

/-- The cost as a number of 64 bits, if its text is one. -/
def costValue? (n : Node) : Option Nat := Text.unsigned? 64 n.cost.toList

/-- How a step is written: four texts. -/
def layout : Json.Layout Node where
  shape := .record "PlanNode" <| .cons "id" [] .required .text <|
    .cons "label" [] .required .text <|
    .cons "description" [] .required .text <| .cons "cost" [] .required .text .nil
  ofCarrier c := ⟨c.1, c.2.1, c.2.2.1, c.2.2.2.1⟩
  toCarrier n := (n.id, n.label, n.description, n.cost, ())
  ofCarrier_toCarrier _ := rfl

end Node

/-! ## Making a plan -/

/-- The cost before any operator. -/
def baseCost : Nat := 100

/-- The operators of a statement with their descriptions, in the order in which they are paid. -/
def operators (f : Features) : List (Kind × String) :=
  (if f.hasOrderBy then [(.sort, "Sort by " ++ f.orderByText)] else []) ++
  (if f.hasGroupBy then [(.groupBy, "Group by " ++ f.groupByText)] else []) ++
  (if f.hasWhere then [(.filter, f.whereText)] else []) ++
  (if f.hasJoin then [(.hashJoin, f.joinConditionText)] else [])

/-- The steps of the operators, the last one paid first, and the cost after all of them. -/
def stack : Nat → List (Kind × String) → List Node × Nat
  | cost, [] => ([], cost)
  | cost, (kind, description) :: more =>
    let r := stack (cost + kind.increment) more
    (r.1 ++ [.operator kind description cost], r.2)

/-- The cost of the scan at a position, counted from 0: half of the total, or with a join the total
over the position and a half more than one. It is worked out in double precision. -/
def scanCost (total position : Nat) (hasJoin : Bool) : Nat :=
  let divisor := if hasJoin then (Double.ofNat position).plus (.nearest 3 2 0) else .ofNat 2
  ((Double.ofNat total).quotient divisor).round

/-- The plan of a statement. -/
def ofFeatures (f : Features) : List Node :=
  let r := stack baseCost (operators f)
  r.1 ++ f.tables.mapIdx fun k table => .scan table (scanCost r.2 k f.hasJoin)

/-- The sum of the costs that are numbers, in 64 bits. -/
def totalCost (plan : List Node) : Nat :=
  (plan.filterMap Node.costValue?).foldl (· + ·) 0 % UInt64.size

/-! ## Showing a plan -/

/-- The line of the step at a depth. -/
def nodeLine (depth : Nat) (n : Node) : String :=
  String.ofList (List.replicate (2 * depth) ' ') ++ (if depth = 0 then "" else "-> ") ++ n.label ++
    " (cost=" ++ n.cost ++ "): " ++ n.description ++ "\n"

/-- The plan of a statement as text, each step deeper than the one before. -/
def text (sql : String) (plan : List Node) : String :=
  "=== EXECUTION PLAN ===\nQuery: " ++ sql ++ "\n" ++ String.join (plan.mapIdx nodeLine) ++
    "Total Cost: " ++ toString (totalCost plan) ++ "\n"

end IndexAdvisor.Plan
