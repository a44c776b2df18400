import IndexAdvisor.Plan
import IndexAdvisor.Recommendation
import Std.Data.ExtTreeMap

/-!
# Batches

What an analysis found out about each statement of a batch. A bundle is known by the key of its
query. A batch holds its bundles in a map under these keys, and beside it the keys in the order in
which they first came. Both change with each bundle that is put into the batch, and nowhere else.
-/

set_option autoImplicit false

namespace IndexAdvisor.Analysis

/-- What was found out about one statement. -/
structure Bundle where
  queryKey : String
  /-- The statement as it was logged. -/
  sql : String
  /-- The tables of the statement with commas between them. -/
  tables : String
  /-- The simulated time, in milliseconds. -/
  executionTime : String
  timestamp : String
  fileName : String
  plan : List Plan.Node
  recommendations : List Recommendation
  deriving DecidableEq, Repr

namespace Bundle

/-- The first recommendation with this number. -/
def recommendation? (b : Bundle) (id : UInt32) : Option Recommendation :=
  b.recommendations.find? fun r => r.id == id

/-- How a bundle is written. -/
def layout : Json.Layout Bundle where
  shape := .record "QueryAnalysisBundle" <| .cons "queryId" [] .required .text <|
    .cons "sql" [] .required .text <|
    .cons "tables" [] .required .text <| .cons "executionTime" [] .required .text <|
    .cons "timestamp" [] .required .text <| .cons "fileName" [] .required .text <|
    .cons "executionPlan" [] .required (.list Plan.Node.layout.shape) <|
    .cons "recommendations" [] .required (.list Recommendation.layout.shape) .nil
  ofCarrier c :=
    { queryKey := c.1
      sql := c.2.1
      tables := c.2.2.1
      executionTime := c.2.2.2.1
      timestamp := c.2.2.2.2.1
      fileName := c.2.2.2.2.2.1
      plan := Plan.Node.layout.list.ofCarrier c.2.2.2.2.2.2.1
      recommendations := Recommendation.layout.list.ofCarrier c.2.2.2.2.2.2.2.1 }
  toCarrier b :=
    (b.queryKey, b.sql, b.tables, b.executionTime, b.timestamp, b.fileName,
      Plan.Node.layout.list.toCarrier b.plan,
      Recommendation.layout.list.toCarrier b.recommendations, ())
  ofCarrier_toCarrier b := by
    simp only [Json.Layout.ofCarrier_toCarrier]

end Bundle

/-! ## Batches -/

/-- The bundles of a batch, and the order of their keys. -/
structure Batch where
  /-- Each bundle under its key. -/
  found : Std.ExtTreeMap String Bundle
  /-- The keys, in the order in which they first came. -/
  keys : List String
  deriving DecidableEq, Repr

namespace Batch

/-- No bundle. -/
def empty : Batch := ⟨∅, []⟩

/-- Puts a bundle under its key, in the place of one that is there; a new key goes to the end. -/
def put (b : Batch) (x : Bundle) : Batch where
  found := b.found.insert x.queryKey x
  keys := if x.queryKey ∈ b.found then b.keys else b.keys ++ [x.queryKey]

/-- The batch of some bundles; of several with one key the last one counts. -/
def ofBundles (xs : List Bundle) : Batch := xs.foldl put empty

/-- The bundle with this key. -/
def get? (b : Batch) (key : String) : Option Bundle := b.found[key]?

/-- The bundles in the order of their keys. A key without a bundle is passed over. -/
def bundles (b : Batch) : List Bundle := b.keys.filterMap b.get?

/-- How many keys there are. -/
def size (b : Batch) : Nat := b.keys.length

theorem mem_found_iff {b : Batch} {key : String} : key ∈ b.found ↔ (b.get? key).isSome :=
  Std.ExtTreeMap.isSome_getElem?_iff_mem.symm

theorem get?_empty (key : String) : empty.get? key = none := Std.ExtTreeMap.getElem?_empty

theorem get?_put (b : Batch) (x : Bundle) (key : String) :
    (b.put x).get? key = if x.queryKey = key then some x else b.get? key := by
  simp only [get?, put, Std.ExtTreeMap.getElem?_insert, Std.compare_eq_iff_eq]

theorem get?_put_self (b : Batch) (x : Bundle) : (b.put x).get? x.queryKey = some x := by
  rw [get?_put, if_pos rfl]

theorem get?_put_of_ne (b : Batch) {x : Bundle} {key : String} (h : x.queryKey ≠ key) :
    (b.put x).get? key = b.get? key := by
  rw [get?_put, if_neg h]

theorem ofBundles_concat (xs : List Bundle) (x : Bundle) :
    ofBundles (xs ++ [x]) = (ofBundles xs).put x := by
  rw [ofBundles, List.foldl_append]
  rfl

end Batch

end IndexAdvisor.Analysis
