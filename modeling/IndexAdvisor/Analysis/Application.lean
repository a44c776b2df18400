import IndexAdvisor.Analysis.Batch
import IndexAdvisor.AppliedIndex
import IndexAdvisor.Log.Entry
import IndexAdvisor.Store.Error

/-!
# Applying a recommendation

A recommendation of a batch is chosen by the key of its query and its number there.
-/

set_option autoImplicit false

namespace IndexAdvisor.Analysis

namespace Batch

/-- The recommendation with this number for the query with this key. -/
def choose (b : Batch) (queryKey : String) (id : UInt32) : Except Store.Error Recommendation :=
  match b.get? queryKey with
  | none => .error (.queryNotFound queryKey)
  | some bundle =>
    match bundle.recommendation? id with
    | none => .error (.recommendationNotFound queryKey id)
    | some r => .ok r

/-- The record of applying that recommendation now. -/
def application (b : Batch) (queryKey : String) (id : UInt32) (now : String) :
    Except Store.Error AppliedIndex := do
  .ok (.ofRecommendation queryKey (← b.choose queryKey id) now)

end Batch

/-- The entry for an applied recommendation. -/
def appliedEntry (a : AppliedIndex) : Log.Entry :=
  .ofEvent .recommendationApplied [("index", a.indexName), ("query_id", a.queryKey)]

/-- The numbers of the recommendations of a bundle that are applied. -/
def Bundle.appliedIds (b : Bundle) (s : AppliedSet) : List UInt32 :=
  (b.recommendations.map Recommendation.id).filter fun id => s.contains b.queryKey id

end IndexAdvisor.Analysis
