import IndexAdvisor.Log.Severity

/-!
# Events

What the log tells about. Every event but damage to stored data is plain information.
-/

set_option autoImplicit false

namespace IndexAdvisor.Log

/-- Something that is logged. -/
inductive Event where
  | configLoaded
  | queriesUploaded
  | queriesCleared
  | queryAnalyzed
  | batchAnalyzed
  | explainComplete
  | recommendationApplied
  | appliedCleared
  | dashboardComputed
  | storeCorruption
  deriving DecidableEq, Repr

namespace Event

/-- All events. -/
def all : List Event :=
  [configLoaded, queriesUploaded, queriesCleared, queryAnalyzed, batchAnalyzed, explainComplete,
   recommendationApplied, appliedCleared, dashboardComputed, storeCorruption]

/-- The written form. -/
def text : Event → String
  | configLoaded => "CONFIG_LOADED"
  | queriesUploaded => "QUERIES_UPLOADED"
  | queriesCleared => "QUERIES_CLEARED"
  | queryAnalyzed => "QUERY_ANALYZED"
  | batchAnalyzed => "BATCH_ANALYZED"
  | explainComplete => "EXPLAIN_COMPLETE"
  | recommendationApplied => "RECOMMENDATION_APPLIED"
  | appliedCleared => "APPLIED_CLEARED"
  | dashboardComputed => "DASHBOARD_COMPUTED"
  | storeCorruption => "STORE_CORRUPTION"

/-- The event reports damaged data. -/
def isError (e : Event) : Bool := e == storeCorruption

/-- The severity with which the event is logged. -/
def severity (e : Event) : Severity := if e.isError then .error else .info

end Event

end IndexAdvisor.Log
