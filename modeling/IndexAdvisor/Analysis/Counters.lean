import IndexAdvisor.Advice

/-!
# Counters

How much has been analyzed and recommended, in words of 64 bits.
-/

set_option autoImplicit false

namespace IndexAdvisor.Analysis

/-- What one analyzer has done. -/
structure Counters where
  queries : UInt64
  batches : UInt64
  /-- Recommendations of all kinds. -/
  recommendations : UInt64
  bTree : UInt64
  hash : UInt64
  bitmap : UInt64
  /-- Statements for which only the general recommendation was made. -/
  fallbacks : UInt64
  deriving DecidableEq, Repr

namespace Counters

/-- Nothing is done. -/
def zero : Counters := ⟨0, 0, 0, 0, 0, 0, 0⟩

/-- Counts a recommendation of a kind. -/
def addRecommendation (c : Counters) (kind : Index.Kind) : Counters :=
  let c := { c with recommendations := c.recommendations + 1 }
  match kind with
  | .bTree => { c with bTree := c.bTree + 1 }
  | .hash => { c with hash := c.hash + 1 }
  | .bitmap => { c with bitmap := c.bitmap + 1 }

/-- The recommendations are the general one alone. -/
def isFallback : List Recommendation → Bool
  | [r] => r.reason == Advice.fallbackReason
  | _ => false

/-- Counts a statement with its recommendations. -/
def addQuery (c : Counters) (rs : List Recommendation) : Counters :=
  let c := { c with queries := c.queries + 1 }
  let c := rs.foldl (fun c r => c.addRecommendation r.kind) c
  if isFallback rs then { c with fallbacks := c.fallbacks + 1 } else c

/-- Counts a batch. -/
def addBatch (c : Counters) : Counters := { c with batches := c.batches + 1 }

/-- The counters by their names. -/
def toJson (c : Counters) : Json := .object [
  ("queriesAnalyzed", .nat c.queries.toNat),
  ("batchesAnalyzed", .nat c.batches.toNat),
  ("recommendationsEmitted", .nat c.recommendations.toNat),
  ("btreeRecommendations", .nat c.bTree.toNat),
  ("hashRecommendations", .nat c.hash.toNat),
  ("bitmapRecommendations", .nat c.bitmap.toNat),
  ("fallbackRecommendations", .nat c.fallbacks.toNat)]

end Counters

end IndexAdvisor.Analysis
