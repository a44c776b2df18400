import IndexAdvisor.Proofs.Analysis.Keys

/-!
# Batches that grow

An analysis goes through its queries from the first to the last, and what is found out about one of
them depends on those before it only, by what they have drawn from the source. So queries that are
added at the end change nothing of what was found out about the others. The times at which queries
were logged, the counters and the journal play no part either.
-/

set_option autoImplicit false

namespace IndexAdvisor

/-- A query without the time at which it was logged. -/
def LoggedQuery.undated (q : LoggedQuery) : LoggedQuery := { q with timestamp := "" }

namespace Analysis

open IndexAdvisor.Random

/-- A bundle without the time of its query. -/
def Bundle.undated (b : Bundle) : Bundle := { b with timestamp := "" }

namespace Analyzer

variable {σ : Type} [Source σ]

/-! ## One query after the other -/

/-- What is found out about a statement, from the source of the analyzer alone. -/
theorem fst_analyze (sql : String) (a : Analyzer σ) : (analyze sql a).1 =
    ⟨Sql.features sql, Plan.ofFeatures (Sql.features sql),
      (Advice.recommend (Sql.features sql) a.source).1⟩ := rfl

theorem source_analyze (sql : String) (a : Analyzer σ) :
    (analyze sql a).2.source = (Advice.recommend (Sql.features sql) a.source).2 := rfl

/-- A bundle is put together from what is found out about a statement and one further draw. -/
theorem fst_analyzeAt (position : Nat) (q : LoggedQuery) (a : Analyzer σ) :
    (analyzeAt position q a).1 =
      let findings := (analyze q.text a).1
      let time := (Source.nextInRange 500 1500 (analyze q.text a).2.source).1
      { queryKey := q.key position
        sql := q.text
        tables := ", ".intercalate findings.features.tables
        executionTime := toString time ++ "ms"
        timestamp := q.timestamp
        fileName := q.fileName
        plan := findings.plan
        recommendations := findings.recommendations } := rfl

theorem source_analyzeAt (position : Nat) (q : LoggedQuery) (a : Analyzer σ) :
    (analyzeAt position q a).2.source =
      (Source.nextInRange 500 1500 (analyze q.text a).2.source).2 := rfl

theorem bundlesFrom_congr {a b : Analyzer σ} (h : a.source = b.source) (position : Nat)
    (qs : List LoggedQuery) : (bundlesFrom position qs a).1 = (bundlesFrom position qs b).1 := by
  -- only the source is passed on to the next query; counters and journal may differ
  induction qs generalizing position a b with
  | nil => rfl
  | cons q qs ih =>
      have hbundle : (analyzeAt position q a).1 = (analyzeAt position q b).1 := by
        rw [fst_analyzeAt, fst_analyzeAt, fst_analyze, fst_analyze, source_analyze,
          source_analyze, h]
      have hsource : (analyzeAt position q a).2.source = (analyzeAt position q b).2.source := by
        rw [source_analyzeAt, source_analyzeAt, source_analyze, source_analyze, h]
      simp only [bundlesFrom_cons, hbundle, ih hsource]

/-- What is found out about the first queries comes first. -/
theorem bundlesFrom_isPrefix (position : Nat) (xs ys : List LoggedQuery) (a : Analyzer σ) :
    (bundlesFrom position xs a).1 <+: (bundlesFrom position (xs ++ ys) a).1 := by
  induction xs generalizing position a with
  | nil => exact List.nil_prefix
  | cons x xs ih =>
      rw [List.cons_append, bundlesFrom_cons, bundlesFrom_cons]
      exact List.cons_prefix_cons.mpr ⟨rfl, ih _ _⟩

theorem length_bundlesFrom (position : Nat) (qs : List LoggedQuery) (a : Analyzer σ) :
    (bundlesFrom position qs a).1.length = qs.length := by
  induction qs generalizing position a with
  | nil => rfl
  | cons q qs ih =>
      rw [bundlesFrom_cons, List.length_cons, List.length_cons, ih]

/-- The time at which a query was logged is only passed on. -/
theorem bundlesFrom_undated (position : Nat) (qs : List LoggedQuery) (a : Analyzer σ) :
    (bundlesFrom position (qs.map LoggedQuery.undated) a).1 =
      (bundlesFrom position qs a).1.map Bundle.undated := by
  induction qs generalizing position a with
  | nil => rfl
  | cons q qs ih =>
      have htext : q.undated.text = q.text := rfl
      have hbundle : (analyzeAt position q.undated a).1 = (analyzeAt position q a).1.undated := by
        rw [fst_analyzeAt, fst_analyzeAt, htext]
        rfl
      have hsource : (analyzeAt position q.undated a).2.source =
          (analyzeAt position q a).2.source := by
        rw [source_analyzeAt, source_analyzeAt, htext]
      simp only [List.map_cons, bundlesFrom_cons, hbundle, bundlesFrom_congr hsource, ih]

/-! ## Batches -/

/-- **Queries that are added change nothing** of what was found out about the others. -/
theorem bundles_isPrefix (xs ys : List LoggedQuery) {a b : Analyzer σ} (h : a.source = b.source) :
    (analyzeBatch xs a).1.bundles <+: (analyzeBatch (xs ++ ys) b).1.bundles := by
  rw [bundles_analyzeBatch, bundles_analyzeBatch, bundlesFrom_congr h]
  exact bundlesFrom_isPrefix 0 xs ys b

theorem length_bundles (qs : List LoggedQuery) (a : Analyzer σ) :
    (analyzeBatch qs a).1.bundles.length = qs.length := by
  rw [bundles_analyzeBatch, length_bundlesFrom]

theorem size_analyzeBatch (qs : List LoggedQuery) (a : Analyzer σ) :
    (analyzeBatch qs a).1.size = qs.length := by
  rw [← (inStep_analyzeBatch qs a).length_bundles, length_bundles]

theorem bundles_undated (qs : List LoggedQuery) (a : Analyzer σ) :
    (analyzeBatch (qs.map LoggedQuery.undated) a).1.bundles =
      (analyzeBatch qs a).1.bundles.map Bundle.undated := by
  rw [bundles_analyzeBatch, bundles_analyzeBatch, bundlesFrom_undated]

end Analyzer

end Analysis

end IndexAdvisor
