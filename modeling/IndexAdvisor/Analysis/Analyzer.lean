import IndexAdvisor.Analysis.Batch
import IndexAdvisor.Analysis.Counters
import IndexAdvisor.Log.Journal
import IndexAdvisor.LoggedQuery

/-!
# Analyzers

An analyzer finds out about statements one by one: features, plan, recommendations. It draws the
simulated figures from its source, counts what it does and logs it. Every text can be analyzed.
-/

set_option autoImplicit false

namespace IndexAdvisor.Analysis

open IndexAdvisor.Random

/-- What is found out about a statement on its own. -/
structure Findings where
  features : Sql.Features
  plan : List Plan.Node
  recommendations : List Recommendation
  deriving DecidableEq, Repr

/-- A random source, what has been done with it, and the journal. -/
structure Analyzer (σ : Type) where
  source : σ
  counters : Counters
  journal : Log.Journal
  deriving Repr

namespace Analyzer

variable {σ : Type}

/-- An analyzer that has done nothing yet. -/
def start (source : σ) (journal : Log.Journal) : Analyzer σ := ⟨source, .zero, journal⟩

/-- Draws from the source of an analyzer. -/
def drawn {α : Type} (draw : StateM σ α) : StateM (Analyzer σ) α := fun a =>
  let r := draw a.source
  (r.1, { a with source := r.2 })

/-- Counts. -/
def count (f : Counters → Counters) : StateM (Analyzer σ) Unit :=
  modify fun a => { a with counters := f a.counters }

/-- Logs an entry. -/
def log (e : Log.Entry) : StateM (Analyzer σ) Unit :=
  modify fun a => { a with journal := a.journal.record e }

/-- The entry for one analyzed statement. -/
def analyzedEntry (f : Findings) : Log.Entry :=
  ⟨.trace, Log.Event.queryAnalyzed.text,
    [("recommendations", toString f.recommendations.length),
     ("tables", toString f.features.tables.length)]⟩

variable [Source σ]

/-- Analyzes one statement. -/
def analyze (sql : String) : StateM (Analyzer σ) Findings := do
  let features := Sql.features sql
  let recommendations ← drawn (Advice.recommend features)
  let findings : Findings := ⟨features, Plan.ofFeatures features, recommendations⟩
  count fun c => c.addQuery recommendations
  log (analyzedEntry findings)
  return findings

/-- Analyzes the statement at a position of a batch. -/
def analyzeAt (position : Nat) (q : LoggedQuery) : StateM (Analyzer σ) Bundle := do
  let findings ← analyze q.text
  let time ← drawn (Source.nextInRange 500 1500)
  return {
    queryKey := q.key position
    sql := q.text
    tables := ", ".intercalate findings.features.tables
    executionTime := toString time ++ "ms"
    timestamp := q.timestamp
    fileName := q.fileName
    plan := findings.plan
    recommendations := findings.recommendations }

/-- Analyzes the statements of a batch from a position on and puts what is found into `batch`. -/
def analyzeFrom (position : Nat) (batch : Batch) : List LoggedQuery → StateM (Analyzer σ) Batch
  | [] => return batch
  | q :: qs => do
    let bundle ← analyzeAt position q
    analyzeFrom (position + 1) (batch.put bundle) qs

/-- Analyzes a batch. -/
def analyzeBatch (qs : List LoggedQuery) : StateM (Analyzer σ) Batch := do
  let batch ← analyzeFrom 0 .empty qs
  count Counters.addBatch
  log (.ofEvent .batchAnalyzed [("queries", toString batch.size)])
  return batch

end Analyzer

end IndexAdvisor.Analysis
