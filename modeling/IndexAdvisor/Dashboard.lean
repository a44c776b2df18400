import IndexAdvisor.AppliedIndex
import IndexAdvisor.Json.Double
import IndexAdvisor.Random.Source

/-!
# Dashboards

Figures about the logged queries and the applied indexes. Counts are taken from the records; times
are simulated, and fall the further the more indexes have been applied.
-/

set_option autoImplicit false

namespace IndexAdvisor.Dashboard

open IndexAdvisor.Random

/-! ## Kinds of applied indexes -/

/-- How many applied indexes there are of each kind. -/
structure Distribution where
  bTree : Nat
  hash : Nat
  bitmap : Nat
  deriving DecidableEq, Repr

namespace Distribution

/-- The number of all. -/
def total (d : Distribution) : Nat := d.bTree + d.hash + d.bitmap

/-- Counts one more; an unknown kind counts as a B-tree. -/
def add (d : Distribution) (a : AppliedIndex) : Distribution :=
  match Index.Kind.ofText? a.kind with
  | some .hash => { d with hash := d.hash + 1 }
  | some .bitmap => { d with bitmap := d.bitmap + 1 }
  | _ => { d with bTree := d.bTree + 1 }

/-- The kinds of some records. -/
def ofRecords (records : List AppliedIndex) : Distribution := records.foldl add ⟨0, 0, 0⟩

/-- The numbers by the names of the kinds. -/
def toJson (d : Distribution) : Json :=
  .object [("B-tree", .nat d.bTree), ("Hash", .nat d.hash), ("Bitmap", .nat d.bitmap)]

end Distribution

/-! ## Simulated times -/

/-- The share of time that some applied indexes are said to save: it rises towards three
quarters. -/
def savedShare (applied : Nat) : Json.Double :=
  if applied = 0 then .ofNat 0
  else .ofFloat (0.75 * (1.0 - Float.exp (-(Float.ofNat applied) / 5.0)))

/-- The share as a machine number. -/
def improvementFactor (applied : Nat) : Float := (savedShare applied).toFloat

/-- The nearest natural number; a half goes up. -/
def nearest (x : Float) : Nat := x.round.toUInt32.toNat

/-- The time that is left of `before`. -/
def timeAfter (before applied : Nat) : Nat :=
  ((Json.Double.ofNat before).times ((Json.Double.ofNat 1).minus (savedShare applied))).round

/-- The saved share in tenths of a percent. -/
def savedTenths (before after : Nat) : Nat :=
  nearest (Float.ofNat (before - after) / Float.ofNat before * 100.0 * 10.0)

/-- A statement cut after 25 characters. -/
def label (text : String) : String :=
  if text.toList.length ≤ 25 then text else String.ofList (text.toList.take 25) ++ "..."

/-- The times of one statement before and after. -/
structure Comparison where
  label : String
  before : Nat
  after : Nat
  deriving DecidableEq, Repr

/-- A place in the list of improved queries. -/
structure Improvement where
  /-- The place, from 0. -/
  place : Nat
  percent : Nat
  deriving DecidableEq, Repr

variable {σ : Type} [Source σ]

/-- Simulates the times of a statement; they differ only where some index is applied. -/
def compare (anyApplied : Bool) (q : LoggedQuery) : StateM σ Comparison := do
  let before ← Source.nextInRange 500 1300
  if anyApplied then
    let u ← Source.nextUnit
    return ⟨label q.text, before, nearest (Float.ofNat before * (0.2 + u * 0.3))⟩
  else return ⟨label q.text, before, before⟩

/-- Simulates the improvement of the query at a place. -/
def improve (place : Nat) : StateM σ Improvement := do
  let jitter ← Source.nextInRange 0 6
  return ⟨place, 95 - 5 * place - jitter⟩

/-- Simulates the improvements of the first queries; there are none unless some index is applied. -/
def rank (anyApplied : Bool) (count : Nat) : StateM σ (List Improvement) :=
  if anyApplied then (List.range (min count 5)).mapM improve else return []

/-! ## Metrics -/

/-- What a dashboard shows. -/
structure Metrics where
  hasData : Bool
  beforeTime : Nat
  afterTime : Nat
  /-- The improvement in tenths of a percent. -/
  improvementTenths : Nat
  indexesCreated : Nat
  totalIndexes : Nat
  queryCount : Nat
  distribution : Distribution
  comparisons : List Comparison
  improvements : List Improvement
  deriving DecidableEq, Repr

/-- Indexes that are taken to exist besides the applied ones. -/
def otherIndexes : Nat := 4

/-- The figures for some queries and applied indexes. -/
def metrics (queries : List LoggedQuery) (applied : List AppliedIndex) : StateM σ Metrics := do
  let anyApplied := !applied.isEmpty
  let before ← Source.nextInRange 500 1000
  let after := timeAfter before applied.length
  let comparisons ← (queries.take 6).mapM (compare anyApplied)
  let improvements ← rank anyApplied queries.length
  return {
    hasData := !queries.isEmpty
    beforeTime := before
    afterTime := after
    improvementTenths := if anyApplied && 0 < before then savedTenths before after else 0
    indexesCreated := applied.length
    totalIndexes := applied.length + otherIndexes
    queryCount := queries.length
    distribution := .ofRecords applied
    comparisons := comparisons
    improvements := improvements }

/-- The metrics as they are shown. -/
def Metrics.toJson (m : Metrics) : Json := .object [
  ("hasData", .bool m.hasData),
  ("beforeTime", .nat m.beforeTime),
  ("afterTime", .nat m.afterTime),
  ("improvement", .number (.double false (.nearest m.improvementTenths 10 0))),
  ("indexesCreated", .nat m.indexesCreated),
  ("totalIndexes", .nat m.totalIndexes),
  ("queryCount", .nat m.queryCount),
  ("indexDistribution", m.distribution.toJson),
  ("comparisonData", .object [
    ("labels", .strings (m.comparisons.map Comparison.label)),
    ("beforeData", .array (m.comparisons.map fun c => .nat c.before)),
    ("afterData", .array (m.comparisons.map fun c => .nat c.after))]),
  ("improvedQueries", .array (m.improvements.map fun i => .object [
    ("query", .string ("Query #" ++ toString (i.place + 1))),
    ("improvement", .nat i.percent)]))]

end IndexAdvisor.Dashboard
