import IndexAdvisor.Random.Source
import IndexAdvisor.Recommendation
import IndexAdvisor.Sql.Cardinality
import IndexAdvisor.Text.Split

/-!
# Advice

The rules that turn the features of a statement into recommendations: one for each condition, one
or two for each join pair, one for the ordering, and a general one where no other rule applies. How
much each helps is drawn from a random source.
-/

set_option autoImplicit false

namespace IndexAdvisor.Advice

open IndexAdvisor.Random
open IndexAdvisor.Sql

/-! ## Reasons -/

/-- The reason for a bitmap index. -/
def bitmapReason : String :=
  "Low-cardinality column with equality filter - bitmap provides compact storage"

/-- The reason for a hash index. -/
def hashReason : String := "Frequent equality comparisons - hash index provides O(1) lookups"

/-- The reason for an index on a pattern. -/
def patternReason : String := "Pattern matching queries benefit from B-tree indexes"

/-- The reason for an index on a range. -/
def rangeReason : String := "Range-based filtering - B-tree supports efficient range scans"

/-- The reason for an index on the left column of a join. -/
def joinReason : String := "Improves join performance"

/-- The reason for an index on the right column of a join. -/
def secondaryJoinReason : String := "Improves join performance on secondary table"

/-- The reason for an index on an ordering. -/
def orderReason : String := "Improves ORDER BY performance"

/-- The reason for the general recommendation. -/
def fallbackReason : String := "General improvement for primary key lookups"

/-! ## Drafts -/

/-- A recommendation before it has a number. -/
structure Draft where
  kind : Index.Kind
  table : String
  columns : List String
  improvement : UInt8
  reason : String
  operator : Option Operator
  deriving DecidableEq, Repr

/-- The recommendation at a position, counted from 0. -/
def Draft.numbered (position : Nat) (d : Draft) : Recommendation :=
  .make (.ofNat (position + 1)) d.kind d.table d.columns d.improvement d.reason d.operator

theorem id_of_getElem?_numbered {ds : List Draft} {k : Nat} {r : Recommendation}
    (h : (ds.mapIdx Draft.numbered)[k]? = some r) : r.id = .ofNat (k + 1) := by
  rw [List.getElem?_mapIdx, Option.map_eq_some_iff] at h
  obtain ⟨d, -, rfl⟩ := h
  rfl

/-- The numbers count from 1, as long as there are enough of them. -/
theorem map_toNat_id_numbered {ds : List Draft} (h : ds.length < UInt32.size) :
    (ds.mapIdx Draft.numbered).map (fun r => r.id.toNat) = List.range' 1 ds.length := by
  have hsize : UInt32.size = 4294967296 := rfl
  refine List.ext_getElem (by simp) fun k hk hk' => ?_
  rw [List.length_range'] at hk'
  rw [List.getElem_map, List.getElem_mapIdx, List.getElem_range']
  show (UInt32.ofNat (k + 1)).toNat = 1 + 1 * k
  rw [UInt32.toNat_ofNat', Nat.mod_eq_of_lt (by omega)]
  omega

/-! ## Rules -/

variable {σ : Type} [Source σ]

/-- Draws an improvement, at most 100. -/
def drawImprovement (low high : Nat) : StateM σ UInt8 := do
  return .ofNat (min (← Source.nextInRange low high) 100)

/-- The kind of index that a condition asks for, and why. -/
def kindFor (p : Predicate) : Index.Kind × String :=
  match p.operator with
  | .eq => if cardinality p.column = .low then (.bitmap, bitmapReason) else (.hash, hashReason)
  | .like => (.bTree, patternReason)
  | _ => (.bTree, rangeReason)

/-- The table that a condition is about. -/
def predicateTable (f : Features) (p : Predicate) : String :=
  match p.table with
  | some qualifier => f.resolveTable qualifier
  | none => f.primaryTable

/-- The draft for a condition. -/
def forPredicate (f : Features) (p : Predicate) : StateM σ Draft := do
  let improvement ← drawImprovement 40 80
  let (kind, reason) := kindFor p
  return ⟨kind, predicateTable f p, [p.column], improvement, reason, some p.operator⟩

/-- The drafts for a join pair: one for the left column, and where a coin says so a second one,
which helps a little less, for the right column. -/
def forJoinPair (f : Features) (p : JoinPair) : StateM σ (List Draft) := do
  let improvement ← drawImprovement 50 80
  let left : Draft :=
    ⟨.bTree, f.resolveTable p.leftTable, [p.leftColumn], improvement, joinReason, none⟩
  if ← coinFlip then
    let penalty := UInt8.ofNat (← Source.nextInRange 0 10)
    let right : Draft :=
      ⟨.bTree, f.resolveTable p.rightTable, [p.rightColumn],
        .ofNat (improvement.toNat - penalty.toNat), secondaryJoinReason, none⟩
    return [left, right]
  else return [left]

/-- The table and the plain name of an ORDER BY column. -/
def orderOwner (f : Features) (column : String) : String × String :=
  match Text.splitAtLast? '.' column.toList with
  | some (qualifier, name) => (f.resolveTable (String.ofList qualifier), String.ofList name)
  | none => (f.primaryTable, column)

/-- The table that an ordering is about and its columns of that table: the first table if a column
belongs to it, else the table of the first column. -/
def orderTarget? (f : Features) : Option (String × List String) :=
  let owned := f.orderColumns.map (orderOwner f)
  match owned with
  | [] => none
  | first :: _ =>
    let table := if owned.any fun o => o.1 == f.primaryTable then f.primaryTable else first.1
    some (table, (owned.filter fun o => o.1 == table).map Prod.snd)

/-- The draft for the ordering, if there is one. -/
def forOrder (f : Features) : StateM σ (List Draft) :=
  if f.hasOrderBy then
    match orderTarget? f with
    | some (table, columns) => do
      let improvement ← drawImprovement 30 60
      return [⟨.bTree, table, columns, improvement, orderReason, none⟩]
    | none => return []
  else return []

/-- The general draft. -/
def fallback (f : Features) : Draft :=
  ⟨.bTree, f.primaryTable, ["id"], 35, fallbackReason, none⟩

/-- The drafts of all rules, in order. -/
def ruleDrafts (f : Features) : StateM σ (List Draft) := do
  let conditions ← f.predicates.mapM (forPredicate f)
  let joins ← f.joinPairs.mapM (forJoinPair f)
  let order ← forOrder f
  return conditions ++ joins.flatten ++ order

/-- The drafts for a statement: those of the rules, else the general one. -/
def drafts (f : Features) : StateM σ (List Draft) := do
  let ds ← ruleDrafts f
  return if ds.isEmpty then [fallback f] else ds

/-- The recommendations for a statement, numbered from 1. -/
def recommend (f : Features) : StateM σ (List Recommendation) := do
  return (← drafts f).mapIdx Draft.numbered

end IndexAdvisor.Advice
