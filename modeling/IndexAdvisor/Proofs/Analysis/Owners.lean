import IndexAdvisor.Proofs.Analysis.Application
import IndexAdvisor.Proofs.Analysis.Keys
import IndexAdvisor.Random.Scripted

/-!
# Owners of records

The id of a query is read back from its key by cutting the key at its first hyphen. An id without
hyphens comes back whole, and a record that is applied under the key belongs to the queries with
this id. Of an id with hyphens only the part before the first one comes back: the record is lost to
its own query, and belongs to the queries whose id is that part.
-/

set_option autoImplicit false

namespace IndexAdvisor

namespace LoggedQuery

theorem mem_applied_iff {q : LoggedQuery} {records : List AppliedIndex} {x : AppliedIndex} :
    x ∈ q.applied records ↔ x ∈ records ∧ q.id? = some (idOfKey x.queryKey) := by
  unfold applied
  cases q.id? with
  | none => simp
  | some id => rw [List.mem_filter, beq_iff_eq, Option.some.injEq, eq_comm]

end LoggedQuery

/-! ## Records under the key of a query -/

namespace Analysis

open IndexAdvisor.Random

/-- **Whose a record is.** What is read back from the key of a query with an id is the part of the
id before its first hyphen, so it is the id itself exactly if the id has no hyphen. A record that is
applied under the key belongs to just those queries whose id is that part: to its own query if the
id has no hyphen, and then to none with another id. -/
theorem mem_applied_iff_beforeHyphen {q : LoggedQuery} {id : String} (h : q.id? = some id)
    (i : Nat) :
    idOfKey (q.key i) = beforeHyphen id ∧ (idOfKey (q.key i) = id ↔ '-' ∉ id.toList) ∧
    (∀ (b : Batch) (n : UInt32) (now : String) (x : AppliedIndex),
      b.application (q.key i) n now = .ok x → x.queryKey = q.key i) ∧
    ∀ x : AppliedIndex, x.queryKey = q.key i → ∀ records, x ∈ records →
      (∀ r : LoggedQuery, x ∈ r.applied records ↔ r.id? = some (beforeHyphen id)) ∧
      (x ∈ q.applied records ↔ '-' ∉ id.toList) ∧
      ('-' ∉ id.toList → ∀ r : LoggedQuery, r.id? ≠ some id → x ∉ r.applied records) := by
  have hid : idOfKey (q.key i) = beforeHyphen id := LoggedQuery.idOfKey_key_eq h i
  have hown : idOfKey (q.key i) = id ↔ '-' ∉ id.toList := hid ▸ beforeHyphen_eq_self_iff
  refine ⟨hid, hown, fun b n now x hx => congrArg Prod.fst (Batch.key_of_application hx), ?_⟩
  intro x hx records hmem
  have hall (r : LoggedQuery) : x ∈ r.applied records ↔ r.id? = some (beforeHyphen id) := by
    rw [LoggedQuery.mem_applied_iff, hx, hid]
    exact and_iff_right hmem
  refine ⟨hall, ?_, fun hplain r hr => ?_⟩
  · rw [hall, h, Option.some.injEq, eq_comm]
    exact beforeHyphen_eq_self_iff
  · rwa [hall, beforeHyphen_eq_self_iff.mpr hplain]

/-- A query with a hyphen in its id. -/
def hyphenQuery : LoggedQuery := ⟨some "a-b", "SELECT * FROM t WHERE x = 1", "T", "f.sql"⟩

/-- A query whose id is what the other one begins with. -/
def plainQuery : LoggedQuery := ⟨some "a", "SELECT * FROM u", "T", "f.sql"⟩

/-- What is found out about the two queries. -/
def twoQueries : Batch :=
  (Analyzer.analyzeBatch [hyphenQuery, plainQuery] (.start (Scripted.start [0] [0]) .empty)).1

/-- A record under the key of the second query belongs to it, and not to the first one. -/
theorem mem_applied_plainQuery :
    ∃ x, twoQueries.application "a-1" 1 "T" = .ok x ∧ plainQuery.id? = some "a" ∧
      x ∈ plainQuery.applied [x] ∧ x ∉ hyphenQuery.applied [x] := by
  have hid : plainQuery.id? = some "a" := by decide
  obtain ⟨-, -, hkey, hrecords⟩ := mem_applied_iff_beforeHyphen hid 1
  have happlied : twoQueries.application (plainQuery.key 1) 1 "T" = .ok (.ofRecommendation "a-1"
      (.make 1 .bTree "u" ["id"] 35 Advice.fallbackReason none) "T") := by decide +kernel
  obtain ⟨-, hown, hothers⟩ :=
    hrecords _ (hkey _ _ _ _ happlied) [_] List.mem_cons_self
  exact ⟨_, happlied, hid, hown.mpr (by decide), hothers (by decide) hyphenQuery (by decide)⟩

/-- A record under the key of the first query is lost to it, and goes to the second one. -/
theorem applied_hyphenQuery :
    hyphenQuery.id? = some "a-b" ∧ idOfKey (hyphenQuery.key 0) = "a" ∧
    ∃ x, twoQueries.application (hyphenQuery.key 0) 1 "T" = .ok x ∧
      hyphenQuery.applied [x] = [] ∧ plainQuery.applied [x] = [x] := by
  refine ⟨by decide, by decide, .ofRecommendation "a-b-0"
    (.make 1 .hash "t" ["x"] 40 Advice.hashReason (some .eq)) "T", ?_⟩
  decide +kernel

end Analysis

end IndexAdvisor
