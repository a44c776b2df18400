import IndexAdvisor.Proofs.Analysis.Growth
import IndexAdvisor.Random.Scripted

/-!
# Positions in a batch

The bundle at a position of a batch is what the analyzer finds out about the query at this position,
with the source as the queries before it leave it. Its key is met nowhere else in the batch, so it
is found by it, even where the id of another query looks like a key or begins like one.
-/

set_option autoImplicit false

namespace IndexAdvisor

namespace LoggedQuery

theorem keysFrom_zero (qs : List LoggedQuery) : keysFrom 0 qs = qs.mapIdx fun i q => q.key i := by
  rw [keysFrom, List.mapIdx_eq_zipIdx_map]

end LoggedQuery

namespace Analysis.Analyzer

open IndexAdvisor.Random

section Positions

variable {σ : Type} [Source σ]

/-- A bundle comes from the analyzer as the queries before it leave it. -/
theorem getElem?_bundlesFrom (position : Nat) (qs : List LoggedQuery) (a : Analyzer σ) (i : Nat) :
    (bundlesFrom position qs a).1[i]? = qs[i]?.map fun q =>
      (analyzeAt (position + i) q (bundlesFrom position (qs.take i) a).2).1 := by
  induction qs generalizing position a i with
  | nil => rfl
  | cons q qs ih =>
      cases i with
      | zero =>
          rw [bundlesFrom_cons]
          rfl
      | succ i =>
          rw [bundlesFrom_cons, List.take_succ_cons, bundlesFrom_cons, List.getElem?_cons_succ, ih,
            List.getElem?_cons_succ, Nat.add_right_comm]
          rfl

theorem getElem?_bundles (qs : List LoggedQuery) (a : Analyzer σ) (i : Nat) :
    (analyzeBatch qs a).1.bundles[i]? = qs[i]?.map fun q =>
      (analyzeAt i q (bundlesFrom 0 (qs.take i) a).2).1 := by
  rw [bundles_analyzeBatch, getElem?_bundlesFrom, Nat.zero_add]

theorem keys_eq_mapIdx (qs : List LoggedQuery) (a : Analyzer σ) :
    (analyzeBatch qs a).1.keys = qs.mapIdx fun i q => q.key i := by
  rw [keys_analyzeBatch, LoggedQuery.keysFrom_zero]

/-- The key of a bundle leads to this bundle and to no other. -/
theorem get?_queryKey {qs : List LoggedQuery} {a : Analyzer σ} {i : Nat} {x : Bundle}
    (h : (analyzeBatch qs a).1.bundles[i]? = some x) :
    (analyzeBatch qs a).1.get? x.queryKey = some x :=
  (inStep_analyzeBatch qs a).get?_eq_some_iff.mpr ⟨List.mem_of_getElem? h, rfl⟩

/-- **A batch loses no query.** Whatever the ids are, no two queries have the same key; the batch
has as many bundles as there are queries, and their keys in order. The key at a position leads to
the bundle of the query there, which is what the analyzer finds out about it after the queries
before it, with its text, its time and its file name as they were logged. -/
theorem get?_key_analyzeBatch (qs : List LoggedQuery) (a : Analyzer σ) :
    let batch := (analyzeBatch qs a).1
    (qs.mapIdx fun i q => q.key i).Nodup ∧ batch.size = qs.length ∧
    batch.keys = (qs.mapIdx fun i q => q.key i) ∧
    ∀ (i : Nat) (q : LoggedQuery), qs[i]? = some q →
      ∃ x, batch.keys[i]? = some (q.key i) ∧ batch.get? (q.key i) = some x ∧
        batch.bundles[i]? = some x ∧
        x = (analyzeAt i q (bundlesFrom 0 (qs.take i) a).2).1 ∧ x.queryKey = q.key i ∧
        x.sql = q.text ∧ x.timestamp = q.timestamp ∧ x.fileName = q.fileName := by
  intro batch
  have hkeys : batch.keys = qs.mapIdx fun i q => q.key i := keys_eq_mapIdx qs a
  refine ⟨hkeys ▸ nodup_keys_analyzeBatch qs a, size_analyzeBatch qs a, hkeys, fun i q hq => ?_⟩
  have hx : batch.bundles[i]? = some (analyzeAt i q (bundlesFrom 0 (qs.take i) a).2).1 := by
    rw [getElem?_bundles, hq]
    rfl
  have hkey : batch.keys[i]? = some (q.key i) := by
    rw [hkeys, List.getElem?_mapIdx, hq]
    rfl
  exact ⟨_, hkey, get?_queryKey hx, hx, rfl, rfl, rfl, rfl, rfl⟩

end Positions

/-- Ids that look like keys take no bundle from other queries. -/
theorem get?_key_of_misleading_ids :
    let query (id : Option String) (text : String) : LoggedQuery := ⟨id, text, "T", "f.sql"⟩
    let qs := [query (some "q1") "SELECT 1", query none "SELECT 2", query (some " ") "SELECT 3",
      query (some "a-1") "SELECT 4", query (some "a") "SELECT 5"]
    let batch := (analyzeBatch qs (.start (Scripted.start [0] [0]) .empty)).1
    batch.keys = ["q1-0", "q1", "q2", "a-1-3", "a-4"] ∧
      (batch.get? "q1").map Bundle.sql = some "SELECT 2" ∧
      (batch.get? "a-4").map Bundle.sql = some "SELECT 5" := by
  intro query qs batch
  obtain ⟨-, -, hkeys, hget⟩ :=
    get?_key_analyzeBatch qs (.start (Scripted.start [0] [0]) .empty)
  obtain ⟨x, -, hx, -, -, -, hsecond, -⟩ := hget 1 (query none "SELECT 2") rfl
  obtain ⟨y, -, hy, -, -, -, hfifth, -⟩ := hget 4 (query (some "a") "SELECT 5") rfl
  refine ⟨hkeys.trans (by decide), ?_, ?_⟩
  · exact (congrArg (Option.map Bundle.sql) hx).trans (congrArg some hsecond)
  · exact (congrArg (Option.map Bundle.sql) hy).trans (congrArg some hfifth)

end Analysis.Analyzer

end IndexAdvisor
