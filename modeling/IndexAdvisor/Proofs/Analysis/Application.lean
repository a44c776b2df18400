import IndexAdvisor.Analysis.Application
import Mathlib.Data.List.Nodup

/-!
# What is applied

A set of applied recommendations has the pairs of key and number of the records that it is made
from, each once. The record of a chosen recommendation has the pair that it was chosen by.
-/

set_option autoImplicit false

namespace IndexAdvisor

namespace AppliedSet

/-- Adds the recommendation of a record. -/
theorem contains_foldl_insert (s : AppliedSet) (records : List AppliedIndex) (queryKey : String)
    (id : UInt32) :
    (records.foldl (fun s a => s.insert a.queryKey a.id) s).contains queryKey id = true ↔
      (queryKey, id) ∈ records.map AppliedIndex.key ∨ s.contains queryKey id = true := by
  induction records generalizing s with
  | nil => simp
  | cons a records ih =>
      rw [List.foldl_cons, ih, contains_insert, Bool.or_eq_true, beq_iff_eq, List.map_cons,
        List.mem_cons, ← or_assoc]
      exact or_congr_left or_comm

/-- **A set of records** contains what the records are of. -/
theorem contains_ofRecords {records : List AppliedIndex} {queryKey : String} {id : UInt32} :
    (ofRecords records).contains queryKey id = true ↔
      (queryKey, id) ∈ records.map AppliedIndex.key := by
  rw [ofRecords, contains_foldl_insert]
  exact or_iff_left Bool.false_ne_true

theorem size_foldl_insert {s : AppliedSet} {records : List AppliedIndex}
    (h : (records.map AppliedIndex.key).Nodup)
    (hs : ∀ a ∈ records, s.contains a.queryKey a.id = false) :
    (records.foldl (fun s a => s.insert a.queryKey a.id) s).size = s.size + records.length := by
  induction records generalizing s with
  | nil => rfl
  | cons a records ih =>
      rw [List.map_cons, List.nodup_cons] at h
      have ha : s.contains a.queryKey a.id = false := hs a List.mem_cons_self
      have hinsert : s.insert a.queryKey a.id = ⟨a.key :: s.pairs⟩ := by
        rw [insert, if_neg (by rw [ha]; exact Bool.false_ne_true)]
        rfl
      rw [List.foldl_cons, ih h.2]
      · rw [hinsert, List.length_cons]
        show s.pairs.length + 1 + records.length = s.pairs.length + (records.length + 1)
        omega
      · -- What is to come is neither in the set nor has just been added.
        intro b hb
        have hne : (b.queryKey, b.id) ≠ (a.queryKey, a.id) := by
          intro heq
          exact h.1 (List.mem_map.mpr ⟨b, hb, heq⟩)
        rw [contains_insert, hs b (List.mem_cons_of_mem a hb), beq_eq_false_iff_ne.mpr hne]
        rfl

/-- Different records make as many elements. -/
theorem size_ofRecords {records : List AppliedIndex}
    (h : (records.map AppliedIndex.key).Nodup) : (ofRecords records).size = records.length := by
  rw [ofRecords, size_foldl_insert h fun _ _ => rfl]
  exact Nat.zero_add _

end AppliedSet

namespace Analysis.Batch

/-- A recommendation is chosen from the bundle with the key, and has the number. -/
theorem choose_eq_ok_iff {b : Batch} {queryKey : String} {id : UInt32} {r : Recommendation} :
    b.choose queryKey id = .ok r ↔
      ∃ x, b.get? queryKey = some x ∧ x.recommendation? id = some r := by
  unfold choose
  cases b.get? queryKey with
  | none => simp
  | some x =>
      simp only [Option.some.injEq, exists_eq_left']
      cases x.recommendation? id with
      | none => simp
      | some r' => simp

/-- The record of a chosen recommendation. -/
theorem application_eq_ok_iff {b : Batch} {queryKey now : String} {id : UInt32}
    {a : AppliedIndex} : b.application queryKey id now = .ok a ↔
      ∃ r, b.choose queryKey id = .ok r ∧ a = .ofRecommendation queryKey r now := by
  unfold application
  cases b.choose queryKey id with
  | error e => simp [bind, Except.bind]
  | ok r => simp [bind, Except.bind, eq_comm]

theorem id_of_recommendation? {x : Bundle} {id : UInt32} {r : Recommendation}
    (h : x.recommendation? id = some r) : r.id = id := by
  have hid := List.find?_some h
  exact beq_iff_eq.mp hid

/-- The record is of what was asked for. -/
theorem key_of_application {b : Batch} {queryKey now : String} {id : UInt32} {a : AppliedIndex}
    (h : b.application queryKey id now = .ok a) : a.key = (queryKey, id) := by
  obtain ⟨r, hr, rfl⟩ := application_eq_ok_iff.mp h
  obtain ⟨x, -, hx⟩ := choose_eq_ok_iff.mp hr
  show (queryKey, r.id) = (queryKey, id)
  rw [id_of_recommendation? hx]

end Analysis.Batch

end IndexAdvisor
