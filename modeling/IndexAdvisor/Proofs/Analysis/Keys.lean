import IndexAdvisor.AppliedIndex
import IndexAdvisor.Proofs.Analysis.Batch
import Mathlib.Data.List.TakeWhile

/-!
# Keys of a batch

A key ends in the position of its query, behind a hyphen or behind the letter `q`, so no two queries
of a batch have the same key, whatever their ids are. A batch therefore has one bundle for each
query, in order. Within a bundle the recommendations have different numbers.
-/

set_option autoImplicit false

namespace IndexAdvisor

/-! ## Keys -/

theorem hyphen_notMem_toDigits (n : Nat) : '-' ∉ Nat.toDigits 10 n := by
  intro h
  exact absurd (Json.isDigit_of_mem_toDigits h) (by decide)

theorem toDigits_injective {i j : Nat} (h : Nat.toDigits 10 i = Nat.toDigits 10 j) : i = j := by
  have hread := congrArg Text.natural? h
  rw [Text.natural?_toDigits, Text.natural?_toDigits] at hread
  exact Option.some.inj hread

/-- The part of a text before its first hyphen, which is all of it if there is none. -/
def beforeHyphen (text : String) : String := String.ofList (text.toList.takeWhile (· != '-'))

theorem idOfKey_eq_beforeHyphen (key : String) : idOfKey key = beforeHyphen key := by
  rw [idOfKey, beforeHyphen, ← Text.getD_splitAtFirst?]
  cases Text.splitAtFirst? '-' key.toList with
  | none => exact String.ofList_toList.symm
  | some parts => rfl

theorem beforeHyphen_eq_self_iff {text : String} :
    beforeHyphen text = text ↔ '-' ∉ text.toList := by
  rw [← String.toList_inj, beforeHyphen, String.toList_ofList, List.takeWhile_eq_self_iff]
  constructor
  · intro h hmem
    exact absurd (h '-' hmem) (by decide)
  · intro h c hc
    exact bne_iff_ne.mpr fun heq => h (heq ▸ hc)

namespace LoggedQuery

theorem toList_key_of_id {q : LoggedQuery} {id : String} (h : q.id? = some id) (i : Nat) :
    (q.key i).toList = id.toList ++ '-' :: Nat.toDigits 10 i := by
  simp only [key, h, String.toList_append, Nat.toString_eq_repr, Nat.toList_repr, List.append_assoc]
  rfl

theorem toList_key_of_none {q : LoggedQuery} (h : q.id? = none) (i : Nat) :
    (q.key i).toList = 'q' :: Nat.toDigits 10 i := by
  simp only [key, h, String.toList_append, Nat.toString_eq_repr, Nat.toList_repr]
  rfl

/-- A key without an id has no hyphen. -/
theorem hyphen_notMem_key {q : LoggedQuery} (h : q.id? = none) (i : Nat) :
    '-' ∉ (q.key i).toList := by
  rw [toList_key_of_none h, List.mem_cons, not_or]
  exact ⟨by decide, hyphen_notMem_toDigits i⟩

/-- A key with an id is cut at its last hyphen into the id and the position. -/
theorem splitAtLast?_key {q : LoggedQuery} {id : String} (h : q.id? = some id) (i : Nat) :
    Text.splitAtLast? '-' (q.key i).toList = some (id.toList, Nat.toDigits 10 i) := by
  rw [toList_key_of_id h, Text.splitAtLast?_append (hyphen_notMem_toDigits i)]

/-- **A key gives its position back**, whatever the ids are. -/
theorem position_eq_of_key_eq {q r : LoggedQuery} {i j : Nat} (h : q.key i = r.key j) : i = j := by
  -- a key without an id holds no hyphen, and one with an id has its position behind the last one
  cases hq : q.id? with
  | none =>
      cases hr : r.id? with
      | none =>
          have hlist := congrArg String.toList h
          rw [toList_key_of_none hq, toList_key_of_none hr] at hlist
          exact toDigits_injective (List.cons.inj hlist).2
      | some id =>
          refine absurd ?_ (hyphen_notMem_key hq i)
          rw [h, toList_key_of_id hr]
          exact List.mem_append_right _ List.mem_cons_self
  | some id =>
      cases hr : r.id? with
      | none =>
          refine absurd ?_ (hyphen_notMem_key hr j)
          rw [← h, toList_key_of_id hq]
          exact List.mem_append_right _ List.mem_cons_self
      | some id' =>
          have hsplit := splitAtLast?_key hq i
          rw [h, splitAtLast?_key hr] at hsplit
          exact toDigits_injective (Prod.mk.inj (Option.some.inj hsplit)).2.symm

/-- What is read back from a key with an id. -/
theorem idOfKey_key_eq {q : LoggedQuery} {id : String} (h : q.id? = some id) (i : Nat) :
    idOfKey (q.key i) = beforeHyphen id := by
  have hcut : (id.toList ++ '-' :: Nat.toDigits 10 i).takeWhile (· != '-') =
      id.toList.takeWhile (· != '-') := by
    rw [List.takeWhile_append, List.takeWhile_cons_of_neg (by simp), List.append_nil,
      ite_eq_right_iff]
    intro hlength
    exact ((List.takeWhile_prefix _).eq_of_length hlength).symm
  rw [idOfKey_eq_beforeHyphen, beforeHyphen, toList_key_of_id h, hcut, beforeHyphen]

/-- An id without hyphens comes back whole. -/
theorem idOfKey_key {q : LoggedQuery} {id : String} (h : q.id? = some id)
    (hid : '-' ∉ id.toList) (i : Nat) : idOfKey (q.key i) = id := by
  rw [idOfKey_key_eq h, beforeHyphen_eq_self_iff.mpr hid]

/-- The keys of queries at positions from `n` on. -/
def keysFrom (n : Nat) (qs : List LoggedQuery) : List String :=
  (qs.zipIdx n).map fun e => e.1.key e.2

theorem keysFrom_cons (n : Nat) (q : LoggedQuery) (qs : List LoggedQuery) :
    keysFrom n (q :: qs) = q.key n :: keysFrom (n + 1) qs := rfl

/-- The keys at later positions are other ones. -/
theorem key_notMem_keysFrom {n i : Nat} (h : i < n) (q : LoggedQuery) (qs : List LoggedQuery) :
    q.key i ∉ keysFrom n qs := by
  intro hmem
  obtain ⟨⟨r, j⟩, hr, hkey⟩ := List.mem_map.mp hmem
  have hj : n ≤ j := (List.mem_zipIdx hr).1
  have hij : i = j := (position_eq_of_key_eq hkey).symm
  omega

theorem nodup_keysFrom (n : Nat) (qs : List LoggedQuery) : (keysFrom n qs).Nodup := by
  induction qs generalizing n with
  | nil => exact List.nodup_nil
  | cons q qs ih =>
      rw [keysFrom_cons, List.nodup_cons]
      exact ⟨key_notMem_keysFrom (Nat.lt_succ_self n) q qs, ih (n + 1)⟩

end LoggedQuery

/-! ## The batch of an analysis -/

namespace Analysis.Analyzer

open IndexAdvisor.Random

variable {σ : Type} [Source σ]

theorem queryKey_analyzeAt (position : Nat) (q : LoggedQuery) (a : Analyzer σ) :
    (analyzeAt position q a).1.queryKey = q.key position := rfl

theorem keys_bundlesFrom (position : Nat) (qs : List LoggedQuery) (a : Analyzer σ) :
    (bundlesFrom position qs a).1.map Bundle.queryKey = LoggedQuery.keysFrom position qs := by
  induction qs generalizing position a with
  | nil => rfl
  | cons q qs ih =>
      rw [bundlesFrom_cons, LoggedQuery.keysFrom_cons, List.map_cons, ih, queryKey_analyzeAt]

theorem nodup_keys_bundlesFrom (position : Nat) (qs : List LoggedQuery) (a : Analyzer σ) :
    ((bundlesFrom position qs a).1.map Bundle.queryKey).Nodup := by
  rw [keys_bundlesFrom]
  exact LoggedQuery.nodup_keysFrom position qs

/-- **A batch has one bundle for each query**, in order. -/
theorem bundles_analyzeBatch (qs : List LoggedQuery) (a : Analyzer σ) :
    (analyzeBatch qs a).1.bundles = (bundlesFrom 0 qs a).1 := by
  rw [fst_analyzeBatch, Batch.bundles_ofBundles_of_nodup (nodup_keys_bundlesFrom 0 qs a)]

theorem keys_eq_map_queryKey (qs : List LoggedQuery) (a : Analyzer σ) :
    (analyzeBatch qs a).1.keys = (analyzeBatch qs a).1.bundles.map Bundle.queryKey :=
  (inStep_analyzeBatch qs a).map_queryKey_bundles.symm

theorem keys_analyzeBatch (qs : List LoggedQuery) (a : Analyzer σ) :
    (analyzeBatch qs a).1.keys = LoggedQuery.keysFrom 0 qs := by
  rw [keys_eq_map_queryKey, bundles_analyzeBatch, keys_bundlesFrom]

theorem nodup_keys_analyzeBatch (qs : List LoggedQuery) (a : Analyzer σ) :
    (analyzeBatch qs a).1.keys.Nodup := (inStep_analyzeBatch qs a).nodup

/-! ## Numbers -/

/-- Numbers from 1 on are different, as long as there are enough of them. -/
theorem nodup_ids_mapIdx_numbered {ds : List Advice.Draft} (h : ds.length < UInt32.size) :
    ((ds.mapIdx Advice.Draft.numbered).map Recommendation.id).Nodup := by
  have hnat : ((ds.mapIdx Advice.Draft.numbered).map fun r => r.id.toNat).Nodup := by
    rw [Advice.map_toNat_id_numbered h]
    exact List.nodup_range'
  rw [← Function.comp_def UInt32.toNat, ← List.map_map] at hnat
  exact hnat.of_map _

/-- What is recommended for a statement is numbered in order. -/
theorem exists_numbered_of_mem_bundlesFrom {position : Nat} {qs : List LoggedQuery}
    {a : Analyzer σ} {b : Bundle} (h : b ∈ (bundlesFrom position qs a).1) :
    ∃ ds : List Advice.Draft, b.recommendations = ds.mapIdx Advice.Draft.numbered := by
  induction qs generalizing position a with
  | nil => cases h
  | cons q qs ih =>
      rw [bundlesFrom_cons] at h
      rcases List.mem_cons.mp h with rfl | h
      · exact ⟨_, rfl⟩
      · exact ih h

/-- The numbers in a bundle are different. -/
theorem nodup_ids_analyzeBatch {qs : List LoggedQuery} {a : Analyzer σ} {b : Bundle}
    (hb : b ∈ (analyzeBatch qs a).1.bundles) (h : b.recommendations.length < UInt32.size) :
    (b.recommendations.map Recommendation.id).Nodup := by
  rw [bundles_analyzeBatch] at hb
  obtain ⟨ds, hds⟩ := exists_numbered_of_mem_bundlesFrom hb
  rw [hds, List.length_mapIdx] at h
  rw [hds]
  exact nodup_ids_mapIdx_numbered h

end Analysis.Analyzer

end IndexAdvisor
