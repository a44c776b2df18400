import IndexAdvisor.Analysis.Analyzer
import IndexAdvisor.Proofs.Json.Layout
import Mathlib.Data.List.Basic
import Mathlib.Data.List.Induction
import Mathlib.Data.List.Nodup

/-!
# Batches in step

A batch has its bundles in a map and the order of the keys in a list, and the bundles are read off
along the list, where a key without a bundle would be passed over. The two are in step (`InStep`) if
the list has the keys of the map, each once, and under each key there is a bundle with this key.
Putting one more bundle keeps them in step, so they are in step in every batch that is made from
bundles or by an analysis.

A batch that is in step is known by its bundles (`InStep.ext`). So it is the same batch that is made
again from them, also if they are written and read before.
-/

set_option autoImplicit false

namespace IndexAdvisor.Analysis

namespace Batch

variable {b c : Batch} {x : Bundle} {key : String}

/-! ## Keys and bundles -/

/-- The keys and the bundles of a batch are in step. -/
structure InStep (b : Batch) : Prop where
  nodup : b.keys.Nodup
  mem_keys_iff : ∀ key, key ∈ b.keys ↔ (b.get? key).isSome
  queryKey_eq : ∀ key x, b.get? key = some x → x.queryKey = key

theorem inStep_empty : InStep empty where
  nodup := List.nodup_nil
  mem_keys_iff key := by
    rw [get?_empty]
    exact iff_of_false List.not_mem_nil Bool.false_ne_true
  queryKey_eq key x h := by
    rw [get?_empty] at h
    cases h

namespace InStep

theorem mem_found_iff (h : b.InStep) : key ∈ b.found ↔ key ∈ b.keys :=
  Batch.mem_found_iff.trans (h.mem_keys_iff key).symm

theorem keys_put_of_mem (h : b.InStep) (hx : x.queryKey ∈ b.keys) : (b.put x).keys = b.keys :=
  if_pos (h.mem_found_iff.mpr hx)

theorem keys_put_of_notMem (h : b.InStep) (hx : x.queryKey ∉ b.keys) :
    (b.put x).keys = b.keys ++ [x.queryKey] :=
  if_neg fun hfound => hx (h.mem_found_iff.mp hfound)

theorem mem_keys_put (h : b.InStep) : key ∈ (b.put x).keys ↔ x.queryKey = key ∨ key ∈ b.keys := by
  by_cases hx : x.queryKey ∈ b.keys
  · rw [h.keys_put_of_mem hx]
    constructor
    · exact Or.inr
    · rintro (rfl | hmem)
      · exact hx
      · exact hmem
  · rw [h.keys_put_of_notMem hx, List.mem_append, List.mem_singleton, or_comm, eq_comm]

/-- **One bundle more** leaves the keys and the bundles in step. -/
theorem put (h : b.InStep) (x : Bundle) : (b.put x).InStep where
  nodup := by
    by_cases hx : x.queryKey ∈ b.keys
    · rw [h.keys_put_of_mem hx]
      exact h.nodup
    · rw [h.keys_put_of_notMem hx, ← List.concat_eq_append]
      exact h.nodup.concat hx
  mem_keys_iff key := by
    rw [h.mem_keys_put, get?_put]
    split
    · next hkey => exact iff_of_true (Or.inl hkey) rfl
    · next hkey => rw [or_iff_right hkey, h.mem_keys_iff]
  queryKey_eq key y hy := by
    rw [get?_put] at hy
    split at hy
    · next hkey =>
      obtain rfl := Option.some.inj hy
      exact hkey
    · exact h.queryKey_eq key y hy

theorem map_queryKey_get? (h : b.InStep) (hkey : key ∈ b.keys) :
    (b.get? key).map Bundle.queryKey = some key := by
  obtain ⟨x, hx⟩ := Option.isSome_iff_exists.mp ((h.mem_keys_iff key).mp hkey)
  rw [hx, Option.map_some, h.queryKey_eq key x hx]

/-- The bundles have the keys of the batch, in order. -/
theorem map_queryKey_bundles (h : b.InStep) : b.bundles.map Bundle.queryKey = b.keys := by
  calc b.bundles.map Bundle.queryKey
      = b.keys.filterMap fun key => (b.get? key).map Bundle.queryKey := List.map_filterMap
    _ = b.keys.filterMap some := List.filterMap_congr fun key hkey => h.map_queryKey_get? hkey
    _ = b.keys := List.filterMap_some

theorem length_bundles (h : b.InStep) : b.bundles.length = b.size := by
  rw [size, ← h.map_queryKey_bundles, List.length_map]

/-- A bundle is found by its own key, and what is found by a key is a bundle that has it. -/
theorem get?_eq_some_iff (h : b.InStep) :
    b.get? key = some x ↔ x ∈ b.bundles ∧ x.queryKey = key := by
  constructor
  · intro hx
    have hkey : key ∈ b.keys := (h.mem_keys_iff key).mpr (Option.isSome_of_eq_some hx)
    exact ⟨List.mem_filterMap.mpr ⟨key, hkey, hx⟩, h.queryKey_eq key x hx⟩
  · rintro ⟨hmem, rfl⟩
    obtain ⟨key, -, hx⟩ := List.mem_filterMap.mp hmem
    rwa [h.queryKey_eq key x hx]

/-- A key leads to the first bundle that has it. -/
theorem get?_eq_find? (h : b.InStep) (key : String) :
    b.get? key = b.bundles.find? fun x => x.queryKey == key := by
  cases hfound : b.bundles.find? fun x => x.queryKey == key with
  | some x =>
      have hkey := List.find?_some hfound
      exact h.get?_eq_some_iff.mpr ⟨List.mem_of_find?_eq_some hfound, beq_iff_eq.mp hkey⟩
  | none =>
      apply Option.eq_none_iff_forall_ne_some.mpr
      intro x hx
      obtain ⟨hmem, hkey⟩ := h.get?_eq_some_iff.mp hx
      exact List.find?_eq_none.mp hfound x hmem (beq_iff_eq.mpr hkey)

/-- Along the keys no bundle is passed over. -/
theorem map_get?_keys (h : b.InStep) : b.keys.map b.get? = b.bundles.map some := by
  rw [← h.map_queryKey_bundles, List.map_map]
  exact List.map_congr_left fun x hx => h.get?_eq_some_iff.mpr ⟨hx, rfl⟩

/-- **A batch that is in step is known by its bundles.** -/
theorem ext (hb : b.InStep) (hc : c.InStep) (h : b.bundles = c.bundles) : b = c := by
  have hkeys : b.keys = c.keys := by
    rw [← hb.map_queryKey_bundles, ← hc.map_queryKey_bundles, h]
  have hfound : b.found = c.found := by
    apply Std.ExtTreeMap.ext_getElem?
    intro key
    apply Option.ext
    intro x
    exact (hb.get?_eq_some_iff.trans (h ▸ Iff.rfl)).trans hc.get?_eq_some_iff.symm
  cases b
  cases c
  exact congr (congrArg Batch.mk hfound) hkeys

/-- A bundle with a new key is read off behind the others. -/
theorem bundles_put_of_notMem (h : b.InStep) (hx : x.queryKey ∉ b.keys) :
    (b.put x).bundles = b.bundles ++ [x] := by
  have hothers : b.keys.filterMap (b.put x).get? = b.keys.filterMap b.get? :=
    List.filterMap_congr fun key hkey => get?_put_of_ne b fun heq => hx (heq ▸ hkey)
  have hlast : [x.queryKey].filterMap (b.put x).get? = [x] := by
    rw [List.filterMap_cons_some (get?_put_self b x), List.filterMap_nil]
  rw [bundles, h.keys_put_of_notMem hx, List.filterMap_append, hothers, hlast, bundles]

end InStep

/-! ## Batches from bundles -/

/-- **Every batch that is made from bundles is in step.** -/
theorem inStep_ofBundles (xs : List Bundle) : (ofBundles xs).InStep := by
  induction xs using List.reverseRecOn with
  | nil => exact inStep_empty
  | append_singleton xs x ih =>
      rw [ofBundles_concat]
      exact ih.put x

/-- A value more comes behind the others, if it is not among them. -/
theorem eraseDups_concat (ids : List String) (id : String) :
    (ids ++ [id]).eraseDups = if id ∈ ids then ids.eraseDups else ids.eraseDups ++ [id] := by
  rw [List.eraseDups_append]
  split
  · next h => simp [List.removeAll, h]
  · next h => simp [List.removeAll, h, List.eraseDups_cons]

/-- The keys stand in the order in which they first came. -/
theorem keys_ofBundles (xs : List Bundle) :
    (ofBundles xs).keys = (xs.map Bundle.queryKey).eraseDups := by
  induction xs using List.reverseRecOn with
  | nil => rfl
  | append_singleton xs x ih =>
      have hstep := inStep_ofBundles xs
      have hmem : x.queryKey ∈ (ofBundles xs).keys ↔ x.queryKey ∈ xs.map Bundle.queryKey := by
        rw [ih, List.mem_eraseDups]
      rw [ofBundles_concat, List.map_append, List.map_singleton, eraseDups_concat]
      split
      · next hx => rw [hstep.keys_put_of_mem (hmem.mpr hx), ih]
      · next hx => rw [hstep.keys_put_of_notMem fun h => hx (hmem.mp h), ih]

theorem mem_keys_ofBundles {xs : List Bundle} :
    key ∈ (ofBundles xs).keys ↔ key ∈ xs.map Bundle.queryKey := by
  rw [keys_ofBundles, List.mem_eraseDups]

/-- What is left of some values has them in the order of their first places. -/
theorem pairwise_idxOf_eraseDups (ids : List String) :
    ids.eraseDups.Pairwise fun i j => ids.idxOf i < ids.idxOf j := by
  induction ids using List.reverseRecOn with
  | nil => exact List.Pairwise.nil
  | append_singleton ids id ih =>
      -- A value more changes no first place, so the order of the others stays.
      have hothers : ids.eraseDups.Pairwise fun i j =>
          (ids ++ [id]).idxOf i < (ids ++ [id]).idxOf j := by
        apply ih.imp_of_mem
        intro i j hi hj hij
        rwa [List.idxOf_append_of_mem (List.mem_eraseDups.mp hi),
          List.idxOf_append_of_mem (List.mem_eraseDups.mp hj)]
      rw [eraseDups_concat]
      split
      · exact hothers
      · next hid =>
        apply List.pairwise_append.mpr
        refine ⟨hothers, List.pairwise_singleton _ _, ?_⟩
        intro i hi j hj
        rw [List.mem_eraseDups] at hi
        rw [List.mem_singleton.mp hj, List.idxOf_append_of_mem hi, List.idxOf_append_of_notMem hid]
        exact Nat.lt_of_lt_of_le (List.idxOf_lt_length_of_mem hi) (Nat.le_add_right _ _)

/-- Among some bundles, `x` is the last one with this key. -/
def LastWith (xs : List Bundle) (key : String) (x : Bundle) : Prop :=
  x.queryKey = key ∧ ∃ before after, xs = before ++ x :: after ∧ ∀ y ∈ after, y.queryKey ≠ key

theorem get?_ofBundles (xs : List Bundle) (key : String) :
    (ofBundles xs).get? key = xs.reverse.find? fun x => x.queryKey == key := by
  induction xs using List.reverseRecOn with
  | nil => exact get?_empty key
  | append_singleton xs x ih =>
      rw [ofBundles_concat, get?_put, ih, List.reverse_concat, List.find?_cons]
      by_cases hx : x.queryKey = key
      · rw [if_pos hx, beq_iff_eq.mpr hx]
      · rw [if_neg hx, beq_eq_false_iff_ne.mpr hx]

theorem reverse_eq_append_cons_iff {xs after before : List Bundle} :
    xs.reverse = after ++ x :: before ↔ xs = before.reverse ++ x :: after.reverse := by
  rw [List.reverse_eq_iff, List.reverse_append, List.reverse_cons, List.append_assoc,
    List.singleton_append]

/-- Under a key there is the last bundle that has it. -/
theorem get?_ofBundles_eq_some_iff {xs : List Bundle} :
    (ofBundles xs).get? key = some x ↔ LastWith xs key x := by
  rw [get?_ofBundles, List.find?_eq_some_iff_append, beq_iff_eq]
  apply and_congr_right
  intro _
  constructor
  · rintro ⟨after, before, hxs, hafter⟩
    refine ⟨before.reverse, after.reverse, reverse_eq_append_cons_iff.mp hxs, ?_⟩
    intro y hy
    simpa using hafter y (List.mem_reverse.mp hy)
  · rintro ⟨before, after, hxs, hafter⟩
    refine ⟨after.reverse, before.reverse, ?_, ?_⟩
    · rwa [reverse_eq_append_cons_iff, List.reverse_reverse, List.reverse_reverse]
    · intro y hy
      simpa using hafter y (List.mem_reverse.mp hy)

/-- Bundles with different keys are read off as they were given. -/
theorem bundles_ofBundles_of_nodup {xs : List Bundle} (h : (xs.map Bundle.queryKey).Nodup) :
    (ofBundles xs).bundles = xs := by
  induction xs using List.reverseRecOn with
  | nil => rfl
  | append_singleton xs x ih =>
      rw [List.map_append, List.map_singleton] at h
      have hx : x.queryKey ∉ (ofBundles xs).keys := fun hmem =>
        (List.nodup_append.mp h).2.2 _ (mem_keys_ofBundles.mp hmem) _ List.mem_cons_self rfl
      rw [ofBundles_concat, (inStep_ofBundles xs).bundles_put_of_notMem hx, ih h.of_append_left]

/-- **A batch is made again from its bundles.** -/
theorem InStep.ofBundles_bundles (h : b.InStep) : ofBundles b.bundles = b := by
  apply (inStep_ofBundles b.bundles).ext h
  apply bundles_ofBundles_of_nodup
  rw [h.map_queryKey_bundles]
  exact h.nodup

end Batch

/-- What is written for some bundles is read back. -/
theorem read_write_bundles (xs : List Bundle) :
    Bundle.layout.list.read (Bundle.layout.list.write xs) = .ok xs :=
  Json.Layout.read_write (by decide) xs

/-- What is written for the bundles of a batch is enough to make it again. -/
theorem Batch.InStep.map_ofBundles_read_write {b : Batch} (h : b.InStep) :
    (Bundle.layout.list.read (Bundle.layout.list.write b.bundles)).map ofBundles = .ok b := by
  rw [read_write_bundles, Except.map, h.ofBundles_bundles]

/-! ## Batches from an analysis -/

namespace Analyzer

open IndexAdvisor.Random

variable {σ : Type} [Source σ]

/-- The bundles of queries at positions from `position` on, one for each of them. -/
def bundlesFrom (position : Nat) (qs : List LoggedQuery) : StateM (Analyzer σ) (List Bundle) :=
  (qs.zipIdx position).mapM fun e => analyzeAt e.2 e.1

theorem bundlesFrom_cons (position : Nat) (q : LoggedQuery) (qs : List LoggedQuery)
    (a : Analyzer σ) :
    bundlesFrom position (q :: qs) a =
      let r := analyzeAt position q a
      let rs := bundlesFrom (position + 1) qs r.2
      (r.1 :: rs.1, rs.2) := by
  rw [bundlesFrom, List.zipIdx_cons, List.mapM_cons]
  rfl

/-- The bundles are put into the batch one after the other. -/
theorem analyzeFrom_eq (position : Nat) (batch : Batch) (qs : List LoggedQuery) (a : Analyzer σ) :
    analyzeFrom position batch qs a =
      ((bundlesFrom position qs a).1.foldl Batch.put batch, (bundlesFrom position qs a).2) := by
  induction qs generalizing position batch a with
  | nil => rfl
  | cons q qs ih =>
      show analyzeFrom (position + 1) (batch.put (analyzeAt position q a).1) qs
        (analyzeAt position q a).2 = _
      rw [ih, bundlesFrom_cons, List.foldl_cons]

/-- A batch is made from the bundles of its queries. -/
theorem fst_analyzeBatch (qs : List LoggedQuery) (a : Analyzer σ) :
    (analyzeBatch qs a).1 = .ofBundles (bundlesFrom 0 qs a).1 :=
  congrArg Prod.fst (analyzeFrom_eq 0 .empty qs a)

theorem source_analyzeBatch (qs : List LoggedQuery) (a : Analyzer σ) :
    (analyzeBatch qs a).2.source = (bundlesFrom 0 qs a).2.source :=
  congrArg (fun r => r.2.source) (analyzeFrom_eq 0 .empty qs a)

/-- **Every batch of an analysis is in step.** -/
theorem inStep_analyzeBatch (qs : List LoggedQuery) (a : Analyzer σ) :
    (analyzeBatch qs a).1.InStep := by
  rw [fst_analyzeBatch]
  exact Batch.inStep_ofBundles _

end Analyzer

/-! ## What a batch is known by -/

/-- **The keys and the bundles of a batch are in step.** Whatever the keys of some bundles are, the
batch made from them has each of these keys once and no other one, in the order in which they first
stand there. Under a key there is the last bundle that has it, so along the keys nothing is passed
over, and there are as many bundles as keys. This batch, and every batch of an analysis, is made
again from its bundles as it was, also if they are written and read before. -/
theorem batches_in_step :
    (∀ xs : List Bundle,
      let given := xs.map Bundle.queryKey
      let batch := Batch.ofBundles xs
      batch.keys.Nodup ∧ batch.keys = given.eraseDups ∧
      (∀ key, key ∈ batch.keys ↔ key ∈ given) ∧
      (batch.keys.Pairwise fun i j => given.idxOf i < given.idxOf j) ∧
      (∀ key x, batch.get? key = some x ↔ Batch.LastWith xs key x) ∧
      batch.keys.map batch.get? = batch.bundles.map some ∧
      batch.bundles.map Bundle.queryKey = batch.keys ∧ batch.size = batch.bundles.length ∧
      Batch.ofBundles batch.bundles = batch ∧
      (Bundle.layout.list.read (Bundle.layout.list.write batch.bundles)).map Batch.ofBundles =
        .ok batch) ∧
    ∀ (σ : Type) [Random.Source σ] (qs : List LoggedQuery) (a : Analyzer σ),
      let batch := (Analyzer.analyzeBatch qs a).1
      batch.InStep ∧ Batch.ofBundles batch.bundles = batch ∧
      (Bundle.layout.list.read (Bundle.layout.list.write batch.bundles)).map Batch.ofBundles =
        .ok batch := by
  refine ⟨?bundles, ?analyses⟩
  case bundles =>
    intro xs given batch
    have hstep : batch.InStep := Batch.inStep_ofBundles xs
    have hkeys : batch.keys = given.eraseDups := Batch.keys_ofBundles xs
    have hordered : batch.keys.Pairwise fun i j => given.idxOf i < given.idxOf j := by
      rw [hkeys]
      exact Batch.pairwise_idxOf_eraseDups given
    exact ⟨hstep.nodup, hkeys, fun _ => Batch.mem_keys_ofBundles, hordered,
      fun _ _ => Batch.get?_ofBundles_eq_some_iff, hstep.map_get?_keys, hstep.map_queryKey_bundles,
      hstep.length_bundles.symm, hstep.ofBundles_bundles, hstep.map_ofBundles_read_write⟩
  case analyses =>
    intro σ _ qs a batch
    have hstep : batch.InStep := Analyzer.inStep_analyzeBatch qs a
    exact ⟨hstep, hstep.ofBundles_bundles, hstep.map_ofBundles_read_write⟩

/-- The last bundle with a key stands where the first one stood. -/
example :
    let bundle (key sql : String) : Bundle := ⟨key, sql, "", "", "", "", [], []⟩
    (Batch.ofBundles [bundle "a-0" "SELECT 1", bundle "q1" "SELECT 2",
      bundle "a-0" "SELECT 3"]).bundles = [bundle "a-0" "SELECT 3", bundle "q1" "SELECT 2"] := by
  decide +kernel

end IndexAdvisor.Analysis
