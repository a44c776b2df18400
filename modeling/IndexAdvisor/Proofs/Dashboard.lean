import IndexAdvisor.Dashboard
import IndexAdvisor.Proofs.Json.Double
import IndexAdvisor.Proofs.Random.Ranges

/-!
# Figures of a dashboard

The figures of a dashboard fit together however the draws of a lawful source fall. The counts of the
kinds add up, the series go along the first queries, and the improvements fall from place to place:
one place costs as much as the widest jitter, so no draws can turn two places around. Where no index
is applied nothing is saved. The time that is left is then worked out by a product with one, which
is exact in double precision.
-/

set_option autoImplicit false

namespace IndexAdvisor.Dashboard

open IndexAdvisor.Random
open IndexAdvisor.Json (Double)

/-! ## Kinds -/

namespace Distribution

/-- How many of some records are of a kind. -/
def countKind (kind : Option Index.Kind) (records : List AppliedIndex) : Nat :=
  records.countP fun a => Index.Kind.ofText? a.kind = kind

theorem countKind_cons (kind : Option Index.Kind) (a : AppliedIndex) (records : List AppliedIndex) :
    countKind kind (a :: records) =
      countKind kind records + if Index.Kind.ofText? a.kind = kind then 1 else 0 := by
  simp only [countKind, List.countP_cons, decide_eq_true_eq]

/-- The records are counted on top of what was counted before. -/
theorem foldl_add (d : Distribution) (records : List AppliedIndex) : records.foldl add d =
    ⟨d.bTree + (countKind (some .bTree) records + countKind none records),
      d.hash + countKind (some .hash) records, d.bitmap + countKind (some .bitmap) records⟩ := by
  induction records generalizing d with
  | nil => rfl
  | cons a records ih =>
      rw [List.foldl_cons, ih]
      simp only [countKind_cons, add]
      cases Index.Kind.ofText? a.kind with
      | none => simp; omega
      | some kind =>
          cases kind with
          | bTree => simp; omega
          | hash => simp; omega
          | bitmap => simp; omega

/-- **The kinds** are counted by their names; an unknown name counts as a B-tree. -/
theorem ofRecords_eq (records : List AppliedIndex) : ofRecords records =
    ⟨countKind (some .bTree) records + countKind none records,
      countKind (some .hash) records, countKind (some .bitmap) records⟩ := by
  rw [ofRecords, foldl_add]
  simp only [Nat.zero_add]

theorem total_add (d : Distribution) (a : AppliedIndex) : (d.add a).total = d.total + 1 := by
  unfold add total
  split
  · simp only; omega
  · simp only; omega
  · simp only; omega

theorem total_ofRecords (records : List AppliedIndex) :
    (ofRecords records).total = records.length := by
  have hfold (d : Distribution) : (records.foldl add d).total = d.total + records.length := by
    induction records generalizing d with
    | nil => rfl
    | cons a records ih => rw [List.foldl_cons, ih, total_add, List.length_cons]; omega
  rw [ofRecords, hfold]
  exact Nat.zero_add _

end Distribution

/-! ## Times -/

/-- **Nothing is saved** where no index is applied. -/
theorem timeAfter_zero {before : Nat} (h : before < 2 ^ 53) : timeAfter before 0 = before := by
  have hone : (Double.ofNat 1).value = (1 : Nat) := Double.value_ofNat (by norm_num)
  have hnone : (savedShare 0).value = (0 : Nat) := by
    rw [savedShare, if_pos rfl, Double.value_ofNat (by norm_num)]
  have hleft : ((Double.ofNat 1).minus (savedShare 0)).value = (1 : Nat) * 2 ^ (0 : Int) := by
    refine Double.value_minus ?_ (by norm_num) (by norm_num)
    rw [hone, hnone]
    norm_num
  have htime : ((Double.ofNat before).times ((Double.ofNat 1).minus (savedShare 0))).value =
      before * 2 ^ (0 : Int) := by
    refine Double.value_times ?_ h (by norm_num)
    rw [Double.value_ofNat h, hleft]
    norm_num
  rw [zpow_zero, mul_one] at htime
  exact Double.round_eq htime

/-! ## Series -/

/-- A label is the text, cut and marked if it has more than 25 characters. -/
structure Labels (text shown : String) : Prop where
  whole : text.length ≤ 25 → shown = text
  cut : 25 < text.length → shown = String.ofList (text.toList.take 25) ++ "..."

theorem labels_label (text : String) : Labels text (label text) where
  whole h := if_pos h
  cut h := if_neg (Nat.not_le.mpr h)

/-- The comparison of a query. -/
structure Compares (anyApplied : Bool) (q : LoggedQuery) (c : Comparison) : Prop where
  labels : Labels q.text c.label
  unchanged : anyApplied = false → c.after = c.before

/-- The improvement at a place: 95 percent less five for each place before and a jitter. -/
structure Ranks (place : Nat) (i : Improvement) : Prop where
  place_eq : i.place = place
  percent_eq : ∃ jitter, jitter ≤ 5 ∧ i.percent + (5 * place + jitter) = 95

theorem Ranks.bounds {place : Nat} {i : Improvement} (h : Ranks place i) (hplace : place < 5) :
    70 ≤ i.percent ∧ i.percent ≤ 95 := by
  obtain ⟨jitter, hjitter, hpercent⟩ := h.percent_eq
  omega

/-- A place costs as much as the widest jitter. -/
theorem Ranks.le {place place' : Nat} {i i' : Improvement} (h : Ranks place i)
    (h' : Ranks place' i') (hlt : place < place') : i'.percent ≤ i.percent := by
  obtain ⟨jitter, hjitter, hpercent⟩ := h.percent_eq
  obtain ⟨jitter', -, hpercent'⟩ := h'.percent_eq
  omega

section Draws

variable {σ : Type} [Source σ]

theorem ensures_compare (anyApplied : Bool) (q : LoggedQuery) :
    Ensures (σ := σ) (compare anyApplied q) (Compares anyApplied q) := by
  unfold compare
  refine (ensures_true (Source.nextInRange 500 1300)).bind fun before _ => ?_
  cases anyApplied with
  | false => exact ensures_pure ⟨labels_label q.text, fun _ => rfl⟩
  | true =>
      refine (ensures_true Source.nextUnit).bind fun u _ => ensures_pure ?_
      exact ⟨labels_label q.text, nofun⟩

/-- The subtractions stay above zero at the first five places. -/
theorem ensures_improve [LawfulSource σ] (place : Nat) :
    Ensures (σ := σ) (improve place) fun i => place < 5 → Ranks place i := by
  unfold improve
  refine (ensures_nextInRange (by omega)).bind fun jitter hjitter => ensures_pure fun hplace => ?_
  refine ⟨rfl, jitter, by omega, ?_⟩
  show 95 - 5 * place - jitter + (5 * place + jitter) = 95
  omega

end Draws

/-! ## Figures -/

/-- The figures fit together. -/
structure Consistent (queries : List LoggedQuery) (applied : List AppliedIndex) (m : Metrics) :
    Prop where
  total : m.distribution.total = applied.length
  hash : m.distribution.hash = applied.countP fun a => Index.Kind.ofText? a.kind = some .hash
  bitmap : m.distribution.bitmap = applied.countP fun a => Index.Kind.ofText? a.kind = some .bitmap
  /-- A name that is unknown counts as a B-tree. -/
  bTree : m.distribution.bTree = (applied.countP fun a => Index.Kind.ofText? a.kind = some .bTree) +
    applied.countP fun a => Index.Kind.ofText? a.kind = none
  length_labels : (m.comparisons.map Comparison.label).length = min 6 queries.length
  length_befores : (m.comparisons.map Comparison.before).length = min 6 queries.length
  length_afters : (m.comparisons.map Comparison.after).length = min 6 queries.length
  /-- The labels go along the queries. -/
  labels : List.Forall₂ (fun q shown => Labels q.text shown) (queries.take 6)
    (m.comparisons.map Comparison.label)
  noImprovements : applied = [] → m.improvements = []
  length_improvements : applied ≠ [] → m.improvements.length = min 5 queries.length
  ranks : ∀ (place : Nat) (i : Improvement), m.improvements[place]? = some i →
    Ranks place i ∧ 70 ≤ i.percent ∧ i.percent ≤ 95
  descending : m.improvements.Pairwise fun i i' => i'.percent ≤ i.percent
  unchanged : applied = [] → m.afterTime = m.beforeTime ∧
    m.comparisons.map Comparison.after = m.comparisons.map Comparison.before

/-- The improvements at the first places, in order. -/
def Ranking (count : Nat) (improvements : List Improvement) : Prop :=
  List.Forall₂ (fun place i => place < 5 → Ranks place i) (List.range (min count 5)) improvements

section Ranking

variable {count : Nat} {improvements : List Improvement}

theorem Ranking.length_eq (h : Ranking count improvements) :
    improvements.length = min 5 count := by
  rw [← List.Forall₂.length_eq h, List.length_range, Nat.min_comm]

theorem Ranking.ranks (h : Ranking count improvements) {place : Nat}
    (hplace : place < improvements.length) :
    place < 5 ∧ Ranks place improvements[place] := by
  have hlength := h.length_eq
  have hlt : place < 5 := by omega
  have hrange : place < (List.range (min count 5)).length := by
    rw [List.length_range]
    omega
  have hranks := List.Forall₂.get h hrange hplace
  rw [List.get_eq_getElem, List.getElem_range] at hranks
  exact ⟨hlt, hranks hlt⟩

theorem Ranking.pairwise (h : Ranking count improvements) :
    improvements.Pairwise fun i i' => i'.percent ≤ i.percent := by
  rw [List.pairwise_iff_getElem]
  intro place place' hplace hplace' hlt
  exact (h.ranks hplace).2.le (h.ranks hplace').2 hlt

end Ranking

section Metrics

variable {σ : Type} [Source σ] [LawfulSource σ] (queries : List LoggedQuery)

/-- Each of the series has an entry for each of the first queries. -/
theorem length_series {anyApplied : Bool} {comparisons : List Comparison}
    (h : List.Forall₂ (Compares anyApplied) (queries.take 6) comparisons) {β : Type}
    (part : Comparison → β) : (comparisons.map part).length = min 6 queries.length := by
  rw [List.length_map, ← List.Forall₂.length_eq h, List.length_take]

theorem labels_series {anyApplied : Bool} {comparisons : List Comparison}
    (h : List.Forall₂ (Compares anyApplied) (queries.take 6) comparisons) :
    List.Forall₂ (fun q shown => Labels q.text shown) (queries.take 6)
      (comparisons.map Comparison.label) :=
  List.forall₂_map_right_iff.mpr (h.imp fun _ _ hc => hc.labels)

theorem map_after_eq_map_before {comparisons : List Comparison}
    (h : List.Forall₂ (Compares false) (queries.take 6) comparisons) :
    comparisons.map Comparison.after = comparisons.map Comparison.before := by
  refine List.map_congr_left fun c hc => ?_
  obtain ⟨k, hk, rfl⟩ := List.mem_iff_getElem.mp hc
  have hlength := List.Forall₂.length_eq h
  exact (List.Forall₂.get h (hlength ▸ hk) hk).unchanged rfl

/-- There are improvements only where some index is applied. -/
theorem ensures_rank (anyApplied : Bool) (count : Nat) :
    Ensures (σ := σ) (rank anyApplied count) (Ranking (if anyApplied then count else 0)) := by
  cases anyApplied with
  | false => exact ensures_pure .nil
  | true => exact ensures_mapM ensures_improve (List.range (min count 5))

/-- **The figures of a dashboard fit together**, whatever queries and applied indexes there are and
however the draws of a lawful source fall. -/
theorem ensures_metrics (applied : List AppliedIndex) :
    Ensures (σ := σ) (metrics queries applied) (Consistent queries applied) := by
  unfold metrics
  refine (ensures_nextInRange (by omega)).bind fun before hbefore => ?_
  refine (ensures_mapM (ensures_compare _) (queries.take 6)).bind fun comparisons hcomparisons => ?_
  refine (ensures_rank _ queries.length).bind fun improvements hranking => ensures_pure ?_
  exact
    { total := Distribution.total_ofRecords applied
      hash := congrArg Distribution.hash (Distribution.ofRecords_eq applied)
      bitmap := congrArg Distribution.bitmap (Distribution.ofRecords_eq applied)
      bTree := congrArg Distribution.bTree (Distribution.ofRecords_eq applied)
      length_labels := length_series queries hcomparisons Comparison.label
      length_befores := length_series queries hcomparisons Comparison.before
      length_afters := length_series queries hcomparisons Comparison.after
      labels := labels_series queries hcomparisons
      noImprovements := by
        rintro rfl
        exact List.eq_nil_of_length_eq_zero hranking.length_eq
      length_improvements := by
        intro hsome
        rw [hranking.length_eq, if_pos (by simpa using hsome)]
      ranks := by
        intro place i hi
        obtain ⟨hplace, rfl⟩ := List.getElem?_eq_some_iff.mp hi
        obtain ⟨hlt, hranks⟩ := hranking.ranks hplace
        exact ⟨hranks, hranks.bounds hlt⟩
      descending := hranking.pairwise
      unchanged := by
        rintro rfl
        exact ⟨timeAfter_zero (by omega), map_after_eq_map_before queries hcomparisons⟩ }

/-- The figures of the next dashboard of any lawful source. -/
theorem consistent_metrics (applied : List AppliedIndex) (s : σ) :
    Consistent queries applied (metrics queries applied s).1 :=
  ensures_metrics queries applied s

/-- A hash index and one of an unknown kind, and a statement that is cut. The first two improvements
are as close as they can be, with the widest jitter and none. -/
theorem consistent_metrics_scripted :
    let queries : List LoggedQuery :=
      [⟨none, "SELECT * FROM orders WHERE id = 1", "", "log.txt"⟩,
       ⟨none, "SELECT 1", "", "log.txt"⟩]
    let applied : List AppliedIndex :=
      [⟨1, "q0", "idx_orders_id", "orders", ["id"], "Hash", 60, ""⟩,
       ⟨2, "q0", "idx_orders_day", "orders", ["day"], "GiST", 40, ""⟩]
    let m := (metrics queries applied (Scripted.start [5, 2, 4, 5, 0] [300])).1
    Consistent queries applied m ∧
      Consistent queries [] (metrics queries [] (Scripted.start [5, 2, 4, 5, 0] [300])).1 ∧
      m.distribution = ⟨1, 1, 0⟩ ∧
      m.comparisons.map Comparison.label = ["SELECT * FROM orders WHER...", "SELECT 1"] ∧
      m.improvements.map Improvement.percent = [90, 90] := by
  intro queries applied m
  exact ⟨consistent_metrics queries applied _, consistent_metrics queries [] _,
    by decide +kernel, by decide +kernel, by decide +kernel⟩

end Metrics

end IndexAdvisor.Dashboard
