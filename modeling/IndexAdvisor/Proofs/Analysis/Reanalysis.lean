import IndexAdvisor.Analysis.Application
import IndexAdvisor.Proofs.Advice.Shapes
import IndexAdvisor.Proofs.Analysis.Keys
import IndexAdvisor.Random.Scripted

/-!
# Analyzing again

What two analyses of the same queries have in common, whatever sources they draw from: the keys, and
all that is found out about a query but its time and its recommendations. The recommendations are
the same up to their improvements exactly if the coins fall the same, one for each join pair. Where
they do not, a number that was shown for one index may later stand for another.
-/

set_option autoImplicit false

namespace IndexAdvisor.Analysis

open IndexAdvisor.Random

namespace Bundle

/-- A bundle without its time and its recommendations. -/
def frame (b : Bundle) : Bundle := { b with executionTime := "", recommendations := [] }

/-- A bundle without its time and the improvements. -/
def shape (b : Bundle) : Bundle :=
  { b with executionTime := "", recommendations := b.recommendations.map Recommendation.shape }

theorem recommendation?_shape (b : Bundle) (id : UInt32) :
    b.shape.recommendation? id = (b.recommendation? id).map Recommendation.shape := by
  rw [recommendation?, recommendation?, shape, List.find?_map]
  rfl

end Bundle

namespace Batch

/-- A batch without times and improvements. -/
def shape (b : Batch) : Batch := { b with found := b.found.map fun _ => Bundle.shape }

theorem get?_shape (b : Batch) (queryKey : String) :
    b.shape.get? queryKey = (b.get? queryKey).map Bundle.shape := Std.ExtTreeMap.getElem?_map

theorem bundles_shape (b : Batch) : b.shape.bundles = b.bundles.map Bundle.shape := by
  rw [bundles, bundles, List.map_filterMap]
  exact congrArg (List.filterMap · b.keys) (funext b.get?_shape)

theorem InStep.shape {b : Batch} (h : b.InStep) : b.shape.InStep where
  nodup := h.nodup
  mem_keys_iff queryKey := by
    rw [get?_shape, Option.isSome_map]
    exact h.mem_keys_iff queryKey
  queryKey_eq queryKey x hx := by
    rw [get?_shape] at hx
    obtain ⟨y, hy, rfl⟩ := Option.map_eq_some_iff.mp hx
    exact h.queryKey_eq queryKey y hy

/-- The shape of a batch is known by the shapes of its bundles. -/
theorem InStep.shape_eq_iff {b c : Batch} (hb : b.InStep) (hc : c.InStep) :
    b.shape = c.shape ↔ b.bundles.map Bundle.shape = c.bundles.map Bundle.shape := by
  rw [← bundles_shape, ← bundles_shape]
  exact ⟨congrArg bundles, hb.shape.ext hc.shape⟩

/-- The shape of a batch tells the shape of what is chosen from it. -/
theorem choose_shape (b : Batch) (queryKey : String) (id : UInt32) :
    b.shape.choose queryKey id = (b.choose queryKey id).map Recommendation.shape := by
  rw [choose, choose, get?_shape]
  cases b.get? queryKey with
  | none => rfl
  | some x =>
      simp only [Option.map_some, Bundle.recommendation?_shape]
      cases x.recommendation? id with
      | none => rfl
      | some r => rfl

end Batch

/-! ## One query -/

/-- What is found out about the query at a position, but for its time and its recommendations. -/
def queryFrame (position : Nat) (q : LoggedQuery) : Bundle where
  queryKey := q.key position
  sql := q.text
  tables := ", ".intercalate (Sql.features q.text).tables
  executionTime := ""
  timestamp := q.timestamp
  fileName := q.fileName
  plan := Plan.ofFeatures (Sql.features q.text)
  recommendations := []

/-- The shape of what is found out about the query at a position, with a toss for each of its join
pairs. -/
def queryShape (position : Nat) (q : LoggedQuery) (tosses : List Bool) : Bundle :=
  { queryFrame position q with recommendations := Advice.shapes (Sql.features q.text) tosses }

/-- How many join pairs a query has. -/
def joins (q : LoggedQuery) : Nat := (Sql.features q.text).joinPairs.length

/-- The shape of a bundle tells the tosses. -/
theorem tosses_eq_of_queryShape {position : Nat} {q : LoggedQuery} {tosses tosses' : List Bool}
    (hlength : tosses.length = joins q) (hlength' : tosses'.length = joins q)
    (h : queryShape position q tosses = queryShape position q tosses') : tosses = tosses' :=
  Advice.tosses_eq_of_shapes _ hlength hlength' (congrArg Bundle.recommendations h)

namespace Analyzer

variable {σ τ α : Type}

/-- The second analyzer draws from the source of the first one, with these tosses kept. -/
def KeptBy (a : Analyzer σ) (b : Analyzer (Tossing σ)) (tosses : List Bool) : Prop :=
  Kept a.source b.source tosses

theorem notes_drawn {x : StateM σ α} {y : StateM (Tossing σ) α} {P : List Bool → α → Prop}
    (h : Notes Kept x y P) : Notes KeptBy (drawn x) (drawn y) P :=
  fun a b tosses hkept => h a.source b.source tosses hkept

theorem notes_count (f : Counters → Counters) :
    Notes (KeptBy (σ := σ)) (count f) (count f) fun tosses _ => tosses = [] := by
  intro a b tosses hkept
  refine ⟨[], rfl, ?_, rfl⟩
  rw [List.append_nil]
  exact hkept

theorem notes_log (e : Log.Entry) :
    Notes (KeptBy (σ := σ)) (log e) (log e) fun tosses _ => tosses = [] := by
  intro a b tosses hkept
  refine ⟨[], rfl, ?_, rfl⟩
  rw [List.append_nil]
  exact hkept

variable [Source σ] [Source τ]

theorem notes_analyze (sql : String) :
    Notes (KeptBy (σ := σ)) (analyze sql) (analyze sql) fun tosses f =>
      f.features = Sql.features sql ∧ f.plan = Plan.ofFeatures (Sql.features sql) ∧
        tosses.length = (Sql.features sql).joinPairs.length ∧
        f.recommendations.map Recommendation.shape = Advice.shapes (Sql.features sql) tosses := by
  unfold analyze
  refine (notes_drawn (Advice.notes_recommend _)).bind fun tosses rs hrs => ?_
  refine (notes_count _).bind ?_
  rintro first u rfl
  refine (notes_log _).bind ?_
  rintro first u rfl
  refine notes_pure ?_
  rw [List.append_nil, List.append_nil, List.append_nil]
  exact ⟨rfl, rfl, hrs⟩

/-- What is found out about the query at a position. -/
theorem notes_analyzeAt (position : Nat) (q : LoggedQuery) :
    Notes (KeptBy (σ := σ)) (analyzeAt position q) (analyzeAt position q) fun tosses b =>
      tosses.length = joins q ∧ b.frame = queryFrame position q ∧
        b.shape = queryShape position q tosses := by
  unfold analyzeAt
  refine (notes_analyze q.text).bind fun tosses f hf => ?_
  obtain ⟨hfeatures, hplan, hlength, hshapes⟩ := hf
  refine (notes_drawn (notes_nextInRange 500 1500)).bind ?_
  rintro first time rfl
  refine notes_pure ?_
  rw [List.append_nil, List.append_nil]
  refine ⟨hlength, ?_, ?_⟩
  · simp only [Bundle.frame, queryFrame, hfeatures, hplan]
  · simp only [Bundle.shape, queryShape, queryFrame, hfeatures, hplan, hshapes]

/-! ## A batch -/

/-- How the coins fall when a source is used to analyze some queries. -/
def tosses (qs : List LoggedQuery) (s : σ) : List Bool :=
  (analyzeBatch qs (.start (⟨s, []⟩ : Tossing σ) .empty)).2.source.tosses

/-- The tosses fall into parts, one for each query of a batch. -/
theorem parts_tosses (qs : List LoggedQuery) (a : Analyzer σ) :
    Parts (fun e tosses b => tosses.length = joins e.1 ∧ b.frame = queryFrame e.2 e.1 ∧
      b.shape = queryShape e.2 e.1 tosses) qs.zipIdx (tosses qs a.source)
        (analyzeBatch qs a).1.bundles := by
  have hnotes := notes_mapM (fun e : LoggedQuery × Nat => notes_analyzeAt (σ := σ) e.2 e.1) qs.zipIdx
  obtain ⟨more, -, hkept, hparts⟩ := hnotes a (.start ⟨a.source, []⟩ .empty) [] rfl
  have hmore : tosses qs a.source = more := by
    rw [tosses, source_analyzeBatch]
    exact congrArg Tossing.tosses hkept
  rw [hmore, bundles_analyzeBatch]
  exact hparts

/-- There is a toss for each join pair. -/
theorem length_tosses (qs : List LoggedQuery) (s : σ) :
    (tosses qs s).length = (qs.map joins).sum := by
  have hlength := (parts_tosses qs (.start s .empty)).length_eq fun _ _ _ h => h.1
  have hjoins : (qs.zipIdx.map fun e => joins e.1) = qs.map joins := by
    rw [← Function.comp_def joins Prod.fst, ← List.map_map, List.zipIdx_map_fst]
  rw [hjoins] at hlength
  exact hlength

/-- What does not come from chance is known from the queries. -/
theorem map_frame_analyzeBatch (qs : List LoggedQuery) (a : Analyzer σ) :
    (analyzeBatch qs a).1.bundles.map Bundle.frame = qs.zipIdx.map fun e => queryFrame e.2 e.1 :=
  (parts_tosses qs a).map_eq fun _ _ _ h => h.2.1

/-- The shapes of two analyses are the same exactly if the coins fall the same. -/
theorem shape_analyzeBatch_eq_iff (qs : List LoggedQuery) (a : Analyzer σ) (b : Analyzer τ) :
    (analyzeBatch qs a).1.shape = (analyzeBatch qs b).1.shape ↔
      tosses qs a.source = tosses qs b.source := by
  rw [(inStep_analyzeBatch qs a).shape_eq_iff (inStep_analyzeBatch qs b)]
  have hinj (e : LoggedQuery × Nat) (tosses tosses' : List Bool) :
      tosses.length = joins e.1 → tosses'.length = joins e.1 →
        queryShape e.2 e.1 tosses = queryShape e.2 e.1 tosses' → tosses = tosses' :=
    tosses_eq_of_queryShape
  exact (parts_tosses qs a).map_eq_iff (fun _ _ _ h => ⟨h.1, h.2.2⟩) hinj (parts_tosses qs b)

/-- **What two analyses of the same queries have in common**, whatever sources they draw from: the
keys, and all but the times and the recommendations. Where the coins fall the same, each key and
number stand for the same recommendation up to its improvement. That is so if no query joins tables
on an equality of two columns; in general it is so exactly if the coins fall the same. -/
theorem analyzeBatch_eq_iff (qs : List LoggedQuery) (a : Analyzer σ) (b : Analyzer τ) :
    let before := (analyzeBatch qs a).1
    let later := (analyzeBatch qs b).1
    before.keys = later.keys ∧
    before.bundles.map Bundle.frame = later.bundles.map Bundle.frame ∧
    (before.shape = later.shape ↔ tosses qs a.source = tosses qs b.source) ∧
    (tosses qs a.source = tosses qs b.source → ∀ queryKey id,
      (before.choose queryKey id).map Recommendation.shape =
        (later.choose queryKey id).map Recommendation.shape) ∧
    ((∀ q ∈ qs, (Sql.features q.text).joinPairs = []) → before.shape = later.shape) := by
  intro before later
  have hshape := shape_analyzeBatch_eq_iff qs a b
  refine ⟨?_, ?_, hshape, ?_, ?_⟩
  · rw [keys_analyzeBatch, keys_analyzeBatch]
  · rw [map_frame_analyzeBatch, map_frame_analyzeBatch]
  · intro htosses queryKey id
    rw [← Batch.choose_shape, ← Batch.choose_shape, hshape.mpr htosses]
  · intro hjoins
    have hnone {ρ : Type} [Source ρ] (s : ρ) : tosses qs s = [] := by
      have hzero : qs.map joins = qs.map fun _ => 0 := List.map_congr_left fun q hq => by
        rw [joins, hjoins q hq, List.length_nil]
      rw [← List.length_eq_zero_iff, length_tosses, hzero]
      simp
    rw [hshape, hnone, hnone]

/-! ### A join -/

/-- A query that joins two tables and orders the result. -/
def joinQuery : LoggedQuery := ⟨some "r", "SELECT * FROM a JOIN b ON a.x = b.y ORDER BY z", "", ""⟩

/-- An analyzer whose coins all fall as this fraction in thousandths says, and whose draws in a
range are this far from its start. -/
def coined (offset fraction : Nat) : Analyzer Scripted := .start (.start [offset] [fraction]) .empty

/-- **A coin changes what a number stands for.** The second recommendation for the query is the index
on its ordering in one analysis, and the one on the right column of the join in another. -/
theorem shape_ne_joinQuery :
    let later (fraction : Nat) := (analyzeBatch [joinQuery] (coined 0 fraction)).1
    (later 0).shape ≠ (later 999).shape ∧
    (later 0).choose "r-0" 2 = .ok (.make 2 .bTree "a" ["z"] 30 Advice.orderReason none) ∧
    (later 999).choose "r-0" 2 = .ok (.make 2 .bTree "b" ["y"] 50 Advice.secondaryJoinReason none) := by
  decide +kernel

end Analyzer

end IndexAdvisor.Analysis
