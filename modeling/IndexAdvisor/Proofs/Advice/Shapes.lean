import IndexAdvisor.Advice
import IndexAdvisor.Proofs.Random.Tosses

/-!
# Shapes of recommendations

The shape of a recommendation is what is left of it without its improvement. The numbers that are
drawn for a statement go into the improvements alone, but its coins do not: each one says whether a
join pair has a second recommendation, and so what number each later recommendation has. The shapes
are known from the features and the tosses, and tell the tosses.
-/

set_option autoImplicit false

namespace IndexAdvisor

/-- A recommendation without its improvement. -/
def Recommendation.shape (r : Recommendation) : Recommendation := { r with improvement := 0 }

namespace Advice

open IndexAdvisor.Random
open IndexAdvisor.Sql

/-- A draft without its improvement. -/
def Draft.shape (d : Draft) : Draft := { d with improvement := 0 }

theorem shape_numbered (position : Nat) (d : Draft) :
    (d.numbered position).shape = d.shape.numbered position := rfl

theorem map_shape_mapIdx_numbered (ds : List Draft) :
    (ds.mapIdx Draft.numbered).map Recommendation.shape =
      (ds.map Draft.shape).mapIdx Draft.numbered := by
  refine List.ext_getElem (by simp) fun k hk hk' => ?_
  simp only [List.getElem_map, List.getElem_mapIdx, shape_numbered]

theorem map_reason_mapIdx_numbered (ds : List Draft) :
    (ds.mapIdx Draft.numbered).map Recommendation.reason = ds.map Draft.reason := by
  refine List.ext_getElem (by simp) fun k hk hk' => ?_
  simp only [List.getElem_map, List.getElem_mapIdx]
  rfl

/-! ## Shapes from tosses -/

/-- The shape of the draft for a condition. -/
def conditionShape (f : Features) (p : Predicate) : Draft :=
  ⟨(kindFor p).1, predicateTable f p, [p.column], 0, (kindFor p).2, some p.operator⟩

/-- The shape of the draft for the left column of a join pair. -/
def leftShape (f : Features) (p : JoinPair) : Draft :=
  ⟨.bTree, f.resolveTable p.leftTable, [p.leftColumn], 0, joinReason, none⟩

/-- The shape of the draft for the right column of a join pair. -/
def rightShape (f : Features) (p : JoinPair) : Draft :=
  ⟨.bTree, f.resolveTable p.rightTable, [p.rightColumn], 0, secondaryJoinReason, none⟩

/-- The shapes of the drafts for a join pair, with the toss for it. -/
def joinShapes (f : Features) (p : JoinPair) (toss : Bool) : List Draft :=
  leftShape f p :: if toss then [rightShape f p] else []

/-- The shapes of the drafts for some join pairs, with a toss for each. -/
def joinsShapes (f : Features) (ps : List JoinPair) (tosses : List Bool) : List Draft :=
  (List.zipWith (joinShapes f) ps tosses).flatten

/-- The shape of the draft for the ordering, if there is one. -/
def orderShapes (f : Features) : List Draft :=
  if f.hasOrderBy then
    match orderTarget? f with
    | some (table, columns) => [⟨.bTree, table, columns, 0, orderReason, none⟩]
    | none => []
  else []

/-- The shapes of the drafts of all rules, with a toss for each join pair. -/
def ruleShapes (f : Features) (tosses : List Bool) : List Draft :=
  f.predicates.map (conditionShape f) ++ joinsShapes f f.joinPairs tosses ++ orderShapes f

/-- The shapes of the drafts for a statement, with a toss for each join pair. -/
def draftShapes (f : Features) (tosses : List Bool) : List Draft :=
  if (ruleShapes f tosses).isEmpty then [(fallback f).shape] else ruleShapes f tosses

/-- The shapes of the recommendations for a statement, with a toss for each join pair. -/
def shapes (f : Features) (tosses : List Bool) : List Recommendation :=
  (draftShapes f tosses).mapIdx Draft.numbered

/-! ## Rules and their tosses -/

section Notes

variable {σ : Type} [Source σ] (f : Features)

theorem notes_drawImprovement (low high : Nat) :
    Notes (Kept (σ := σ)) (drawImprovement low high) (drawImprovement low high)
      fun tosses _ => tosses = [] := by
  unfold drawImprovement
  refine (notes_nextInRange low high).bind ?_
  rintro first n rfl
  exact notes_pure rfl

theorem notes_forPredicate (p : Predicate) :
    Notes (Kept (σ := σ)) (forPredicate f p) (forPredicate f p)
      fun tosses d => tosses = [] ∧ d.shape = conditionShape f p := by
  unfold forPredicate
  refine (notes_drawImprovement 40 80).bind ?_
  rintro first improvement rfl
  exact notes_pure ⟨rfl, rfl⟩

theorem notes_forJoinPair (p : JoinPair) :
    Notes (Kept (σ := σ)) (forJoinPair f p) (forJoinPair f p)
      fun tosses ds => ∃ toss, tosses = [toss] ∧ ds.map Draft.shape = joinShapes f p toss := by
  unfold forJoinPair
  refine (notes_drawImprovement 50 80).bind ?_
  rintro first improvement rfl
  refine notes_coinFlip.bind ?_
  rintro first toss rfl
  cases toss with
  | false => exact notes_pure ⟨false, rfl, rfl⟩
  | true =>
      refine (notes_nextInRange 0 10).bind ?_
      rintro first penalty rfl
      exact notes_pure ⟨true, rfl, rfl⟩

theorem notes_forOrder :
    Notes (Kept (σ := σ)) (forOrder f) (forOrder f)
      fun tosses ds => tosses = [] ∧ ds.map Draft.shape = orderShapes f := by
  unfold forOrder orderShapes
  cases f.hasOrderBy with
  | false => exact notes_pure ⟨rfl, rfl⟩
  | true =>
      cases orderTarget? f with
      | none => exact notes_pure ⟨rfl, rfl⟩
      | some target =>
          refine (notes_drawImprovement 30 60).bind ?_
          rintro first improvement rfl
          exact notes_pure ⟨rfl, rfl⟩

/-- Conditions have no tosses. -/
theorem map_shape_of_conditions {ps : List Predicate} {tosses : List Bool} {ds : List Draft}
    (h : Parts (fun p tosses d => tosses = [] ∧ d.shape = conditionShape f p) ps tosses ds) :
    tosses = [] ∧ ds.map Draft.shape = ps.map (conditionShape f) := by
  induction ps generalizing tosses ds with
  | nil =>
      obtain ⟨rfl, rfl⟩ := h
      exact ⟨rfl, rfl⟩
  | cons p ps ih =>
      obtain ⟨first, more, d, rest, rfl, rfl, ⟨rfl, hd⟩, hrest⟩ := h
      obtain ⟨rfl, hmap⟩ := ih hrest
      exact ⟨rfl, by rw [List.map_cons, List.map_cons, hd, hmap]⟩

/-- Join pairs have a toss each. -/
theorem map_shape_of_joins {ps : List JoinPair} {tosses : List Bool} {dss : List (List Draft)}
    (h : Parts (fun p tosses ds =>
      ∃ toss, tosses = [toss] ∧ ds.map Draft.shape = joinShapes f p toss) ps tosses dss) :
    tosses.length = ps.length ∧ dss.flatten.map Draft.shape = joinsShapes f ps tosses := by
  induction ps generalizing tosses dss with
  | nil =>
      obtain ⟨rfl, rfl⟩ := h
      exact ⟨rfl, rfl⟩
  | cons p ps ih =>
      obtain ⟨first, more, ds, rest, rfl, rfl, ⟨toss, rfl, hds⟩, hrest⟩ := h
      obtain ⟨hlength, hmap⟩ := ih hrest
      refine ⟨congrArg Nat.succ hlength, ?_⟩
      rw [List.flatten_cons, List.map_append, hds, hmap]
      rfl

theorem notes_ruleDrafts :
    Notes (Kept (σ := σ)) (ruleDrafts f) (ruleDrafts f) fun tosses ds =>
      tosses.length = f.joinPairs.length ∧ ds.map Draft.shape = ruleShapes f tosses := by
  unfold ruleDrafts
  refine (notes_mapM (notes_forPredicate f) f.predicates).bind fun first conditions hfirst => ?_
  obtain ⟨rfl, hconditions⟩ := map_shape_of_conditions f hfirst
  refine (notes_mapM (notes_forJoinPair f) f.joinPairs).bind fun tosses joins htosses => ?_
  obtain ⟨hlength, hjoins⟩ := map_shape_of_joins f htosses
  refine (notes_forOrder f).bind fun last order hlast => ?_
  obtain ⟨rfl, horder⟩ := hlast
  refine notes_pure ?_
  rw [List.append_nil, List.append_nil, List.nil_append]
  refine ⟨hlength, ?_⟩
  rw [List.map_append, List.map_append, hconditions, hjoins, horder]
  rfl

theorem notes_drafts :
    Notes (Kept (σ := σ)) (drafts f) (drafts f) fun tosses ds =>
      tosses.length = f.joinPairs.length ∧ ds.map Draft.shape = draftShapes f tosses := by
  unfold drafts
  refine (notes_ruleDrafts f).bind fun tosses ds hds => notes_pure ?_
  obtain ⟨hlength, hshapes⟩ := hds
  rw [List.append_nil, draftShapes, ← hshapes, List.isEmpty_map]
  refine ⟨hlength, ?_⟩
  cases ds.isEmpty with
  | false => rfl
  | true => rfl

/-- **The shapes of the recommendations** are known from the features and from a toss for each join
pair. -/
theorem notes_recommend :
    Notes (Kept (σ := σ)) (recommend f) (recommend f) fun tosses rs =>
      tosses.length = f.joinPairs.length ∧ rs.map Recommendation.shape = shapes f tosses := by
  unfold recommend
  refine (notes_drafts f).bind fun tosses ds hds => notes_pure ?_
  obtain ⟨hlength, hshapes⟩ := hds
  rw [List.append_nil]
  refine ⟨hlength, ?_⟩
  rw [map_shape_mapIdx_numbered, hshapes, shapes]

end Notes

/-! ## Tosses from shapes -/

section Reasons

variable (f : Features)

theorem joinsShapes_cons (p : JoinPair) (ps : List JoinPair) (toss : Bool) (tosses : List Bool) :
    joinsShapes f (p :: ps) (toss :: tosses) = joinShapes f p toss ++ joinsShapes f ps tosses := rfl

/-- The second recommendation for a join pair is no first one for the next pair. -/
theorem head_reason_joinsShapes (ps : List JoinPair) (tosses : List Bool) (reasons : List String) :
    (joinsShapes f ps tosses).map Draft.reason ≠ secondaryJoinReason :: reasons := by
  intro h
  cases ps with
  | nil => cases h
  | cons p ps =>
      cases tosses with
      | nil => cases h
      | cons toss tosses =>
          have hreason : joinReason = secondaryJoinReason := (List.cons.inj h).1
          exact absurd hreason (by decide)

/-- The reasons of the drafts for some join pairs tell the tosses. -/
theorem tosses_eq_of_reasons {ps : List JoinPair} {tosses tosses' : List Bool}
    (hlength : tosses.length = ps.length) (hlength' : tosses'.length = ps.length)
    (h : (joinsShapes f ps tosses).map Draft.reason = (joinsShapes f ps tosses').map Draft.reason) :
    tosses = tosses' := by
  induction ps generalizing tosses tosses' with
  | nil => rw [List.length_eq_zero_iff.mp hlength, List.length_eq_zero_iff.mp hlength']
  | cons p ps ih =>
      obtain ⟨toss, tosses, rfl⟩ := List.exists_cons_of_length_eq_add_one hlength
      obtain ⟨toss', tosses', rfl⟩ := List.exists_cons_of_length_eq_add_one hlength'
      rw [joinsShapes_cons, joinsShapes_cons, List.map_append, List.map_append] at h
      have htail := (List.cons.inj h).2
      have hrest := ih (Nat.succ.inj hlength) (Nat.succ.inj hlength')
      -- where two tosses differ, one list goes on with the reason that only a toss gives
      cases toss with
      | false =>
          cases toss' with
          | false => rw [hrest htail]
          | true => exact absurd htail (head_reason_joinsShapes f ps tosses _)
      | true =>
          cases toss' with
          | false => exact absurd htail.symm (head_reason_joinsShapes f ps tosses' _)
          | true => rw [hrest (List.cons.inj htail).2]

/-- A statement with a join pair has a recommendation of the rules. -/
theorem isEmpty_ruleShapes {tosses : List Bool} (hlength : tosses.length = f.joinPairs.length)
    (hne : f.joinPairs ≠ []) : (ruleShapes f tosses).isEmpty = false := by
  obtain ⟨p, ps, hps⟩ := List.exists_cons_of_ne_nil hne
  rw [hps] at hlength
  obtain ⟨toss, tosses, rfl⟩ := List.exists_cons_of_length_eq_add_one hlength
  rw [ruleShapes, hps, joinsShapes_cons]
  simp [joinShapes]

/-- **The shapes of the recommendations tell the tosses.** -/
theorem tosses_eq_of_shapes {tosses tosses' : List Bool}
    (hlength : tosses.length = f.joinPairs.length) (hlength' : tosses'.length = f.joinPairs.length)
    (h : shapes f tosses = shapes f tosses') : tosses = tosses' := by
  by_cases hne : f.joinPairs = []
  · rw [hne] at hlength hlength'
    rw [List.length_eq_zero_iff.mp hlength, List.length_eq_zero_iff.mp hlength']
  · have hreasons := congrArg (List.map Recommendation.reason) h
    rw [shapes, shapes, map_reason_mapIdx_numbered, map_reason_mapIdx_numbered, draftShapes,
      draftShapes, isEmpty_ruleShapes f hlength hne, isEmpty_ruleShapes f hlength' hne] at hreasons
    -- Conditions and ordering have the same reasons in both, so the joins between them have.
    simp only [Bool.false_eq_true, if_false, ruleShapes, List.map_append] at hreasons
    exact tosses_eq_of_reasons f hlength hlength'
      (List.append_cancel_left (List.append_cancel_right hreasons))

end Reasons

end Advice

end IndexAdvisor
