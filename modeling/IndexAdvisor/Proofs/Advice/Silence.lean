import IndexAdvisor.Proofs.Advice.Rules
import IndexAdvisor.Proofs.Advice.Shapes

/-!
# Statements without advice

No rule is about a statement that has no conditions, no join pairs and no ordering by columns, and a
statement that has one of these always gets a recommendation of a rule. The general recommendation
is made for the former ones, alone, and can be told by its reason, which is that of no rule. None of
this depends on the draws.
-/

set_option autoImplicit false

namespace IndexAdvisor.Advice

open IndexAdvisor.Random
open IndexAdvisor.Sql

/-- No rule is about a statement with these features. -/
structure Silent (f : Features) : Prop where
  predicates : f.predicates = []
  joinPairs : f.joinPairs = []
  ordering : f.hasOrderBy = true → f.orderColumns = []

theorem silent_iff {f : Features} : Silent f ↔
    f.predicates = [] ∧ f.joinPairs = [] ∧ (f.hasOrderBy = true → f.orderColumns = []) :=
  ⟨fun h => ⟨h.predicates, h.joinPairs, h.ordering⟩, fun h => ⟨h.1, h.2.1, h.2.2⟩⟩

instance : DecidablePred Silent := fun _ => decidable_of_iff _ silent_iff.symm

variable {f : Features}

theorem orderShapes_eq_nil_iff :
    orderShapes f = [] ↔ (f.hasOrderBy = true → f.orderColumns = []) := by
  unfold orderShapes
  cases f.hasOrderBy with
  | false => simp
  | true =>
      cases htarget : orderTarget? f with
      | none => simp [orderTarget?_eq_none_iff.mp htarget]
      | some target =>
          have hcolumns : f.orderColumns ≠ [] := by
            rw [ne_eq, ← orderTarget?_eq_none_iff, htarget]
            exact Option.some_ne_none _
          simp [hcolumns]

/-- The rules stay silent on the statements that they are not about, however the coins fall. -/
theorem ruleShapes_eq_nil_iff {tosses : List Bool} (h : tosses.length = f.joinPairs.length) :
    ruleShapes f tosses = [] ↔ Silent f := by
  rw [silent_iff, ← orderShapes_eq_nil_iff]
  by_cases hjoins : f.joinPairs = []
  · simp [ruleShapes, hjoins, joinsShapes]
  · have hne : ruleShapes f tosses ≠ [] := by
      rw [ne_eq, ← List.isEmpty_iff, isEmpty_ruleShapes f h hjoins]
      exact Bool.false_ne_true
    simp [hne, hjoins]

theorem reason_kindFor_ne (p : Predicate) : (kindFor p).2 ≠ fallbackReason := by
  have hbitmap : bitmapReason ≠ fallbackReason := by decide
  have hhash : hashReason ≠ fallbackReason := by decide
  have hpattern : patternReason ≠ fallbackReason := by decide
  have hrange : rangeReason ≠ fallbackReason := by decide
  unfold kindFor
  split
  · split
    · exact hbitmap
    · exact hhash
  · exact hpattern
  · exact hrange

theorem reason_ne_of_mem_joinShapes {p : JoinPair} {toss : Bool} {d : Draft}
    (h : d ∈ joinShapes f p toss) : d.reason ≠ fallbackReason := by
  have hleft : joinReason ≠ fallbackReason := by decide
  have hright : secondaryJoinReason ≠ fallbackReason := by decide
  rcases List.mem_cons.mp h with rfl | h
  · exact hleft
  · cases toss with
    | false => cases h
    | true =>
        rw [List.mem_singleton.mp h]
        exact hright

theorem reason_ne_of_mem_joinsShapes {ps : List JoinPair} {tosses : List Bool} {d : Draft}
    (h : d ∈ joinsShapes f ps tosses) : d.reason ≠ fallbackReason := by
  obtain ⟨part, hpart, hd⟩ := List.mem_flatten.mp h
  obtain ⟨k, hk, rfl⟩ := List.mem_iff_getElem.mp hpart
  rw [List.getElem_zipWith] at hd
  exact reason_ne_of_mem_joinShapes hd

theorem reason_ne_of_mem_orderShapes {d : Draft} (h : d ∈ orderShapes f) :
    d.reason ≠ fallbackReason := by
  have horder : orderReason ≠ fallbackReason := by decide
  unfold orderShapes at h
  split at h
  · split at h
    · rw [List.mem_singleton.mp h]
      exact horder
    · cases h
  · cases h

/-- No rule gives the reason of the general recommendation. -/
theorem reason_ne_of_mem_ruleShapes {tosses : List Bool} {d : Draft} (h : d ∈ ruleShapes f tosses) :
    d.reason ≠ fallbackReason := by
  rcases List.mem_append.mp h with h | h
  · rcases List.mem_append.mp h with h | h
    · obtain ⟨p, -, rfl⟩ := List.mem_map.mp h
      exact reason_kindFor_ne p
    · exact reason_ne_of_mem_joinsShapes h
  · exact reason_ne_of_mem_orderShapes h

/-! ## Silence and the drafts -/

section Drafts

variable {σ : Type} [Source σ]

/-- **The rules make no draft for the statements that they are not about**, and for these only. -/
theorem ruleDrafts_eq_nil_iff (f : Features) (s : σ) : (ruleDrafts f s).1 = [] ↔ Silent f := by
  obtain ⟨tosses, -, -, hlength, hshapes⟩ := notes_ruleDrafts f s ⟨s, []⟩ [] rfl
  rw [← ruleShapes_eq_nil_iff hlength, ← hshapes, List.map_eq_nil_iff]

/-- The reason of the general recommendation is given where no rule is about the statement. -/
theorem fallbackReason_mem_iff (f : Features) (s : σ) :
    fallbackReason ∈ (recommend f s).1.map Recommendation.reason ↔ Silent f := by
  obtain ⟨tosses, -, -, hlength, hshapes⟩ := notes_drafts f s ⟨s, []⟩ [] rfl
  have hreasons : (recommend f s).1.map Recommendation.reason =
      (draftShapes f tosses).map Draft.reason := by
    rw [← hshapes, List.map_map]
    exact map_reason_mapIdx_numbered _
  rw [hreasons, draftShapes, ← ruleShapes_eq_nil_iff hlength]
  by_cases hnil : ruleShapes f tosses = []
  · rw [hnil]
    exact iff_of_true List.mem_cons_self rfl
  · rw [if_neg (by rwa [List.isEmpty_iff])]
    refine iff_of_false (fun hmem => ?_) hnil
    obtain ⟨d, hd, hreason⟩ := List.mem_map.mp hmem
    exact reason_ne_of_mem_ruleShapes hd hreason

/-- Where no rule is about the statement, the general recommendation is made alone. -/
theorem recommend_of_silent (h : Silent f) (s : σ) :
    (recommend f s).1 = [(fallback f).numbered 0] := by
  have hdrafts : (drafts f s).1 = [fallback f] := by
    show (if (ruleDrafts f s).1.isEmpty then [fallback f] else (ruleDrafts f s).1) = _
    rw [(ruleDrafts_eq_nil_iff f s).mpr h]
    rfl
  exact congrArg (List.mapIdx Draft.numbered) hdrafts

end Drafts

end IndexAdvisor.Advice
