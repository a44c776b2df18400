import IndexAdvisor.Proofs.Advice.Rules
import IndexAdvisor.Proofs.Advice.Shapes
import IndexAdvisor.Proofs.Sql.Bindings
import IndexAdvisor.Random.Scripted

/-!
# Recommendations for qualified columns

A column that an alias of a FROM entry qualifies is recommended on the table that the alias stands
for. That is one of the tables that are reported if and only if nothing is cut off the ends of the
word that the alias is bound to.
-/

set_option autoImplicit false

namespace IndexAdvisor.Advice

open IndexAdvisor.Random
open IndexAdvisor.Sql

/-! ## Which recommendation is for what -/

section Recommended

variable {σ : Type} [Source σ] {f : Features}

theorem exists_shapes (f : Features) (s : σ) :
    ∃ tosses, (recommend f s).1.map Recommendation.shape = shapes f tosses := by
  obtain ⟨tosses, -, -, -, hshapes⟩ := notes_recommend f s ⟨s, []⟩ [] rfl
  exact ⟨tosses, hshapes⟩

/-- A recommendation of a known shape, up to its improvement. -/
theorem eq_of_shape {r : Recommendation} {d : Draft} {position : Nat}
    (h : r.shape = d.numbered position) :
    r.table = d.table ∧ r.columns = d.columns ∧ r.operator = d.operator :=
  ⟨congrArg Recommendation.table h, congrArg Recommendation.columns h,
    congrArg Recommendation.operator h⟩

/-- The recommendations of the conditions come first, in the order of the conditions. -/
theorem exists_recommendation_of_predicate (s : σ) {i : Nat} {p : Predicate}
    (hp : f.predicates[i]? = some p) : ∃ r, (recommend f s).1[i]? = some r ∧
      r.table = predicateTable f p ∧ r.columns = [p.column] ∧ r.operator = some p.operator := by
  obtain ⟨tosses, hshapes⟩ := exists_shapes f s
  have hmap : (f.predicates.map (conditionShape f))[i]? = some (conditionShape f p) := by
    rw [List.getElem?_map, hp]
    rfl
  obtain ⟨hi, -⟩ := List.getElem?_eq_some_iff.mp hmap
  have hrule : (ruleShapes f tosses)[i]? = some (conditionShape f p) := by
    rw [ruleShapes, List.append_assoc, List.getElem?_append_left hi, hmap]
  -- the condition has a draft, so the rules have not come to nothing
  have hdraft : draftShapes f tosses = ruleShapes f tosses := by
    refine if_neg fun hempty => ?_
    rw [List.isEmpty_iff.mp hempty] at hrule
    cases hrule
  have hshape : ((recommend f s).1.map Recommendation.shape)[i]? =
      some ((conditionShape f p).numbered i) := by
    rw [hshapes, shapes, List.getElem?_mapIdx, hdraft, hrule]
    rfl
  rw [List.getElem?_map, Option.map_eq_some_iff] at hshape
  obtain ⟨r, hr, hshape⟩ := hshape
  exact ⟨r, hr, eq_of_shape hshape⟩

/-- The recommendation of the ordering comes last. -/
theorem exists_recommendation_of_orderTarget? (s : σ) (horder : f.hasOrderBy = true)
    {target : String × List String} (htarget : orderTarget? f = some target) :
    ∃ r, (recommend f s).1.getLast? = some r ∧ r.table = target.1 ∧ r.columns = target.2 := by
  obtain ⟨tosses, hshapes⟩ := exists_shapes f s
  have hlast : (ruleShapes f tosses).getLast? =
      some ⟨.bTree, target.1, target.2, 0, orderReason, none⟩ := by
    have hone : orderShapes f = [⟨.bTree, target.1, target.2, 0, orderReason, none⟩] := by
      rw [orderShapes, if_pos horder, htarget]
    rw [ruleShapes, hone, List.getLast?_concat]
  have hdraft : draftShapes f tosses = ruleShapes f tosses := by
    refine if_neg fun hempty => ?_
    rw [List.isEmpty_iff.mp hempty] at hlast
    cases hlast
  have hshape := congrArg List.getLast? hshapes
  rw [shapes, List.getLast?_mapIdx, hdraft, hlast, List.getLast?_map] at hshape
  obtain ⟨r, hr, hshape⟩ := Option.map_eq_some_iff.mp hshape
  obtain ⟨htable, hcolumns, -⟩ := eq_of_shape hshape
  exact ⟨r, hr, htable, hcolumns⟩

end Recommended

/-! ## Orderings -/

section Orderings

variable {f : Features} {column : String}

/-- A column of the ordering is among those of its target if it belongs to the same table, and it
does if it belongs to the first table. -/
theorem exists_orderTarget? (h : column ∈ f.orderColumns) :
    ∃ target, orderTarget? f = some target ∧
      ((orderOwner f column).1 = f.primaryTable → target.1 = (orderOwner f column).1) ∧
      (target.1 = (orderOwner f column).1 → (orderOwner f column).2 ∈ target.2) := by
  have howner : orderOwner f column ∈ f.orderColumns.map (orderOwner f) := List.mem_map_of_mem h
  cases htarget : orderTarget? f with
  | none => exact absurd h (orderTarget?_eq_none_iff.mp htarget ▸ List.not_mem_nil)
  | some target =>
      have hchosen := target_of_orderTarget? htarget
      refine ⟨target, rfl, fun hprimary => ?_, fun htable => ?_⟩
      · rw [hprimary]
        exact hchosen.primary ⟨_, howner, hprimary⟩
      · rw [hchosen.mem_names_iff, htable]
        exact howner

/-- A statement whose ordering has columns has an ordering. -/
theorem hasOrderBy_of_mem {sql : String} (h : column ∈ (features sql).orderColumns) :
    (features sql).hasOrderBy = true := by
  cases horder : orderByClause (normalize sql.toList) with
  | none =>
      have hnone : (features sql).orderColumns = [] := by
        simp only [features, horder]
        rfl
      rw [hnone] at h
      exact absurd h List.not_mem_nil
  | some t =>
      have hmentions : mentions ["order", "by"] (normalize sql.toList) = true :=
        mentions_of_clause (by decide) (by decide) (by decide) horder
      exact hmentions

end Orderings

/-! ## Aliases -/

/-- The recommendations for columns that `n` qualifies are on `table`: that of each condition, and
that of the ordering if the ordering is about this table. -/
structure AdvisedOn (f : Features) (rs : List Recommendation) (n table : String) : Prop where
  conditions : ∀ (i : Nat) (p : Predicate), f.predicates[i]? = some p → p.table = some n →
    ∃ r, rs[i]? = some r ∧ r.table = table ∧ r.columns = [p.column] ∧ r.operator = some p.operator
  ordering : ∀ column ∈ f.orderColumns, ∀ name,
    Text.splitAtLast? '.' column.toList = some (n.toList, name) →
    ∃ r, rs.getLast? = some r ∧ orderTarget? f = some (r.table, r.columns) ∧
      (table = f.primaryTable → r.table = table) ∧
      (r.table = table → String.ofList name ∈ r.columns)

section Aliases

variable {σ : Type} [Source σ]

theorem advisedOn_resolveTable {f : Features} (s : σ)
    (horder : ∀ column ∈ f.orderColumns, f.hasOrderBy = true) (n : String) :
    AdvisedOn f (recommend f s).1 n (f.resolveTable n) where
  conditions i p hp htable := by
    obtain ⟨r, hr, hown, hrest⟩ := exists_recommendation_of_predicate s hp
    refine ⟨r, hr, ?_, hrest⟩
    rw [hown, predicateTable, htable]
  ordering column hcolumn name hsplit := by
    have howner : orderOwner f column = (f.resolveTable n, String.ofList name) := by
      rw [orderOwner, hsplit]
      exact congrArg (fun q => (f.resolveTable q, String.ofList name)) String.ofList_toList
    obtain ⟨target, htarget, hprimary, hkept⟩ := exists_orderTarget? hcolumn
    rw [howner] at hprimary hkept
    obtain ⟨r, hr, htable, hcolumns⟩ :=
      exists_recommendation_of_orderTarget? s (horder column hcolumn) htarget
    exact ⟨r, hr, by rw [htarget, htable, hcolumns], fun h => htable.trans (hprimary h),
      fun h => hcolumns ▸ hkept (htable.symm.trans h)⟩

/-- **The table of an alias.** For every statement, every entry of its FROM text and every alias the
entry introduces: the alias stands for the table it is bound to last, and what it qualifies is
recommended on that table. The table is listed among those of the statement or named by a join, and
in a statement of one table is the one that unqualified columns belong to, if and only if its name
begins and ends with characters that are not cut off where tables are listed. -/
theorem resolveTable_alias (sql : String) (s : σ) {t entry n : List Char}
    (hfrom : fromClause (normalize sql.toList) = some t) (hentry : entry ∈ t.splitOn ',')
    (hn : Introduces entry n) :
    ∃ table, lastBound n (bindingsOf (normalize sql.toList)) = some table ∧
      (features sql).resolveTable (String.ofList n) = String.ofList table ∧
      (Reported sql (String.ofList table) ↔ Trimmed table) ∧
      ((features sql).tables.length = 1 → joinTargets (normalize sql.toList) = [] →
        (String.ofList table = (features sql).primaryTable ↔ Trimmed table)) ∧
      AdvisedOn (features sql) (recommend (features sql) s).1 (String.ofList n)
        (String.ofList table) := by
  obtain ⟨table, hlast⟩ := hn.exists_lastBound hfrom hentry
  have hresolve : (features sql).resolveTable (String.ofList n) = String.ofList table := by
    rw [resolveTable_eq, hlast]
    rfl
  have hreported : Reported sql (String.ofList table) ↔ Trimmed table :=
    reported_iff_of_mem_bindings (mem_of_lastBound hlast)
  refine ⟨table, hlast, hresolve, hreported, fun hone hjoins => ?_,
    hresolve ▸ advisedOn_resolveTable s (fun _ hcolumn => hasOrderBy_of_mem hcolumn) _⟩
  obtain ⟨only, htables⟩ := List.length_eq_one_iff.mp hone
  have hprimary : (features sql).primaryTable = only := by
    rw [Features.primaryTable, htables]
    rfl
  rw [← hreported, Reported, hjoins, htables, hprimary, List.mem_singleton]
  exact (or_iff_left List.not_mem_nil).symm

/-- An alias of a plain table. -/
theorem resolveTable_alias_orders :
    let sql := "SELECT * FROM orders o WHERE o.status = 1 ORDER BY o.created"
    (features sql).resolveTable "o" = "orders" ∧ Reported sql "orders" ∧
      AdvisedOn (features sql) (recommend (features sql) (Scripted.start [0] [0])).1 "o"
        "orders" := by
  intro sql
  have hfrom : fromClause (normalize sql.toList) = some "orders o".toList := by decide +kernel
  have hn : Introduces "orders o".toList "o".toList :=
    ⟨"orders".toList, [], Or.inl (by decide)⟩
  obtain ⟨table, hlast, hresolve, hreported, -, hadvised⟩ :=
    resolveTable_alias sql (Scripted.start [0] [0]) hfrom (by decide : _ ∈ _) hn
  have hbound : lastBound "o".toList (bindingsOf (normalize sql.toList)) =
      some "orders".toList := by decide +kernel
  obtain rfl : "orders".toList = table := Option.some.inj (hbound.symm.trans hlast)
  rw [String.ofList_toList] at hreported
  rw [String.ofList_toList, String.ofList_toList] at hresolve hadvised
  exact ⟨hresolve, hreported.mpr (by decide), hadvised⟩

/-- The quotes of a table name are cut off where it is listed, but not where an alias is bound to
it, so the index is recommended on a table that the statement does not report. -/
theorem resolveTable_alias_quoted :
    let sql := "SELECT * FROM \"orders\" o WHERE o.status = 1"
    fromClause (normalize sql.toList) = some "\"orders\" o".toList ∧
      Introduces "\"orders\" o".toList "o".toList ∧ (features sql).tables = ["orders"] ∧
      (features sql).resolveTable "o" = "\"orders\"" ∧ ¬Reported sql "\"orders\"" ∧
      ((recommend (features sql) (Scripted.start [0] [0])).1.map Recommendation.table) =
        ["\"orders\""] := by
  intro sql
  refine ⟨by decide +kernel, ⟨"\"orders\"".toList, [], Or.inl (by decide)⟩, by decide +kernel,
    by decide +kernel, by decide +kernel, by decide +kernel⟩

end Aliases

end IndexAdvisor.Advice
