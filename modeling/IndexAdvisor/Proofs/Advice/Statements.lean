import IndexAdvisor.Proofs.Advice.Rules
import IndexAdvisor.Proofs.Advice.Shapes
import IndexAdvisor.Proofs.Index.Statement
import IndexAdvisor.Proofs.Sql.Names
import IndexAdvisor.Random.Scripted

/-!
# Statements of recommendations

Each recommendation has columns, and a statement over its table and columns that is well-formed but
for a table name with a missing part. Such a name comes from a FROM clause only: a word that is
nothing but points, or that begins or ends with one, is taken for a table as it stands.
-/

set_option autoImplicit false

namespace IndexAdvisor.Advice

open IndexAdvisor.Random
open IndexAdvisor.Sql

/-- What a draft asks for can be written down, if the tables of its statement can. -/
structure Draft.Stated (f : Features) (d : Draft) : Prop where
  columns_ne_nil : d.columns ≠ []
  columns : ∀ column ∈ d.columns, column.toList ≠ []
  table : (∀ t ∈ f.tables, IsPath t.toList) → IsPath d.table.toList

section Stated

variable {f : Features}

theorem isPath_primaryTable (hf : f.Named) (h : ∀ t ∈ f.tables, IsPath t.toList) :
    IsPath f.primaryTable.toList := by
  obtain ⟨t, ts, htables⟩ := List.exists_cons_of_ne_nil hf.tables_ne_nil
  have hprimary : f.primaryTable = t := by
    rw [Features.primaryTable, htables]
    rfl
  rw [hprimary]
  exact h t (htables ▸ List.mem_cons_self)

theorem isPath_resolveTable (hf : f.Named) (h : ∀ t ∈ f.tables, IsPath t.toList) {q : String}
    (hq : Bare q.toList) : IsPath (f.resolveTable q).toList := by
  rw [Features.resolveTable]
  rcases f.aliases.resolve_eq q with hself | ⟨b, hb, htable⟩
  · rw [hself]
    exact hq.isPath
  · rw [htable]
    exact hf.aliases h b hb

/-- A draft for one column. -/
theorem stated_singleton {d : Draft} {column : String} (hd : d.columns = [column])
    (hcolumn : column.toList ≠ [])
    (htable : (∀ t ∈ f.tables, IsPath t.toList) → IsPath d.table.toList) : d.Stated f where
  columns_ne_nil := hd ▸ List.cons_ne_nil _ _
  columns c hc := by
    rw [hd, List.mem_singleton] at hc
    rwa [hc]
  table := htable

theorem stated_conditionShape (hf : f.Named) {p : Predicate} (hp : p ∈ f.predicates) :
    (conditionShape f p).Stated f := by
  have hnamed := hf.predicates p hp
  refine stated_singleton rfl hnamed.1.1 fun htables => ?_
  show IsPath (predicateTable f p).toList
  rw [predicateTable]
  split
  · exact isPath_resolveTable hf htables (hnamed.2 _ ‹_›)
  · exact isPath_primaryTable hf htables

theorem stated_joinShapes (hf : f.Named) {p : JoinPair} (hp : p ∈ f.joinPairs) {toss : Bool}
    {d : Draft} (hd : d ∈ joinShapes f p toss) : d.Stated f := by
  have hnamed := hf.joinPairs p hp
  rw [joinShapes, List.mem_cons] at hd
  rcases hd with rfl | hd
  · exact stated_singleton rfl hnamed.leftColumn.1 fun htables =>
      isPath_resolveTable hf htables hnamed.leftTable
  · split at hd
    · rw [List.mem_singleton] at hd
      rw [hd]
      exact stated_singleton rfl hnamed.rightColumn.1 fun htables =>
        isPath_resolveTable hf htables hnamed.rightTable
    · exact absurd hd List.not_mem_nil

theorem exists_of_mem_joinsShapes {ps : List JoinPair} {tosses : List Bool} {d : Draft}
    (hd : d ∈ joinsShapes f ps tosses) : ∃ p ∈ ps, ∃ toss, d ∈ joinShapes f p toss := by
  induction ps generalizing tosses with
  | nil => exact absurd hd List.not_mem_nil
  | cons p ps ih =>
      cases tosses with
      | nil => exact absurd hd List.not_mem_nil
      | cons toss tosses =>
          rw [joinsShapes_cons, List.mem_append] at hd
          rcases hd with hd | hd
          · exact ⟨p, List.mem_cons_self, toss, hd⟩
          · obtain ⟨q, hq, hd⟩ := ih hd
            exact ⟨q, List.mem_cons_of_mem p hq, hd⟩

theorem isIdentifier_bare {w : List Char} (hw : isIdentifier w = true) : Bare w := by
  cases w with
  | nil => cases hw
  | cons c cs =>
      rw [isIdentifier, Bool.and_eq_true, List.all_eq_true] at hw
      refine ⟨List.cons_ne_nil _ _, fun hmem => ?_⟩
      rcases List.mem_cons.mp hmem with rfl | hmem
      · exact absurd hw.1 (by decide)
      · exact absurd (hw.2 '.' hmem) (by decide)

/-- A column of an ordering has a name, and a table with all of its parts if the others have. -/
theorem stated_orderOwner (hf : f.Named) {column : String} (hcolumn : column ∈ f.orderColumns) :
    (orderOwner f column).2.toList ≠ [] ∧
    ((∀ t ∈ f.tables, IsPath t.toList) → IsPath (orderOwner f column).1.toList) := by
  have href := hf.orderColumns column hcolumn
  -- the column was let in cut at all of its points, and its owner is told by the last one
  have hparts : ['.'].intercalate (column.toList.splitOn '.') = column.toList :=
    List.intercalate_splitOn '.'
  rw [isColumnRef] at href
  split at href
  · rename_i name hsplit
    obtain rfl : name = column.toList := by
      rw [hsplit, List.intercalate_singleton] at hparts
      exact hparts
    have hbare := isIdentifier_bare href
    rw [orderOwner, Text.splitAtLast?_eq_none hbare.2]
    exact ⟨hbare.1, isPath_primaryTable hf⟩
  · rename_i qualifier name hsplit
    rw [Bool.and_eq_true] at href
    have hqualifier := isIdentifier_bare href.1
    have hname := isIdentifier_bare href.2
    have htext : column.toList = qualifier ++ '.' :: name := by
      rw [← hparts, hsplit, List.intercalate_cons_cons, List.intercalate_singleton,
        List.append_assoc]
      rfl
    rw [orderOwner, htext, Text.splitAtLast?_append hname.2]
    refine ⟨by rw [String.toList_ofList]; exact hname.1, fun htables => ?_⟩
    exact isPath_resolveTable hf htables (by rw [String.toList_ofList]; exact hqualifier)
  · cases href

theorem stated_orderShapes (hf : f.Named) {d : Draft} (hd : d ∈ orderShapes f) : d.Stated f := by
  rw [orderShapes] at hd
  split at hd
  · split at hd
    · rename_i table names htarget
      rw [List.mem_singleton] at hd
      subst hd
      have hchosen := target_of_orderTarget? htarget
      have howned {name : String} (hname : name ∈ names) : name.toList ≠ [] ∧
          ((∀ t ∈ f.tables, IsPath t.toList) → IsPath table.toList) := by
        obtain ⟨column, hcolumn, howner⟩ := List.mem_map.mp (hchosen.mem_names_iff.mp hname)
        have hstated := stated_orderOwner hf hcolumn
        rwa [howner] at hstated
      obtain ⟨name, hname⟩ := List.exists_mem_of_ne_nil names hchosen.names_ne_nil
      exact
        { columns_ne_nil := hchosen.names_ne_nil
          columns := fun name hname => (howned hname).1
          table := (howned hname).2 }
    · exact absurd hd List.not_mem_nil
  · exact absurd hd List.not_mem_nil

/-- **Each draft can be written down.** -/
theorem stated_draftShapes (hf : f.Named) {tosses : List Bool} {d : Draft}
    (hd : d ∈ draftShapes f tosses) : d.Stated f := by
  rw [draftShapes] at hd
  split at hd
  · rw [List.mem_singleton] at hd
    rw [hd]
    exact stated_singleton rfl (by decide) (isPath_primaryTable hf)
  · rw [ruleShapes, List.mem_append, List.mem_append] at hd
    rcases hd with (hd | hd) | hd
    · obtain ⟨p, hp, rfl⟩ := List.mem_map.mp hd
      exact stated_conditionShape hf hp
    · obtain ⟨p, hp, toss, hd⟩ := exists_of_mem_joinsShapes hd
      exact stated_joinShapes hf hp hd
    · exact stated_orderShapes hf hd

end Stated

/-! ## Recommendations -/

section Recommend

variable {σ : Type} [Source σ]

/-- A recommendation is a draft with a number, and the draft has one of the shapes. -/
theorem exists_draft_of_mem_recommend {f : Features} {s : σ} {r : Recommendation}
    (hr : r ∈ (recommend f s).1) :
    ∃ (position : Nat) (d : Draft) (tosses : List Bool),
      r = d.numbered position ∧ d.shape ∈ draftShapes f tosses := by
  obtain ⟨tosses, -, -, -, hshapes⟩ := notes_drafts f s ⟨s, []⟩ [] rfl
  obtain ⟨position, hposition, rfl⟩ := List.mem_mapIdx.mp hr
  refine ⟨position, _, tosses, rfl, ?_⟩
  rw [← hshapes]
  exact List.mem_map_of_mem (List.getElem_mem hposition)

/-- **The statement of a recommendation.** For every statement and every source, a recommendation
has columns, an improvement of at most 100 and the statement of its kind, table and columns. That is
a well-formed `CREATE INDEX` if and only if the table name has all of its parts, as it has wherever
the tables of the FROM clause have theirs. -/
theorem wellFormed_of_mem_recommend (sql : String) (s : σ) :
    ∀ r ∈ (recommend (features sql) s).1,
      r.columns ≠ [] ∧ r.improvement ≤ 100 ∧ r.sql = Index.statement r.kind r.table r.columns ∧
      (Index.WellFormed r.kind r.sql.toList ↔ IsPath r.table.toList) ∧
      ((∀ t ∈ (features sql).tables, IsPath t.toList) →
        Index.WellFormed r.kind r.sql.toList) := by
  intro r hr
  obtain ⟨position, d, tosses, rfl, hd⟩ := exists_draft_of_mem_recommend hr
  have hstated := stated_draftShapes (features_named sql) hd
  have hcolumns : d.columns ≠ [] := hstated.columns_ne_nil
  have hnames : ∀ column ∈ d.columns.map String.toList, column ≠ [] :=
    List.forall_mem_map.mpr hstated.columns
  have hform : Index.WellFormed d.kind (d.numbered position).sql.toList ↔
      IsPath d.table.toList := by
    show Index.WellFormed d.kind (Index.statement d.kind d.table d.columns).toList ↔ _
    rw [Index.statement, String.toList_ofList]
    exact Index.wellFormed_statementOf_iff d.kind d.table.toList
      (fun h => hcolumns (List.map_eq_nil_iff.mp h)) hnames
  have hcap : min d.improvement 100 ≤ 100 := by
    show (if d.improvement ≤ 100 then d.improvement else 100) ≤ 100
    split
    · assumption
    · decide
  exact ⟨hcolumns, hcap, rfl, hform, fun htables => hform.mpr (hstated.table htables)⟩

/-- A table of a schema. -/
theorem wellFormed_of_mem_recommend_orders :
    let sql := "SELECT * FROM public.orders"
    let r := Recommendation.make 1 .bTree "public.orders" ["id"] 35 fallbackReason none
    r ∈ (recommend (features sql) (Scripted.start [0] [0])).1 ∧
    (∀ t ∈ (features sql).tables, IsPath t.toList) ∧ Index.WellFormed r.kind r.sql.toList := by
  intro sql r
  have hmem : r ∈ (recommend (features sql) (Scripted.start [0] [0])).1 := by decide +kernel
  have htables : ∀ t ∈ (features sql).tables, IsPath t.toList := by decide +kernel
  exact ⟨hmem, htables,
    (wellFormed_of_mem_recommend sql (Scripted.start [0] [0]) r hmem).2.2.2.2 htables⟩

/-- A point is taken for a table, and no index can be created on it. -/
theorem not_wellFormed_point :
    ¬∀ r ∈ (recommend (features "SELECT * FROM .") (Scripted.start [0] [0])).1,
      r.columns ≠ [] ∧ r.improvement ≤ 100 ∧ r.sql = Index.statement r.kind r.table r.columns ∧
      Index.WellFormed r.kind r.sql.toList := by
  intro h
  have hmem : Recommendation.make 1 .bTree "." ["id"] 35 fallbackReason none ∈
      (recommend (features "SELECT * FROM .") (Scripted.start [0] [0])).1 := by decide +kernel
  have hform : Index.WellFormed .bTree (Index.statementOf .bTree ['.'] [['i', 'd']]) := by
    have hsql := (h _ hmem).2.2.2
    rwa [Recommendation.make, Index.statement, String.toList_ofList] at hsql
  exact (Index.wellFormed_statementOf_iff .bTree ['.'] (List.cons_ne_nil _ _) (by decide)).mp hform
    (by decide)

end Recommend

end IndexAdvisor.Advice
