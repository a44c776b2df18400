import IndexAdvisor.Advice
import IndexAdvisor.Proofs.Random.Ranges

/-!
# Rules of advice

What the rules ask for is told without the draws: a draft fits its rule if it has the kind, table,
columns and operator that the rule gives and an improvement in the range of the rule. However the
draws of a lawful source fall, the recommendations for a statement are drafts that fit the rules,
one rule after the other, and their numbers count from 1.
-/

set_option autoImplicit false

namespace IndexAdvisor

/-- A recommendation without its number and its statement. -/
def Recommendation.draft (r : Recommendation) : Advice.Draft :=
  ⟨r.kind, r.table, r.columns, r.improvement, r.reason, r.operator⟩

namespace Advice

open IndexAdvisor.Random
open IndexAdvisor.Sql

/-! ## What the rules ask for -/

/-- The draft fits the rule for a condition. -/
structure ForCondition (f : Features) (p : Predicate) (d : Draft) : Prop where
  kind : d.kind =
    if p.operator = .eq then if cardinality p.column = .low then .bitmap else .hash else .bTree
  table : d.table = (p.table.map f.resolveTable).getD f.primaryTable
  columns : d.columns = [p.column]
  reason : d.reason = (kindFor p).2
  operator : d.operator = some p.operator
  improvement : 40 ≤ d.improvement ∧ d.improvement < 80

/-- The drafts fit the rule for a join pair: one for the left column, and maybe one for the right
column, whose improvement falls behind by 9 at most. -/
def ForJoinPair (f : Features) (p : JoinPair) (ds : List Draft) : Prop :=
  ∃ i : UInt8, 50 ≤ i ∧ i < 80 ∧
    let left : Draft := ⟨.bTree, f.resolveTable p.leftTable, [p.leftColumn], i, joinReason, none⟩
    (ds = [left] ∨ ∃ j : UInt8, i - 9 ≤ j ∧ j ≤ i ∧ ds = [left,
      ⟨.bTree, f.resolveTable p.rightTable, [p.rightColumn], j, secondaryJoinReason, none⟩])

/-- A column of an ordering belongs to a table, under a name without points: to the one that its
qualifier stands for, or to the first table of the statement if it has no qualifier. -/
inductive Owned (f : Features) : String → String × String → Prop where
  | qualified (q : String) {name : String} (h : '.' ∉ name.toList) :
      Owned f (q ++ "." ++ name) (f.resolveTable q, name)
  | plain {name : String} (h : '.' ∉ name.toList) : Owned f name (f.primaryTable, name)

/-- An ordering by columns with these owners and names is about this table and these names of its
columns. -/
structure Target (f : Features) (owned : List (String × String)) (table : String)
    (names : List String) : Prop where
  primary : (∃ o ∈ owned, o.1 = f.primaryTable) → table = f.primaryTable
  first : (∀ o ∈ owned, o.1 ≠ f.primaryTable) → owned.head?.map Prod.fst = some table
  names_eq : names = (owned.filter fun o => o.1 = table).map Prod.snd
  names_ne_nil : names ≠ []

/-- The draft fits the rule for an ordering. -/
structure OnOrdering (f : Features) (d : Draft) : Prop where
  kind : d.kind = .bTree
  target : ∃ owned, List.Forall₂ (Owned f) f.orderColumns owned ∧ Target f owned d.table d.columns
  reason : d.reason = orderReason
  operator : d.operator = none
  improvement : 30 ≤ d.improvement ∧ d.improvement < 60

/-- The drafts fit the rule for an ordering: there is one if the statement is ordered by some
column, and none otherwise. -/
def ForOrder (f : Features) (ds : List Draft) : Prop :=
  if f.hasOrderBy = true ∧ f.orderColumns ≠ [] then ∃ d, ds = [d] ∧ OnOrdering f d else ds = []

/-- The drafts fit the rules: those for the conditions come first, then those for the join pairs,
then the one for the ordering. Where the rules ask for nothing, there is the general draft. -/
def Advised (f : Features) (ds : List Draft) : Prop :=
  ∃ (conditions : List Draft) (joins : List (List Draft)) (order general : List Draft),
    ds = conditions ++ joins.flatten ++ order ++ general ∧
    List.Forall₂ (ForCondition f) f.predicates conditions ∧
    List.Forall₂ (ForJoinPair f) f.joinPairs joins ∧
    ForOrder f order ∧
    general = if conditions ++ joins.flatten ++ order = [] then
      [⟨.bTree, f.primaryTable, ["id"], 35, fallbackReason, none⟩] else []

/-! ## Orderings -/

section Orderings

variable {f : Features}

theorem owned_orderOwner (column : String) : Owned f column (orderOwner f column) := by
  unfold orderOwner
  split
  · rename_i qualifier name hsplit
    obtain ⟨hcolumn, hname⟩ := Text.eq_of_splitAtLast?_eq_some hsplit
    have htext : column = String.ofList qualifier ++ "." ++ String.ofList name := by
      rw [← String.toList_inj, hcolumn]
      simp
    rw [htext]
    exact .qualified _ (by rwa [String.toList_ofList])
  · rename_i hsplit
    exact .plain (Text.splitAtLast?_eq_none_iff.mp hsplit)

/-- There is a column on the table that is chosen: one that belongs to the first table of the
statement, or else the first column. -/
theorem target_of_orderTarget? {table : String} {names : List String}
    (h : orderTarget? f = some (table, names)) :
    Target f (f.orderColumns.map (orderOwner f)) table names := by
  unfold orderTarget? at h
  cases howned : f.orderColumns.map (orderOwner f) with
  | nil =>
      rw [howned] at h
      cases h
  | cons first more =>
      rw [howned] at h
      obtain ⟨htable, hnames⟩ := Prod.mk.inj (Option.some.inj h)
      rw [htable] at hnames
      have hany : ((first :: more).any fun o => o.1 == f.primaryTable) = true ↔
          ∃ o ∈ first :: more, o.1 = f.primaryTable := by
        simp only [List.any_eq_true, beq_iff_eq]
      have hprimary : (∃ o ∈ first :: more, o.1 = f.primaryTable) → table = f.primaryTable := by
        intro howner
        rw [← htable, if_pos (hany.mpr howner)]
      have hfirst : (∀ o ∈ first :: more, o.1 ≠ f.primaryTable) → first.1 = table := by
        intro hnone
        rw [← htable, if_neg fun hsome => ?_]
        obtain ⟨o, ho, howner⟩ := hany.mp hsome
        exact hnone o ho howner
      -- whichever way the table was chosen, a column belongs to it
      obtain ⟨o, ho, howner⟩ : ∃ o ∈ first :: more, o.1 = table := by
        by_cases howner : ∃ o ∈ first :: more, o.1 = f.primaryTable
        · obtain ⟨o, ho, heq⟩ := howner
          exact ⟨o, ho, heq.trans (hprimary ⟨o, ho, heq⟩).symm⟩
        · exact ⟨first, List.mem_cons_self, hfirst fun o ho heq => howner ⟨o, ho, heq⟩⟩
      exact
        { primary := hprimary
          first := fun hnone => congrArg some (hfirst hnone)
          names_eq := hnames.symm
          names_ne_nil := hnames ▸ List.ne_nil_of_mem (List.mem_map_of_mem
            (List.mem_filter.mpr ⟨ho, beq_iff_eq.mpr howner⟩)) }

/-- The names that are kept are those of the columns on the table. -/
theorem Target.mem_names_iff {owned : List (String × String)} {table : String} {names : List String}
    (h : Target f owned table names) {name : String} : name ∈ names ↔ (table, name) ∈ owned := by
  rw [h.names_eq, List.mem_map]
  constructor
  · rintro ⟨o, ho, rfl⟩
    obtain ⟨ho, howner⟩ := List.mem_filter.mp ho
    rwa [← of_decide_eq_true howner]
  · intro hmem
    exact ⟨_, List.mem_filter.mpr ⟨hmem, decide_eq_true rfl⟩, rfl⟩

theorem orderTarget?_eq_none_iff : orderTarget? f = none ↔ f.orderColumns = [] := by
  unfold orderTarget?
  cases f.orderColumns with
  | nil => simp
  | cons column columns => simp

end Orderings

/-! ## Drafts -/

section Drafts

variable {σ : Type} [Source σ] [LawfulSource σ]

theorem ensures_drawImprovement {low high : Nat} (h : low < high) (hhigh : high ≤ 100) :
    Ensures (σ := σ) (drawImprovement low high) fun i => low ≤ i.toNat ∧ i.toNat < high := by
  unfold drawImprovement
  refine (ensures_nextInRange h).bind fun n hn => ensures_pure ?_
  have hn' : (UInt8.ofNat (min n 100)).toNat = n := by
    rw [UInt8.toNat_ofNat']
    omega
  rwa [hn']

theorem ensures_forPredicate (f : Features) (p : Predicate) :
    Ensures (σ := σ) (forPredicate f p) (ForCondition f p) := by
  unfold forPredicate
  refine (ensures_drawImprovement (by omega) (by omega)).bind fun i hi => ensures_pure ?_
  exact
    { kind := by
        show (kindFor p).1 = _
        unfold kindFor
        cases p.operator <;> simp
        split <;> rfl
      table := by
        show predicateTable f p = _
        unfold predicateTable
        cases p.table <;> rfl
      columns := rfl
      reason := rfl
      operator := rfl
      improvement := hi }

theorem ensures_forJoinPair (f : Features) (p : JoinPair) :
    Ensures (σ := σ) (forJoinPair f p) (ForJoinPair f p) := by
  unfold forJoinPair
  refine (ensures_drawImprovement (by omega) (by omega)).bind fun i hi => ?_
  refine (ensures_true coinFlip).bind fun coin _ => ?_
  cases coin with
  | false => exact ensures_pure ⟨i, hi.1, hi.2, Or.inl rfl⟩
  | true =>
      refine (ensures_nextInRange (by omega)).bind fun penalty hpenalty => ensures_pure ?_
      -- neither difference wraps around, as every draw is greater than what is taken off
      have hleft : (i - 9).toNat = i.toNat - 9 := by
        rw [UInt8.toNat_sub_of_le]
        · rfl
        · exact UInt8.le_iff_toNat_le.mpr (by have := hi.1; simp; omega)
      have hright : (UInt8.ofNat (i.toNat - (UInt8.ofNat penalty).toNat)).toNat =
          i.toNat - penalty := by
        rw [UInt8.toNat_ofNat', UInt8.toNat_ofNat']
        have := i.toNat_lt
        omega
      refine ⟨i, hi.1, hi.2, Or.inr ⟨_, ?_, ?_, rfl⟩⟩
      · rw [UInt8.le_iff_toNat_le, hleft, hright]
        omega
      · rw [UInt8.le_iff_toNat_le, hright]
        omega

theorem ensures_forOrder (f : Features) : Ensures (σ := σ) (forOrder f) (ForOrder f) := by
  unfold forOrder
  cases horder : f.hasOrderBy with
  | false =>
      have hnone : ForOrder f [] := by simp [ForOrder, horder]
      exact ensures_pure hnone
  | true =>
      cases htarget : orderTarget? f with
      | none =>
          have hnone : ForOrder f [] := by
            simp [ForOrder, orderTarget?_eq_none_iff.mp htarget]
          exact ensures_pure hnone
      | some target =>
          obtain ⟨table, names⟩ := target
          have hcolumns : f.orderColumns ≠ [] := by
            rw [ne_eq, ← orderTarget?_eq_none_iff, htarget]
            exact Option.some_ne_none _
          have howned : List.Forall₂ (Owned f) f.orderColumns (f.orderColumns.map (orderOwner f)) :=
            List.forall₂_map_right_iff.mpr
              (List.forall₂_same.mpr fun column _ => owned_orderOwner column)
          refine (ensures_drawImprovement (by omega) (by omega)).bind fun i hi => ensures_pure ?_
          rw [ForOrder, if_pos ⟨horder, hcolumns⟩]
          exact ⟨_, rfl,
            { kind := rfl
              target := ⟨_, howned, target_of_orderTarget? htarget⟩
              reason := rfl
              operator := rfl
              improvement := hi }⟩

/-- The drafts of the rules come one rule after the other. -/
theorem ensures_ruleDrafts (f : Features) :
    Ensures (σ := σ) (ruleDrafts f) fun ds => ∃ conditions joins order,
      ds = conditions ++ joins.flatten ++ order ∧
      List.Forall₂ (ForCondition f) f.predicates conditions ∧
      List.Forall₂ (ForJoinPair f) f.joinPairs joins ∧ ForOrder f order := by
  unfold ruleDrafts
  refine (ensures_mapM (ensures_forPredicate f) f.predicates).bind fun conditions hconditions => ?_
  refine (ensures_mapM (ensures_forJoinPair f) f.joinPairs).bind fun joins hjoins => ?_
  refine (ensures_forOrder f).bind fun order horder => ensures_pure ?_
  exact ⟨conditions, joins, order, rfl, hconditions, hjoins, horder⟩

theorem ensures_drafts (f : Features) : Ensures (σ := σ) (drafts f) (Advised f) := by
  unfold drafts
  refine (ensures_ruleDrafts f).bind ?_
  rintro _ ⟨conditions, joins, order, rfl, hconditions, hjoins, horder⟩
  refine ensures_pure ⟨conditions, joins, order, _, ?_, hconditions, hjoins, horder, rfl⟩
  -- the general draft is all there is, or is left out
  by_cases hempty : conditions ++ joins.flatten ++ order = []
  · rw [hempty, if_pos rfl]
    rfl
  · rw [if_neg hempty, List.append_nil, if_neg (by rwa [List.isEmpty_iff])]

end Drafts

/-! ## Recommendations -/

section Recommendations

variable {f : Features} {ds : List Draft}

/-- Each answer belongs to a value. -/
theorem exists_of_forall₂ {α β : Type} {R : α → β → Prop} {as : List α} {bs : List β}
    (h : List.Forall₂ R as bs) {b : β} (hb : b ∈ bs) : ∃ a ∈ as, R a b := by
  induction h with
  | nil => cases hb
  | @cons a c as bs hac _ ih =>
      rcases List.mem_cons.mp hb with rfl | hb
      · exact ⟨a, List.mem_cons_self, hac⟩
      · obtain ⟨a', ha', hab⟩ := ih hb
        exact ⟨a', List.mem_cons_of_mem a ha', hab⟩

theorem Advised.ne_nil (h : Advised f ds) : ds ≠ [] := by
  obtain ⟨conditions, joins, order, general, rfl, -, -, -, rfl⟩ := h
  split
  · exact List.append_ne_nil_of_right_ne_nil _ (List.cons_ne_nil _ _)
  · rwa [List.append_nil]

/-! No rule asks for more than 100 percent. -/

theorem le_of_lt_of_le {i n m : UInt8} (h : i < n) (h' : n ≤ m) : i ≤ m :=
  UInt8.le_trans (UInt8.le_of_lt h) h'

theorem ForCondition.improvement_le {p : Predicate} {d : Draft} (h : ForCondition f p d) :
    d.improvement ≤ 100 := le_of_lt_of_le h.improvement.2 (by decide)

theorem ForJoinPair.improvement_le {p : JoinPair} (h : ForJoinPair f p ds) :
    ∀ d ∈ ds, d.improvement ≤ 100 := by
  obtain ⟨i, -, hi, hds⟩ := h
  have hi : i ≤ 100 := le_of_lt_of_le hi (by decide)
  rcases hds with rfl | ⟨j, -, hj, rfl⟩
  · exact List.forall_mem_singleton.mpr hi
  · exact List.forall_mem_cons.mpr ⟨hi, List.forall_mem_singleton.mpr (UInt8.le_trans hj hi)⟩

theorem ForOrder.improvement_le (h : ForOrder f ds) : ∀ d ∈ ds, d.improvement ≤ 100 := by
  rw [ForOrder] at h
  split at h
  · obtain ⟨d, rfl, hd⟩ := h
    exact List.forall_mem_singleton.mpr (le_of_lt_of_le hd.improvement.2 (by decide))
  · rw [h]
    exact List.forall_mem_nil _

theorem Advised.improvement_le (h : Advised f ds) : ∀ d ∈ ds, d.improvement ≤ 100 := by
  obtain ⟨conditions, joins, order, general, rfl, hconditions, hjoins, horder, rfl⟩ := h
  have hgeneral (present : Prop) [Decidable present] :
      ∀ d ∈ (if present then [fallback f] else []), d.improvement ≤ 100 := by
    split
    · exact List.forall_mem_singleton.mpr (by decide : (35 : UInt8) ≤ 100)
    · exact List.forall_mem_nil _
  refine List.forall_mem_append.mpr ⟨List.forall_mem_append.mpr ⟨List.forall_mem_append.mpr
    ⟨fun d hd => ?_, fun d hd => ?_⟩, horder.improvement_le⟩, hgeneral _⟩
  · obtain ⟨p, -, hp⟩ := exists_of_forall₂ hconditions hd
    exact hp.improvement_le
  · obtain ⟨part, hpart, hd⟩ := List.mem_flatten.mp hd
    obtain ⟨p, -, hp⟩ := exists_of_forall₂ hjoins hpart
    exact hp.improvement_le d hd

theorem draft_numbered {d : Draft} (h : d.improvement ≤ 100) (position : Nat) :
    (d.numbered position).draft = d := by
  show { d with improvement := if d.improvement ≤ 100 then d.improvement else 100 } = d
  rw [if_pos h]

theorem map_draft_mapIdx_numbered (h : ∀ d ∈ ds, d.improvement ≤ 100) :
    (ds.mapIdx Draft.numbered).map Recommendation.draft = ds := by
  refine List.ext_getElem (by simp) fun k hk hk' => ?_
  rw [List.getElem_map, List.getElem_mapIdx, draft_numbered (h _ (List.getElem_mem hk'))]

/-- **The recommendations follow the rules**, whatever the features of a statement are and however
the draws of a lawful source fall. There is at least one; their numbers count from 1; and without
these they are drafts that fit the rules, one rule after the other. -/
theorem recommend_advised {σ : Type} [Source σ] [LawfulSource σ] (f : Features) (s : σ) :
    let rs := (recommend f s).1
    rs ≠ [] ∧ (∀ (k : Nat) (r : Recommendation), rs[k]? = some r → r.id = .ofNat (k + 1)) ∧
    (rs.length < 2 ^ 32 → rs.map (fun r => r.id.toNat) = List.range' 1 rs.length) ∧
    Advised f (rs.map Recommendation.draft) := by
  intro rs
  have hdrafts : Advised f (drafts f s).1 := ensures_drafts f s
  have hrs : rs = (drafts f s).1.mapIdx Draft.numbered := rfl
  have hlength : rs.length = (drafts f s).1.length := by rw [hrs, List.length_mapIdx]
  refine ⟨?_, fun k r hr => id_of_getElem?_numbered (hrs ▸ hr), fun h => ?_, ?_⟩
  · exact fun hnil => hdrafts.ne_nil (List.mapIdx_eq_nil_iff.mp hnil)
  · rw [hlength] at h ⊢
    exact map_toNat_id_numbered h
  · rw [hrs, map_draft_mapIdx_numbered hdrafts.improvement_le]
    exact hdrafts

/-- A condition, a join with a coin that falls on its second column, and an ordering. -/
theorem recommend_advised_orders :
    let f := features
      "SELECT * FROM orders o JOIN users u ON o.uid = u.id WHERE o.status = 1 ORDER BY o.day"
    let rs := (recommend f (Scripted.start [3] [999])).1
    rs.length = 4 ∧ rs.map (fun r => r.id.toNat) = [1, 2, 3, 4] ∧
      Advised f (rs.map Recommendation.draft) ∧
      rs.map Recommendation.table = ["orders", "orders", "users", "orders"] ∧
      rs.map Recommendation.improvement = [43, 53, 50, 33] := by
  intro f rs
  have hlength : rs.length = 4 := by decide +kernel
  obtain ⟨-, -, hids, hadvised⟩ := recommend_advised f (Scripted.start [3] [999])
  exact ⟨hlength, (hids (by decide +kernel)).trans (congrArg (List.range' 1) hlength), hadvised,
    by decide +kernel, by decide +kernel⟩

end Recommendations

end Advice

end IndexAdvisor
