import IndexAdvisor.Plan
import IndexAdvisor.Proofs.Sql.Fragments

/-!
# Flags and texts of clauses

A clause is flagged where its keyword stands as a word, and has a text where blanks follow such a
keyword. The two come apart where the keyword ends the statement, and where something else follows
it at once, such as a parenthesis: then a plan has a step for the clause that is described by the
phrase for a clause that is not there.
-/

set_option autoImplicit false

namespace IndexAdvisor.Sql

open IndexAdvisor.Text

/-! ## Steps of plans -/

section Steps

/-- A plan has a step of a kind with a description. -/
def HasStep (plan : List Plan.Node) (kind : Plan.Kind) (description : String) : Prop :=
  ∃ n ∈ plan, n.label = kind.label ∧ n.description = description

instance (plan : List Plan.Node) (kind : Plan.Kind) (description : String) :
    Decidable (HasStep plan kind description) :=
  inferInstanceAs (Decidable (∃ n ∈ plan, _))

variable {f : Features} {kind : Plan.Kind} {description : String}

theorem label_injective : Function.Injective Plan.Kind.label := by
  intro a b
  cases a <;> cases b <;> decide

theorem hasStep_append {plan more : List Plan.Node} : HasStep (plan ++ more) kind description ↔
    HasStep plan kind description ∨ HasStep more kind description := by
  simp only [HasStep, List.mem_append, or_and_right, exists_or]

theorem hasStep_operator (k : Plan.Kind) (d : String) (cost : Nat) :
    HasStep [.operator k d cost] kind description ↔ (kind, description) = (k, d) := by
  simp only [HasStep, List.mem_singleton, exists_eq_left, Plan.Node.operator,
    label_injective.eq_iff, Prod.mk.injEq]
  exact and_congr eq_comm eq_comm

theorem hasStep_stack_iff (cost : Nat) (ops : List (Plan.Kind × String)) :
    HasStep (Plan.stack cost ops).1 kind description ↔ (kind, description) ∈ ops := by
  induction ops generalizing cost with
  | nil => simp [Plan.stack, HasStep]
  | cons op ops ih =>
      rw [Plan.stack, hasStep_append, ih, hasStep_operator, List.mem_cons, or_comm]

/-- **The operators of a plan** are those of the statement. -/
theorem hasStep_ofFeatures_iff (hkind : kind ≠ .seqScan) :
    HasStep (Plan.ofFeatures f) kind description ↔ (kind, description) ∈ Plan.operators f := by
  rw [Plan.ofFeatures, hasStep_append, hasStep_stack_iff]
  refine or_iff_left ?_
  rintro ⟨n, hn, hlabel, -⟩
  obtain ⟨k, hk, rfl⟩ := List.mem_mapIdx.mp hn
  have hscan : Plan.Kind.seqScan = kind := label_injective hlabel
  exact hkind hscan.symm

theorem mem_operators_filter_iff :
    (.filter, description) ∈ Plan.operators f ↔ f.hasWhere = true ∧ description = f.whereText := by
  simp [Plan.operators]

theorem mem_operators_groupBy_iff : (.groupBy, "Group by " ++ description) ∈ Plan.operators f ↔
    f.hasGroupBy = true ∧ description = f.groupByText := by
  simp [Plan.operators]

theorem mem_operators_sort_iff : (.sort, "Sort by " ++ description) ∈ Plan.operators f ↔
    f.hasOrderBy = true ∧ description = f.orderByText := by
  simp [Plan.operators]

end Steps

/-! ## Keywords and clauses -/

section Clauses

variable {kw closing : List String} {q : List Char}

/-- A clause has a text exactly if a keyword stands somewhere with a blank right behind it. -/
theorem exists_scanned_iff (hne : kw ≠ []) (hkw : ∀ w ∈ kw, IsWord w)
    (hclosing : ∀ w ∈ closing, IsWord w) (hq : ∀ c ∈ q.getLast?, isBlank c = false) :
    (∃ t, Scanned kw closing q (some t)) ↔
      ∃ i rest, StandsAt kw q i rest ∧ blankAhead rest = true := by
  constructor
  · rintro ⟨t, i, body, hopens, -⟩
    obtain ⟨g, hg, hstands⟩ := (opensAt_iff_standsAt hkw).mp hopens
    obtain ⟨c, g, rfl⟩ := List.exists_cons_of_ne_nil hg.1
    exact ⟨i, c :: g ++ body, hstands, hg.2 c List.mem_cons_self⟩
  -- no clause was found, so none opens where the keyword stands
  · rintro ⟨i, rest, hstands, hblank⟩
    cases hclause : clause kw closing q with
    | some t => exact ⟨t, (scanned_iff hne hkw hclosing hq (some t)).mpr hclause.symm⟩
    | none =>
        exfalso
        have hnone := (scanned_iff hne hkw hclosing hq none).mpr hclause.symm
        obtain ⟨c, more, rfl⟩ : ∃ c more, rest = c :: more := by
          cases rest with
          | nil => cases hblank
          | cons c more => exact ⟨c, more, rfl⟩
        have hg : IsGap [c] := ⟨List.cons_ne_nil c [], List.forall_mem_singleton.mpr hblank⟩
        exact hnone i more ((opensAt_iff_standsAt hkw).mpr ⟨[c], hg, hstands⟩)

/-- Something is written behind the first place where the keyword stands as a word. -/
def SpelledOut (kw : List String) (q : List Char) : Prop :=
  ∃ i rest, StandsAt kw q i rest ∧ (∀ j < i, ∀ more, ¬StandsAt kw q j more) ∧
    ∃ c ∈ rest, isBlank c = false

/-- How the flag of a clause and a step for the phrase of a missing clause go with its text. -/
structure FlagAndText (kw closing : List String) (q : List Char) (missing text : String)
    (flag : Bool) (step : Prop) : Prop where
  /-- The clause is flagged where its keyword stands. -/
  flag_iff : flag = true ↔ ∃ i rest, StandsAt kw q i rest
  /-- It has a text where a blank stands right behind such a keyword. -/
  found_iff : (∃ t, Scanned kw closing q (some t)) ↔
    ∃ i rest, StandsAt kw q i rest ∧ blankAhead rest = true
  /-- Its text is the phrase if none is found, or one that reads like the phrase. -/
  text_eq_iff : text = missing ↔ ∀ t, Scanned kw closing q (some t) → t = missing.toList
  /-- A clause that is flagged and spelled out has a text exactly if a blank stands right behind one
  of its keywords. -/
  agrees_iff : (flag = true → SpelledOut kw q → ∃ t, Scanned kw closing q (some t)) ↔
    (SpelledOut kw q → ∃ i rest, StandsAt kw q i rest ∧ blankAhead rest = true)
  /-- A step is described by the phrase where the clause is flagged and no text is found, or one that
  reads like the phrase. -/
  step_iff : step ↔ flag = true ∧ ∀ t, Scanned kw closing q (some t) → t = missing.toList

theorem flagAndText_clause (hne : kw ≠ []) (hkw : ∀ w ∈ kw, IsWord w)
    (hclosing : ∀ w ∈ closing, IsWord w) {missing text : String} {cs : List Char} {flag : Bool}
    {step : Prop} (hflag : flag = mentions kw (normalize cs))
    (htext : text = ((clause kw closing (normalize cs)).map String.ofList).getD missing)
    (hstep : step ↔ flag = true ∧ missing = text) :
    FlagAndText kw closing (normalize cs) missing text flag step := by
  have hstands : flag = true ↔ ∃ i rest, StandsAt kw (normalize cs) i rest :=
    hflag ▸ mentions_iff hne hkw
  have hfound := exists_scanned_iff hne hkw hclosing (getLast?_normalize cs)
  have hphrase : text = missing ↔
      ∀ t, Scanned kw closing (normalize cs) (some t) → t = missing.toList := by
    simp only [htext, scanned_iff hne hkw hclosing (getLast?_normalize cs)]
    cases clause kw closing (normalize cs) with
    | none => exact iff_of_true rfl nofun
    | some t =>
        simp only [Option.map_some, Option.getD_some, Option.some.injEq, forall_eq]
        exact ⟨fun h => by rw [← h, String.toList_ofList], fun h => by rw [h, String.ofList_toList]⟩
  refine ⟨hstands, hfound, hphrase, ?_, hstep.trans (and_congr_right' (eq_comm.trans hphrase))⟩
  constructor
  · rintro h ⟨i, rest, hplace, hmore⟩
    exact hfound.mp (h (hstands.mpr ⟨i, rest, hplace⟩) ⟨i, rest, hplace, hmore⟩)
  · intro h _ hspelled
    exact hfound.mpr (h hspelled)

end Clauses

/-! ## Features -/

/-- **Flags and texts of clauses agree where blanks follow the keyword.** For every statement a
clause is flagged exactly if its keyword stands somewhere as a word of its own, and has a text
exactly if a blank stands right behind such a keyword. So a clause that is flagged and spelled out
has one, but where every keyword of it is followed at once by something else, such as a parenthesis.
A plan then has a step described by the phrase for a missing clause, and otherwise none for a clause
with another text than that phrase. The conditions are those of the WHERE text that is found. -/
theorem features_flagged (sql : String) :
    FlagAndText ["where"] ["group", "order", "limit"] (normalize sql.toList) unknownConditions
      (features sql).whereText (features sql).hasWhere
      (HasStep (Plan.ofFeatures (features sql)) .filter unknownConditions) ∧
    FlagAndText ["group", "by"] ["having", "order", "limit"] (normalize sql.toList) unknownColumn
      (features sql).groupByText (features sql).hasGroupBy
      (HasStep (Plan.ofFeatures (features sql)) .groupBy ("Group by " ++ unknownColumn)) ∧
    FlagAndText ["order", "by"] ["limit"] (normalize sql.toList) unknownColumn
      (features sql).orderByText (features sql).hasOrderBy
      (HasStep (Plan.ofFeatures (features sql)) .sort ("Sort by " ++ unknownColumn)) ∧
    ∀ t, Scanned ["where"] ["group", "order", "limit"] (normalize sql.toList) (some t) →
      (features sql).predicates = predicates t := by
  refine ⟨flagAndText_clause (by decide) (by decide) (by decide) rfl rfl ?_,
    flagAndText_clause (by decide) (by decide) (by decide) rfl rfl ?_,
    flagAndText_clause (by decide) (by decide) (by decide) rfl rfl ?_, fun t ht => ?_⟩
  · exact (hasStep_ofFeatures_iff (by decide)).trans mem_operators_filter_iff
  · exact (hasStep_ofFeatures_iff (by decide)).trans mem_operators_groupBy_iff
  · exact (hasStep_ofFeatures_iff (by decide)).trans mem_operators_sort_iff
  · have hclause := (scanned_iff (by decide) (by decide) (by decide) (getLast?_normalize _) _).mp ht
    have hwhere : whereClause (normalize sql.toList) = some t := hclause.symm
    show ((whereClause (normalize sql.toList)).map predicates).getD [] = predicates t
    rw [hwhere]
    rfl

/-- **A parenthesis right behind the keyword hides the clause.** The statement is flagged and spells
its condition out behind the first keyword, and yet no text and no condition is found, and its plan
has a filter described by the phrase for conditions that are not there. -/
theorem features_where_paren :
    let sql := "SELECT * FROM t WHERE(a = 1)"
    let q := normalize sql.toList
    let f := features sql
    f.hasWhere = true ∧ StandsAt ["where"] q 16 "(a = 1)".toList ∧
      (∀ j < 16, ∀ more, ¬StandsAt ["where"] q j more) ∧
      (∀ t, ¬Scanned ["where"] ["group", "order", "limit"] q (some t)) ∧
      f.whereText = unknownConditions ∧ f.predicates = [] ∧
      HasStep (Plan.ofFeatures f) .filter unknownConditions := by
  intro sql q f
  have hstands {i : Nat} {rest : List Char} : StandsAt ["where"] q i rest ↔
      answerAt (keywordReader ["where"]) [] q i = some rest := standsAt_iff (by decide) (by decide)
  refine ⟨by decide, hstands.mpr (by decide), fun j hj more hmore => ?_, fun t ht => ?_, by decide,
    by decide, by decide⟩
  · have hnone : ∀ j < 16, answerAt (keywordReader ["where"]) [] q j = none := by decide
    rw [hstands, hnone j hj] at hmore
    cases hmore
  · rw [scanned_iff (by decide) (by decide) (by decide) (getLast?_normalize _)] at ht
    have hnone : clause ["where"] ["group", "order", "limit"] q = none := by decide
    rw [hnone] at ht
    cases ht

end IndexAdvisor.Sql
