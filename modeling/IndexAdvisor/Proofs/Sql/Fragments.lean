import IndexAdvisor.Proofs.Sql.Names
import IndexAdvisor.Proofs.Sql.Scanner

/-!
# The texts of clauses

The texts that are read off a statement are those that a plain scanner finds in its normalized form,
and the tables are named by words without blanks and commas.
-/

set_option autoImplicit false

namespace IndexAdvisor.Sql

open IndexAdvisor.Text

/-! ## Statements -/

section Statements

theorem getLast?_dropEndWhile {p : Char → Bool} {cs : List Char} {c : Char}
    (h : c ∈ (dropEndWhile p cs).getLast?) : p c = false := by
  induction cs with
  | nil => cases h
  | cons d cs ih =>
      rw [dropEndWhile_cons] at h
      split at h
      · cases h
      · rename_i hkept
        cases hrest : dropEndWhile p cs with
        | nil =>
            rw [hrest] at h hkept
            obtain rfl : d = c := Option.some.inj h
            simpa using hkept
        | cons e es =>
            rw [hrest, List.getLast?_cons_cons] at h
            rw [hrest] at ih
            exact ih h

/-- Lower-casing leaves no blank at the end that was not there. -/
theorem getLast?_lowerAfter {cs : List Char} (h : ∀ c ∈ cs.getLast?, isBlank c = false)
    (before : List Char) : ∀ c ∈ (lowerAfter before cs).getLast?, isBlank c = false := by
  induction cs generalizing before with
  | nil => exact nofun
  | cons d cs ih =>
      rw [lowerAfter]
      -- the last character decides; what is lower-cased before it only has to leave something
      cases cs with
      | nil =>
          obtain ⟨e, es, hlower, hletters⟩ := exists_lowerAt (h d rfl) before []
          rw [hlower, lowerAfter, List.append_nil]
          exact fun c hc => hletters c (List.mem_of_getLast? hc)
      | cons e es =>
          have hmore : lowerAfter (d :: before) (e :: es) ≠ [] := by
            rw [lowerAfter]
            cases he : isBlank e with
            | true => rw [lowerAt_of_isBlank he]; exact List.cons_ne_nil _ _
            | false =>
                obtain ⟨x, xs, hlower, -⟩ := exists_lowerAt he (d :: before) es
                rw [hlower]
                exact List.cons_ne_nil _ _
          rw [List.getLast?_append_of_ne_nil _ hmore]
          exact ih (fun c hc => h c (by rwa [List.getLast?_cons_cons])) (d :: before)

/-- **A normalized statement** does not end in a blank. -/
theorem getLast?_normalize (cs : List Char) : ∀ c ∈ (normalize cs).getLast?, isBlank c = false := by
  refine getLast?_lowerAfter (fun c hc => ?_) []
  have hclosing := getLast?_dropEndWhile hc
  simp only [Bool.or_eq_false_iff] at hclosing
  exact hclosing.2

end Statements

/-! ## Tables -/

/-- A piece of a text is made of what the text holds between its separators. -/
theorem mem_and_not_of_mem_splitOnP {p : Char → Bool} {cs piece : List Char}
    (h : piece ∈ cs.splitOnP p) : ∀ c ∈ piece, c ∈ cs ∧ p c = false := by
  induction cs generalizing piece with
  | nil =>
      rw [List.splitOnP_nil, List.mem_singleton] at h
      subst h
      exact nofun
  | cons d cs ih =>
      obtain ⟨e, es, hcs⟩ := List.exists_cons_of_ne_nil (List.splitOnP_ne_nil p cs)
      have hmore {piece : List Char} (hpiece : piece ∈ e :: es) (c : Char) (hc : c ∈ piece) :
          c ∈ d :: cs ∧ p c = false :=
        (ih (hcs ▸ hpiece) c hc).imp_left (List.mem_cons_of_mem d)
      rw [List.splitOnP_cons_eq_if_modifyHead, hcs] at h
      split at h
      · rcases List.mem_cons.mp h with rfl | h
        · exact nofun
        · exact hmore h
      · rename_i hd
        rw [List.modifyHead_cons] at h
        rcases List.mem_cons.mp h with rfl | h
        · exact List.forall_mem_cons.mpr ⟨⟨List.mem_cons_self, by simpa using hd⟩,
            hmore List.mem_cons_self⟩
        · exact hmore (List.mem_cons_of_mem e h)

theorem mem_of_mem_dropEndWhile {p : Char → Bool} {cs : List Char} {c : Char}
    (h : c ∈ dropEndWhile p cs) : c ∈ cs := by
  induction cs with
  | nil => exact h
  | cons d cs ih =>
      rw [dropEndWhile_cons] at h
      split at h
      · cases h
      · exact (List.mem_cons.mp h).elim (fun hc => hc ▸ List.mem_cons_self) fun hc =>
          List.mem_cons_of_mem d (ih hc)

/-- **A table of a FROM text** has a name without blanks and commas. -/
theorem of_mem_entryTables {cs t : List Char} (h : t ∈ entryTables cs) :
    t ≠ [] ∧ ∀ c ∈ t, isBlank c = false ∧ c ≠ ',' := by
  obtain ⟨entry, hentry, htable⟩ := List.mem_filterMap.mp h
  rw [entryTable?] at htable
  split at htable
  · cases htable
  · rename_i w more hwords
    cases hname : dropEndWhile (fun c => !isTableChar c) (w.dropWhile fun c => !isTableChar c) with
    | nil =>
        rw [hname] at htable
        cases htable
    | cons d ds =>
        rw [hname] at htable
        cases htable
        refine ⟨List.cons_ne_nil d ds, fun c hc => ?_⟩
        rw [← hname] at hc
        -- the table is part of a word of the entry, and the entry is what stands between commas
        have hw : w ∈ words entry := hwords ▸ List.mem_cons_self
        have hcw : c ∈ w := (List.dropWhile_suffix _).subset (mem_of_mem_dropEndWhile hc)
        obtain ⟨hcEntry, hblank⟩ := mem_and_not_of_mem_splitOnP (List.mem_filter.mp hw).1 c hcw
        rw [List.splitOn_eq_splitOnP] at hentry
        exact ⟨hblank, by simpa using (mem_and_not_of_mem_splitOnP hentry c hcEntry).2⟩

/-! ## Features -/

/-- A clause is told by its text and its flag: the text is what a plain scanner finds, or the phrase
for a clause that is not there. Only one answer is what the scanner finds. -/
def ToldBy (kw closing : List String) (q : List Char) (missing text : String) (flag : Bool) : Prop :=
  ∃ r, (∀ r', Scanned kw closing q r' ↔ r' = r) ∧ (r = none → text = missing) ∧
    ∀ t, r = some t → text = String.ofList t ∧ flag = true

section Features

variable {kw closing : List String}

/-- The keyword of a clause that is found is there. -/
theorem mentions_of_clause (hne : kw ≠ []) (hkw : ∀ w ∈ kw, IsWord w)
    (hclosing : ∀ w ∈ closing, IsWord w) {cs t : List Char}
    (ht : clause kw closing (normalize cs) = some t) : mentions kw (normalize cs) = true := by
  obtain ⟨i, body, hopens, -⟩ :=
    (scanned_iff hne hkw hclosing (getLast?_normalize cs) (some t)).mpr ht.symm
  obtain ⟨g, -, hstands⟩ := (opensAt_iff_standsAt hkw).mp hopens
  exact (mentions_iff hne hkw).mpr ⟨i, g ++ body, hstands⟩

theorem toldBy_clause (hne : kw ≠ []) (hkw : ∀ w ∈ kw, IsWord w)
    (hclosing : ∀ w ∈ closing, IsWord w) (missing : String) (cs : List Char) :
    ToldBy kw closing (normalize cs) missing
      (((clause kw closing (normalize cs)).map String.ofList).getD missing)
      (mentions kw (normalize cs)) :=
  ⟨_, scanned_iff hne hkw hclosing (getLast?_normalize cs), fun hnone => by rw [hnone]; rfl,
    fun t ht => ⟨by rw [ht]; rfl, mentions_of_clause hne hkw hclosing ht⟩⟩

/-- The tables of a statement without a FROM text. -/
theorem tables_of_none {sql : String} (h : fromClause (normalize sql.toList) = none) :
    (features sql).tables = [unknownTable] := by
  simp only [features, h]
  rfl

/-- The tables of a FROM text, or the unknown one. -/
theorem tables_of_some {sql : String} {t : List Char}
    (h : fromClause (normalize sql.toList) = some t) : (features sql).tables =
      if entryTables t = [] then [unknownTable] else (entryTables t).map String.ofList := by
  simp only [features, h, Option.map_some, Option.getD_some, List.isEmpty_iff]

/-- A table of a statement is the unknown one, or one of its FROM text. -/
theorem of_mem_tables {sql t : String} (h : t ∈ (features sql).tables) :
    t.toList ≠ [] ∧ ∀ c ∈ t.toList, isBlank c = false ∧ c ≠ ',' := by
  have hunknown : unknownTable.toList ≠ [] ∧ ∀ c ∈ unknownTable.toList, isBlank c = false ∧ c ≠ ',' :=
    by decide
  cases hfrom : fromClause (normalize sql.toList) with
  | none =>
      rw [tables_of_none hfrom, List.mem_singleton] at h
      exact h ▸ hunknown
  | some text =>
      rw [tables_of_some hfrom] at h
      split at h
      · exact List.mem_singleton.mp h ▸ hunknown
      · obtain ⟨name, hname, rfl⟩ := List.mem_map.mp h
        rw [String.toList_ofList]
        exact of_mem_entryTables hname

/-- **Clauses are extracted as by a plain scanner.** For every statement the texts of its WHERE,
GROUP BY and ORDER BY clauses are what is found by looking through the normalized statement for the
first place where the keyword stands at a word boundary with blanks behind it, and from there for
the first blanks with a closing word behind them; a clause that is found is flagged, and for one
that is not there is a fixed phrase. The tables are read off the FROM text that is found like that.
There is always a table, and no table is empty or holds a blank or a comma. -/
theorem features_scanned (sql : String) :
    (∃ r, (∀ r', Scanned ["from"] ["where", "group", "order", "limit"] (normalize sql.toList) r' ↔
        r' = r) ∧
      (r = none → (features sql).tables = [unknownTable]) ∧
      ∀ t, r = some t → (features sql).tables =
        if entryTables t = [] then [unknownTable] else (entryTables t).map String.ofList) ∧
    ToldBy ["where"] ["group", "order", "limit"] (normalize sql.toList) unknownConditions
      (features sql).whereText (features sql).hasWhere ∧
    ToldBy ["group", "by"] ["having", "order", "limit"] (normalize sql.toList) unknownColumn
      (features sql).groupByText (features sql).hasGroupBy ∧
    ToldBy ["order", "by"] ["limit"] (normalize sql.toList) unknownColumn
      (features sql).orderByText (features sql).hasOrderBy ∧
    (features sql).tables ≠ [] ∧
    ∀ t ∈ (features sql).tables, t.toList ≠ [] ∧ ∀ c ∈ t.toList, isBlank c = false ∧ c ≠ ',' := by
  have hq := getLast?_normalize sql.toList
  refine ⟨⟨_, scanned_iff (by decide) (by decide) (by decide) hq, fun hnone => tables_of_none hnone,
      fun t ht => tables_of_some ht⟩,
    toldBy_clause (by decide) (by decide) (by decide) _ _,
    toldBy_clause (by decide) (by decide) (by decide) _ _,
    toldBy_clause (by decide) (by decide) (by decide) _ _, (features_named sql).tables_ne_nil,
    fun t ht => of_mem_tables ht⟩

/-- A closing word right behind the keyword has no blanks of the text in front of it. -/
example : (features "SELECT a FROM t WHERE GROUP BY a").whereText = "group by a" := by decide

end Features

end IndexAdvisor.Sql
