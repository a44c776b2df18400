import IndexAdvisor.Proofs.Index.Statement

/-!
# Index statements told apart

Whatever stands in a table or a column, nothing of it gets into an index statement but letters,
digits and underscores. Two indexes have one statement just where they are of one kind, their tables
have the same parts and their columns are the same, each as a plain name.
-/

set_option autoImplicit false

namespace IndexAdvisor.Index

open IndexAdvisor.Text

/-! ## Names of indexes -/

/-- The parts of a table name, as plain names. -/
def plainSegments (table : List Char) : List (List Char) := (segments table).map plain

theorem plainSegments_ne_nil (table : List Char) : plainSegments table ≠ [] := fun h =>
  List.splitOn_ne_nil '.' table (List.map_eq_nil_iff.mp h)

/-- The name of an index is told by the plain names that it is made of. -/
theorem nameOf_eq (table : List Char) (columns : List (List Char)) :
    nameOf table columns = "idx_".toList ++ (plainSegments table).getLastD [] ++
      (columns.map plain).flatMap fun column => '_' :: column := by
  have hne : segments table ≠ [] := List.splitOn_ne_nil '.' table
  have hlast : plain ((segments table).getLastD table) = (plainSegments table).getLastD [] := by
    rw [plainSegments, List.getLastD_eq_getLast?, List.getLastD_eq_getLast?, List.getLast?_map,
      List.getLast?_eq_some_getLast hne]
    rfl
  rw [nameOf, hlast, List.flatMap_map]

/-! ## Columns -/

/-- Between two columns a comma and a blank are put: the blank may as well begin the second. -/
theorem intercalate_comma_cons (w : List Char) (ws : List (List Char)) :
    List.intercalate [',', ' '] (w :: ws) = List.intercalate [','] (w :: ws.map (' ' :: ·)) := by
  induction ws generalizing w with
  | nil => rw [List.map_nil, List.intercalate_singleton, List.intercalate_singleton]
  | cons v ws ih =>
      have hblank : List.intercalate [','] ((' ' :: v) :: ws.map (' ' :: ·)) =
          ' ' :: List.intercalate [','] (v :: ws.map (' ' :: ·)) := by
        cases ws with
        | nil => rw [List.map_nil, List.intercalate_singleton, List.intercalate_singleton]
        | cons u ws => rw [List.map_cons, List.intercalate_cons_cons, List.intercalate_cons_cons,
            List.cons_append, List.cons_append]
      rw [List.intercalate_cons_cons, List.map_cons, List.intercalate_cons_cons, hblank, ih]
      simp only [List.append_assoc, List.cons_append, List.nil_append]

/-- Columns are told by their list, as long as there is one. -/
theorem eq_of_intercalate_eq {ws vs : List (List Char)} (hws : ∀ w ∈ ws, ',' ∉ w)
    (hvs : ∀ v ∈ vs, ',' ∉ v) (hne : ws ≠ []) (hne' : vs ≠ [])
    (h : List.intercalate [',', ' '] ws = List.intercalate [',', ' '] vs) : ws = vs := by
  have hcut {us : List (List Char)} {u : List Char} (hus : ∀ w ∈ u :: us, ',' ∉ w) :
      (List.intercalate [',', ' '] (u :: us)).splitOn ',' = u :: us.map (' ' :: ·) := by
    rw [intercalate_comma_cons]
    refine List.splitOn_intercalate ',' (fun w hw => ?_) (List.cons_ne_nil _ _)
    rcases List.mem_cons.mp hw with rfl | hw
    · exact hus w List.mem_cons_self
    · obtain ⟨v, hv, rfl⟩ := List.mem_map.mp hw
      simpa using hus v (List.mem_cons_of_mem u hv)
  obtain ⟨w, ws, rfl⟩ := List.exists_cons_of_ne_nil hne
  obtain ⟨v, vs, rfl⟩ := List.exists_cons_of_ne_nil hne'
  have hlists := (hcut hws).symm.trans ((congrArg (List.splitOn ',') h).trans (hcut hvs))
  obtain ⟨rfl, htail⟩ := List.cons.inj hlists
  have hinjective : ∀ x y : List Char, ' ' :: x = ' ' :: y → x = y := fun _ _ heq =>
    (List.cons.inj heq).2
  rw [(List.map_inj_right hinjective).mp htail]

theorem usingClause_injective {kind kind' : Kind}
    (h : kind.usingClause.toList = kind'.usingClause.toList) : kind = kind' := by
  cases kind <;> cases kind' <;> first | rfl | exact absurd h (by decide)

/-- What stands behind the table tells the kind and, but for the difference between no column and
one without a name, the columns. -/
theorem eq_of_columnsText_eq {kind kind' : Kind} {p q : Parts} (hp : p.Plain) (hq : q.Plain)
    (h : p.columnsText kind = q.columnsText kind') :
    kind = kind' ∧ (p.columns ≠ [] → q.columns ≠ [] → p.columns = q.columns) := by
  have hclose {ws : List (List Char)} (hws : ∀ w ∈ ws, ∀ c ∈ w, isNameChar c = true) :
      ')' ∉ List.intercalate [',', ' '] ws :=
    notMem_intercalate (by decide) fun w hw => notMem_of_isNameChar (by decide) (hws w hw)
  have hcomma {ws : List (List Char)} (hws : ∀ w ∈ ws, ∀ c ∈ w, isNameChar c = true) :
      ∀ w ∈ ws, ',' ∉ w := fun w hw => notMem_of_isNameChar (by decide) (hws w hw)
  obtain ⟨hcolumns, hclause⟩ := eq_of_append_cons (hclose hp.columns) (hclose hq.columns) h
  exact ⟨usingClause_injective hclause, fun hne hne' =>
    eq_of_intercalate_eq (hcomma hp.columns) (hcomma hq.columns) hne hne' hcolumns⟩

/-! ## Statements -/

/-- The name of an index tells whether it has columns. -/
theorem columns_eq_nil_iff {table table' : List Char} {columns columns' : List (List Char)}
    (h : nameOf table columns = nameOf table' columns')
    (htable : plainSegments table = plainSegments table') : columns = [] ↔ columns' = [] := by
  rw [nameOf_eq, nameOf_eq, htable] at h
  have hcolumns := List.append_cancel_left h
  cases columns <;> cases columns' <;> simp_all

/-- **A statement tells its index**, as far as plain names do. -/
theorem statementOf_eq_iff {kind kind' : Kind} {table table' : List Char}
    {columns columns' : List (List Char)} :
    statementOf kind table columns = statementOf kind' table' columns' ↔
      kind = kind' ∧ plainSegments table = plainSegments table' ∧
        columns.map plain = columns'.map plain := by
  have hparts (table : List Char) (columns : List (List Char)) :
      partsOf table columns = ⟨nameOf table columns, plainSegments table, columns.map plain⟩ := rfl
  constructor
  · intro h
    rw [statementOf_eq, statementOf_eq] at h
    have hp := plain_partsOf table columns
    have hq := plain_partsOf table' columns'
    obtain ⟨hname, htable, hbehind⟩ := eq_of_text_eq h hp hq (plainSegments_ne_nil table)
      (plainSegments_ne_nil table')
    obtain ⟨hkind, hcolumns⟩ := eq_of_columnsText_eq hp hq hbehind
    refine ⟨hkind, htable, ?_⟩
    -- no column and one without a name are listed alike, but the name of the index tells them apart
    have hnone := columns_eq_nil_iff hname htable
    by_cases hne : columns = []
    · rw [hne, hnone.mp hne]
    · exact hcolumns (fun h => hne (List.map_eq_nil_iff.mp h)) fun h =>
        hne (hnone.mpr (List.map_eq_nil_iff.mp h))
  · rintro ⟨rfl, htable, hcolumns⟩
    rw [statementOf_eq, statementOf_eq, hparts, hparts, nameOf_eq, nameOf_eq, htable, hcolumns]

example : statement .bTree "t" [] = "CREATE INDEX idx_t ON t ()" ∧
    statement .bTree "t" [""] = "CREATE INDEX idx_t_ ON t ()" := by decide

/-! ## What a statement is written with -/

/-- What a statement holds besides plain names: its keywords, blanks and separators. -/
def writtenChars : List Char := "CREATE INDEX ON USING HASH BITMAP.(,)".toList

theorem mem_writtenChars_of_mem {cs : List Char} {c : Char} (hc : c ∈ cs)
    (h : cs.all writtenChars.contains = true) : c ∈ writtenChars :=
  List.contains_iff_mem.mp (List.all_eq_true.mp h c hc)

/-- A character of plain parts or a written one: nothing else stands in a statement. -/
theorem Parts.Plain.isNameChar_or_mem_writtenChars {p : Parts} (hp : p.Plain) {kind : Kind}
    {c : Char} (h : c ∈ p.text kind) : isNameChar c = true ∨ c ∈ writtenChars := by
  have hjoined {between : List Char} {ws : List (List Char)}
      (hws : ∀ w ∈ ws, ∀ d ∈ w, isNameChar d = true)
      (hbetween : between.all writtenChars.contains = true)
      (hc : c ∈ List.intercalate between ws) : isNameChar c = true ∨ c ∈ writtenChars := by
    obtain hc | ⟨w, hw, hc⟩ := mem_or_mem_of_mem_intercalate hc
    · exact .inr (mem_writtenChars_of_mem hc hbetween)
    · exact .inl (hws w hw c hc)
  have hclause : (')' :: kind.usingClause.toList).all writtenChars.contains = true := by
    cases kind <;> decide
  have hpieces (a n o t b q z : List Char) (hc : c ∈ a ++ n ++ o ++ t ++ b ++ q ++ z) :
      c ∈ a ∨ c ∈ n ∨ c ∈ o ∨ c ∈ t ∨ c ∈ b ∨ c ∈ q ∨ c ∈ z := by
    simpa only [List.mem_append, or_assoc] using hc
  -- three of the seven parts are plain, the others are written out
  rcases hpieces _ _ _ _ _ _ _ h with h | h | h | h | h | h | h
  · exact .inr (mem_writtenChars_of_mem h (by decide))
  · exact .inl (hp.name c h)
  · exact .inr (mem_writtenChars_of_mem h (by decide))
  · exact hjoined hp.table (by decide) h
  · exact .inr (mem_writtenChars_of_mem h (by decide))
  · exact hjoined hp.columns (by decide) h
  · exact .inr (mem_writtenChars_of_mem h hclause)

/-- Quotes, what ends a statement, what begins a comment and what ends a line. -/
def breakingChars : List Char :=
  ['\'', '"', Char.ofNat 0x60, ';', '-', '/', '*', '#', '\\', '\n', '\r']

theorem notMem_writtenChars_of_mem_breakingChars {c : Char} (h : c ∈ breakingChars) :
    ¬(isNameChar c = true ∨ c ∈ writtenChars) := by
  have hall : breakingChars.all (fun c => !(isNameChar c || writtenChars.contains c)) = true := by
    decide
  have hc := List.all_eq_true.mp hall c h
  rw [Bool.not_eq_true', Bool.or_eq_false_iff] at hc
  rintro (hname | hwritten)
  · exact Bool.false_ne_true (hc.1.symm.trans hname)
  · exact Bool.false_ne_true (hc.2.symm.trans (List.contains_iff_mem.mpr hwritten))

/-- **Nothing of the input gets out of its place in an index statement.** Whatever the table and the
columns are, the name of the index is `idx_` and a plain name, and the statement is made of the
keywords and separators of its kind around plain names: nothing in it ends a statement, opens a
quote or a comment or begins a line. Two inputs have one statement just where they ask for one kind
of index and have the same plain parts of the table name and the same plain columns. -/
theorem statement_plain_and_told_apart (kind : Kind) (table : String) (columns : List String) :
    (∃ rest : List Char, (name table columns).toList = "idx_".toList ++ rest ∧
      rest.all isNameChar = true) ∧
    (∃ p : Parts, p.Plain ∧ p.name = (name table columns).toList ∧
      p.table = plainSegments table.toList ∧
      p.columns = columns.map (fun column => plain column.toList) ∧
      (statement kind table columns).toList = p.text kind) ∧
    ((statement kind table columns).toList.all
      fun c => isNameChar c || writtenChars.contains c) = true ∧
    (breakingChars.all fun c => !(statement kind table columns).toList.contains c) = true ∧
    ∀ (kind' : Kind) (table' : String) (columns' : List String),
      statement kind table columns = statement kind' table' columns' ↔
        kind = kind' ∧ plainSegments table.toList = plainSegments table'.toList ∧
          columns.map (fun column => plain column.toList) =
            columns'.map fun column => plain column.toList := by
  have hmap (columns : List String) : columns.map (fun column => plain column.toList) =
      (columns.map String.toList).map plain := by rw [List.map_map]; rfl
  have hname : (name table columns).toList = nameOf table.toList (columns.map String.toList) :=
    String.toList_ofList
  have hstatement : (statement kind table columns).toList =
      (partsOf table.toList (columns.map String.toList)).text kind := String.toList_ofList
  have hplain := plain_partsOf table.toList (columns.map String.toList)
  have hchars {c : Char} (hc : c ∈ (statement kind table columns).toList) :
      isNameChar c = true ∨ c ∈ writtenChars := by
    rw [hstatement] at hc
    exact hplain.isNameChar_or_mem_writtenChars hc
  refine ⟨?_, ⟨_, hplain, hname.symm, rfl, (hmap columns).symm, hstatement⟩, ?_, ?_, ?_⟩
  · obtain ⟨rest, hrest⟩ := name_prefix_nameOf table.toList (columns.map String.toList)
    refine ⟨rest, hname.trans hrest.symm, List.all_eq_true.mpr fun c hc => ?_⟩
    exact isNameChar_of_mem_nameOf c (hrest ▸ List.mem_append_right _ hc)
  · refine List.all_eq_true.mpr fun c hc => ?_
    rw [Bool.or_eq_true, List.contains_iff_mem]
    exact hchars hc
  · refine List.all_eq_true.mpr fun c hc => ?_
    rw [Bool.not_eq_true', Bool.eq_false_iff, Ne, List.contains_iff_mem]
    exact fun hmem => notMem_writtenChars_of_mem_breakingChars hc (hchars hmem)
  · intro kind' table' columns'
    rw [hmap, hmap, ← statementOf_eq_iff, statement, statement, String.ofList_inj]

end IndexAdvisor.Index
