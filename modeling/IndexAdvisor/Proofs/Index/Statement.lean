import IndexAdvisor.Index.Statement
import IndexAdvisor.Text.Split

/-!
# Well-formed index statements

The statement that is written for an index holds its name, the parts of its table and its columns,
and these can be told from it. So it is a `CREATE INDEX` statement over plain words just where no
part of the table name is missing between its points.
-/

set_option autoImplicit false

namespace IndexAdvisor.Index

open IndexAdvisor.Text

/-! ## The form of a statement -/

/-- A plain word: one or more of `a-z`, `0-9` and `_`. -/
def IsWord (w : List Char) : Prop := w ≠ [] ∧ ∀ c ∈ w, isNameChar c = true

/-- What stands in an index statement. -/
structure Parts where
  name : List Char
  /-- The parts of the table name. -/
  table : List (List Char)
  columns : List (List Char)

/-- `CREATE INDEX name ON seg(.seg)* (col(, col)*)`, and the clause of the kind. -/
def Parts.text (kind : Kind) (p : Parts) : List Char :=
  "CREATE INDEX ".toList ++ p.name ++ " ON ".toList ++ List.intercalate ['.'] p.table ++
    " (".toList ++ List.intercalate [',', ' '] p.columns ++ ')' :: kind.usingClause.toList

/-- Each part is a word, and none is missing. -/
structure Parts.WellFormed (p : Parts) : Prop where
  name_prefix : "idx_".toList <+: p.name
  name : IsWord p.name
  table_ne_nil : p.table ≠ []
  table : ∀ w ∈ p.table, IsWord w
  columns_ne_nil : p.columns ≠ []
  columns : ∀ w ∈ p.columns, IsWord w

/-- A text that is a `CREATE INDEX` statement for an index of this kind. -/
def WellFormed (kind : Kind) (cs : List Char) : Prop :=
  ∃ p : Parts, p.WellFormed ∧ p.text kind = cs

/-- What a statement is put together from. -/
def partsOf (table : List Char) (columns : List (List Char)) : Parts :=
  ⟨nameOf table columns, (segments table).map plain, columns.map plain⟩

theorem statementOf_eq (kind : Kind) (table : List Char) (columns : List (List Char)) :
    statementOf kind table columns = (partsOf table columns).text kind := rfl

/-! ## Words -/

section Words

variable {d : Char} {w : List Char}

theorem notMem_of_isNameChar (hd : isNameChar d = false) (hw : ∀ c ∈ w, isNameChar c = true) :
    d ∉ w := by
  intro h
  rw [hw d h] at hd
  cases hd

theorem isWord_plain (hw : w ≠ []) : IsWord (plain w) :=
  ⟨fun h => hw (List.map_eq_nil_iff.mp h), fun _ => isNameChar_of_mem_plain⟩

theorem isNameChar_of_mem_nameOf {table : List Char} {columns : List (List Char)} :
    ∀ c ∈ nameOf table columns, isNameChar c = true := by
  intro c hc
  rw [nameOf, List.mem_append, List.mem_append, List.mem_flatMap] at hc
  rcases hc with (hc | hc) | ⟨column, -, hc⟩
  · have hmark : "idx_".toList.all isNameChar = true := rfl
    exact List.all_eq_true.mp hmark c hc
  · exact isNameChar_of_mem_plain hc
  · rcases List.mem_cons.mp hc with rfl | hc
    · decide
    · exact isNameChar_of_mem_plain hc

theorem name_prefix_nameOf (table : List Char) (columns : List (List Char)) :
    "idx_".toList <+: nameOf table columns := by
  rw [nameOf, List.append_assoc]
  exact List.prefix_append _ _

end Words

/-! ## Reading a statement back -/

/-- What stands before the first `d` and behind it is told by the text. -/
theorem eq_of_append_cons {d : Char} {a b x y : List Char} (ha : d ∉ a) (hb : d ∉ b)
    (h : a ++ d :: x = b ++ d :: y) : a = b ∧ x = y := by
  have hsplit := congrArg (splitAtFirst? d) h
  rw [splitAtFirst?_append ha, splitAtFirst?_append hb] at hsplit
  exact Prod.mk.inj (Option.some.inj hsplit)

/-- What stands among parts stands in one of them or in what is put between them. -/
theorem mem_or_mem_of_mem_intercalate {d : Char} {between : List Char} {ws : List (List Char)}
    (h : d ∈ List.intercalate between ws) : d ∈ between ∨ ∃ w ∈ ws, d ∈ w := by
  induction ws with
  | nil => exact absurd h List.not_mem_nil
  | cons w ws ih =>
      cases ws with
      | nil =>
          rw [List.intercalate_singleton] at h
          exact .inr ⟨w, List.mem_cons_self, h⟩
      | cons v ws =>
          rw [List.intercalate_cons_cons, List.mem_append, List.mem_append] at h
          rcases h with (h | h) | h
          · exact .inr ⟨w, List.mem_cons_self, h⟩
          · exact .inl h
          · obtain h | ⟨u, hu, h⟩ := ih h
            · exact .inl h
            · exact .inr ⟨u, List.mem_cons_of_mem w hu, h⟩

/-- A character that stands in no part, nor in what is put between parts, does not stand among
them. -/
theorem notMem_intercalate {d : Char} {between : List Char} (hbetween : d ∉ between)
    {ws : List (List Char)} (hws : ∀ w ∈ ws, d ∉ w) : d ∉ List.intercalate between ws := by
  intro h
  obtain h | ⟨w, hw, h⟩ := mem_or_mem_of_mem_intercalate h
  · exact hbetween h
  · exact hws w hw h

/-- The names of a statement hold nothing but characters of names; some may be empty. -/
structure Parts.Plain (p : Parts) : Prop where
  name : ∀ c ∈ p.name, isNameChar c = true
  table : ∀ w ∈ p.table, ∀ c ∈ w, isNameChar c = true
  columns : ∀ w ∈ p.columns, ∀ c ∈ w, isNameChar c = true

theorem Parts.WellFormed.plain {p : Parts} (h : p.WellFormed) : p.Plain where
  name := h.name.2
  table w hw := (h.table w hw).2
  columns w hw := (h.columns w hw).2

theorem plain_partsOf (table : List Char) (columns : List (List Char)) :
    (partsOf table columns).Plain where
  name := isNameChar_of_mem_nameOf
  table := by
    rintro w hw c hc
    obtain ⟨part, -, rfl⟩ := List.mem_map.mp hw
    exact isNameChar_of_mem_plain hc
  columns := by
    rintro w hw c hc
    obtain ⟨column, -, rfl⟩ := List.mem_map.mp hw
    exact isNameChar_of_mem_plain hc

/-- What stands behind the name and the table of a statement. -/
def Parts.columnsText (kind : Kind) (p : Parts) : List Char :=
  List.intercalate [',', ' '] p.columns ++ ')' :: kind.usingClause.toList

theorem Parts.text_eq (kind : Kind) (p : Parts) : p.text kind = "CREATE INDEX ".toList ++
    (p.name ++ ' ' :: ("ON ".toList ++ (List.intercalate ['.'] p.table ++ ' ' ::
      ("(".toList ++ p.columnsText kind)))) := by
  have hshape (a n o t b c z : List Char) : a ++ n ++ ' ' :: o ++ t ++ ' ' :: b ++ c ++ z =
      a ++ (n ++ ' ' :: (o ++ (t ++ ' ' :: (b ++ (c ++ z))))) := by
    simp only [List.append_assoc, List.cons_append]
  exact hshape "CREATE INDEX ".toList p.name "ON ".toList _ "(".toList _ _

/-- The name, the parts of the table name and what stands behind them are told by the statement. -/
theorem eq_of_text_eq {kind kind' : Kind} {p q : Parts} (h : p.text kind = q.text kind')
    (hp : p.Plain) (hq : q.Plain) (htable : p.table ≠ []) (htable' : q.table ≠ []) :
    p.name = q.name ∧ p.table = q.table ∧ p.columnsText kind = q.columnsText kind' := by
  -- name and table stand between blanks and hold none, so the blanks tell where they end
  have hblank {w : List Char} (hw : ∀ c ∈ w, isNameChar c = true) : ' ' ∉ w :=
    notMem_of_isNameChar (by decide) hw
  have hpoint {ws : List (List Char)} (hws : ∀ w ∈ ws, ∀ c ∈ w, isNameChar c = true) :
      ∀ w ∈ ws, '.' ∉ w := fun w hw => notMem_of_isNameChar (by decide) (hws w hw)
  have hblanks {ws : List (List Char)} (hws : ∀ w ∈ ws, ∀ c ∈ w, isNameChar c = true) :
      ' ' ∉ List.intercalate ['.'] ws :=
    notMem_intercalate (by decide) fun w hw => hblank (hws w hw)
  rw [Parts.text_eq, Parts.text_eq] at h
  obtain ⟨hname, hbehind⟩ := eq_of_append_cons (hblank hp.name) (hblank hq.name)
    (List.append_cancel_left h)
  obtain ⟨hnames, hrest⟩ := eq_of_append_cons (hblanks hp.table) (hblanks hq.table)
    (List.append_cancel_left hbehind)
  refine ⟨hname, ?_, List.append_cancel_left hrest⟩
  rw [← List.splitOn_intercalate '.' (hpoint hp.table) htable, hnames,
    List.splitOn_intercalate '.' (hpoint hq.table) htable']

/-- **A statement is well-formed** if and only if no part of the table name is missing. -/
theorem wellFormed_statementOf_iff (kind : Kind) (table : List Char) {columns : List (List Char)}
    (hne : columns ≠ []) (hcolumns : ∀ column ∈ columns, column ≠ []) :
    WellFormed kind (statementOf kind table columns) ↔ [] ∉ segments table := by
  -- a plain part is empty just where the part is, so nothing is lost by making it plain
  have htable : (segments table).map plain ≠ [] := fun h =>
    List.splitOn_ne_nil '.' table (List.map_eq_nil_iff.mp h)
  constructor
  · rintro ⟨p, hp, htext⟩ hmissing
    have hparts : p.table = (segments table).map plain :=
      (eq_of_text_eq (htext.trans (statementOf_eq kind table columns)) hp.plain
        (plain_partsOf table columns) hp.table_ne_nil htable).2.1
    have hempty : [] ∈ p.table := by
      rw [hparts]
      exact List.mem_map.mpr ⟨[], hmissing, rfl⟩
    exact (hp.table [] hempty).1 rfl
  · intro hthere
    have hword {w : List Char} (hw : w ∈ segments table) : w ≠ [] := by
      rintro rfl
      exact hthere hw
    refine ⟨partsOf table columns, ?_, (statementOf_eq kind table columns).symm⟩
    exact
      { name_prefix := name_prefix_nameOf table columns
        name := ⟨(name_prefix_nameOf table columns).ne_nil (by decide), isNameChar_of_mem_nameOf⟩
        table_ne_nil := htable
        table := List.forall_mem_map.mpr fun w hw => isWord_plain (hword hw)
        columns_ne_nil := fun h => hne (List.map_eq_nil_iff.mp h)
        columns := List.forall_mem_map.mpr fun w hw => isWord_plain (hcolumns w hw) }

end IndexAdvisor.Index
