import IndexAdvisor.Proofs.Sql.Entries

/-!
# Features of a plain statement

The features that are read off a plain statement, in whatever letter case it is written, are those
it was put together from: no clause is missed, none is found that is not there, and each table is
known by its own name.
-/

set_option autoImplicit false

namespace IndexAdvisor.Sql

open IndexAdvisor.Text

/-! ## Letter case -/

theorem dropEndWhile_map (p : Char → Bool) (f : Char → Char) (cs : List Char) :
    dropEndWhile p (cs.map f) = (dropEndWhile (fun c => p (f c)) cs).map f := by
  induction cs with
  | nil => rfl
  | cons c cs ih =>
      rw [List.map_cons, dropEndWhile, dropEndWhile, ih]
      cases dropEndWhile (fun c => p (f c)) cs with
      | nil =>
          show (if p (f c) then [] else [f c]) = (if p (f c) then [] else [c]).map f
          split <;> rfl
      | cons d ds => rfl

/-- A text ends in front of what is dropped. -/
theorem dropEndWhile_append {p : Char → Bool} {c : Char} (hc : p c = false) (cs : List Char)
    {dropped : List Char} (h : ∀ d ∈ dropped, p d = true) :
    dropEndWhile p (cs ++ c :: dropped) = cs ++ [c] := by
  induction cs with
  | nil =>
      have hdropped : dropEndWhile p dropped = [] := by
        induction dropped with
        | nil => rfl
        | cons d ds ih =>
            rw [dropEndWhile, ih fun e he => h e (List.mem_cons_of_mem d he)]
            exact if_pos (h d List.mem_cons_self)
      rw [List.nil_append, dropEndWhile, hdropped]
      exact if_neg (by rw [hc]; exact Bool.false_ne_true)
  | cons d ds ih =>
      rw [List.cons_append, dropEndWhile, ih]
      cases ds <;> rfl

/-- The characters that close a statement. -/
def closes (c : Char) : Bool := c == ';' || isBlank c

/-- Letter case does not matter to what is dropped at the ends of a statement. -/
theorem map_toLower_trim (cs : List Char) :
    (dropEndWhile closes (trim cs)).map Char.toLower =
      dropEndWhile closes (trim (cs.map Char.toLower)) := by
  have hcloses : (fun c : Char => closes c.toLower) = closes := funext fun c => by
    rw [closes, (isBlank_toLower c).1, (isBlank_toLower c).2, closes]
  have hblank : (fun c : Char => isBlank c.toLower) = isBlank :=
    funext fun c => (isBlank_toLower c).1
  have hfront : (cs.map Char.toLower).dropWhile isBlank = (cs.dropWhile isBlank).map Char.toLower := by
    rw [List.dropWhile_map]
    exact congrArg (fun p => (cs.dropWhile p).map Char.toLower) hblank
  rw [trim, trim, hfront, dropEndWhile_map, hblank, dropEndWhile_map, hcloses]

namespace Statement

variable (s : Statement)

/-- The text without what closes it is a text that ends with a character of a name. -/
theorem exists_normal : ∃ cs c, s.normal = cs ++ [c] ∧ isNameChar c = true := by
  have hne : s.pieces ≠ [] := List.cons_ne_nil _ _
  obtain ⟨ps, p, hpieces⟩ : ∃ ps p, s.pieces = ps ++ [p] :=
    ⟨_, _, (List.dropLast_concat_getLast hne).symm⟩
  obtain ⟨ds, c, hword⟩ : ∃ ds c, p.word.chars = ds ++ [c] :=
    ⟨_, _, (List.dropLast_concat_getLast p.word.ne_nil).symm⟩
  have hc : isNameChar c = true :=
    p.word.isNameChar_of_mem c (hword ▸ List.mem_append_right ds List.mem_cons_self)
  refine ⟨select.chars ++ (spell ps ++ (p.gap.chars ++ ds)), c, ?_, hc⟩
  rw [normal, hpieces, spell_append, spell_cons, hword, spell_nil, List.append_nil]
  simp only [List.append_assoc]

theorem ascii_text : ∀ c ∈ s.normal, c.toNat < 128 := by
  have hword (w : Word) : ∀ c ∈ w.chars, c.toNat < 128 := fun c hc =>
    forall_isNameChar (P := fun c => c.toNat < 128) (by decide) (w.isNameChar_of_mem c hc)
  have hgap (g : Gap) : ∀ c ∈ g.chars, c.toNat < 128 := by
    cases g <;> decide
  intro c hc
  rcases List.mem_append.mp hc with hc | hc
  · exact hword select c hc
  · obtain ⟨p, -, hc⟩ := List.mem_flatMap.mp hc
    exact (List.mem_append.mp hc).elim (hgap p.gap c) (hword p.word c)

/-- Nothing stands around a statement that could be cut off. -/
theorem trim_text : trim s.text = s.text := by
  obtain ⟨before, c, hnormal, hc⟩ := s.exists_normal
  have hkept : isBlank c = false := forall_isNameChar (P := fun c => isBlank c = false) (by decide) hc
  have hblank : isBlank ';' = false := by decide
  have hfront (cs : List Char) : (s.normal ++ cs).dropWhile isBlank = s.normal ++ cs := by
    rw [normal, List.append_assoc, dropWhile_isBlank_word]
  rw [trim, text_eq, ← normal, hfront, hnormal]
  cases s.isClosed with
  | false =>
      rw [if_neg Bool.false_ne_true, List.append_nil]
      exact dropEndWhile_append hkept before fun d hd => absurd hd List.not_mem_nil
  | true =>
      exact dropEndWhile_append hblank (before ++ [c]) fun d hd => absurd hd List.not_mem_nil

/-- The semicolon is what closes a statement. -/
theorem dropEndWhile_closes_text : dropEndWhile closes s.text = s.normal := by
  obtain ⟨before, c, hnormal, hc⟩ := s.exists_normal
  have hkept : closes c = false := forall_isNameChar (P := fun c => closes c = false) (by decide) hc
  rw [text_eq, ← normal, hnormal, List.append_assoc]
  refine dropEndWhile_append hkept before fun d hd => ?_
  cases hs : s.isClosed with
  | false =>
      rw [hs] at hd
      cases hd
  | true =>
      rw [hs] at hd
      rw [List.mem_singleton.mp hd]
      decide

/-- **Letter case and the semicolon do not matter**: what is read is the text in lower case. -/
theorem normalize_of_toLower {cs : List Char} (h : cs.map Char.toLower = s.text) :
    normalize cs = s.normal := by
  have hlower : (dropEndWhile closes (trim cs)).map Char.toLower = s.normal := by
    rw [map_toLower_trim, h, s.trim_text, s.dropEndWhile_closes_text]
  have hascii : ∀ c ∈ dropEndWhile closes (trim cs), c.toNat < 128 := fun d hd =>
    ascii_of_toLower (s.ascii_text _ (hlower ▸ List.mem_map_of_mem hd))
  show lower (dropEndWhile closes (trim cs)) = s.normal
  rw [lower_of_ascii hascii, hlower]

end Statement

/-! ## Aliases -/

section Bindings

variable {bs : List (List Char × List Char)} {n : List Char}

/-- Binds each name to its table, in order. -/
def Aliases.bind (m : Aliases) (bs : List (List Char × List Char)) : Aliases :=
  bs.foldl (fun m b => m.insert (String.ofList b.1) (String.ofList b.2)) m

theorem resolve_bind_of_not_mem (h : n ∉ bs.map Prod.fst) (m : Aliases) :
    (m.bind bs).resolve (String.ofList n) = m.resolve (String.ofList n) := by
  induction bs generalizing m with
  | nil => rfl
  | cons b bs ih =>
      rw [List.map_cons, List.mem_cons, not_or] at h
      have hne : String.ofList n ≠ String.ofList b.1 := fun heq => h.1 (String.ofList_inj.mp heq)
      show ((m.insert (String.ofList b.1) (String.ofList b.2)).bind bs).resolve _ = _
      rw [ih h.2, Aliases.resolve_insert_of_ne m _ hne]

/-- Names that are bound once stand for their tables. -/
theorem resolve_bind_of_mem (hnodup : (bs.map Prod.fst).Nodup) {t : List Char} (h : (n, t) ∈ bs)
    (m : Aliases) : (m.bind bs).resolve (String.ofList n) = String.ofList t := by
  induction bs generalizing m with
  | nil => exact absurd h List.not_mem_nil
  | cons b bs ih =>
      rw [List.map_cons, List.nodup_cons] at hnodup
      show ((m.insert (String.ofList b.1) (String.ofList b.2)).bind bs).resolve _ = _
      rcases List.mem_cons.mp h with rfl | h
      · rw [resolve_bind_of_not_mem hnodup.1, Aliases.resolve_insert_self]
      · exact ih hnodup.2 h _

end Bindings

/-! ## Features -/

namespace Statement

variable (s : Statement)

/-- What a statement is put together from, as it is to be read off its text. -/
def features : Features where
  tables := (s.source :: s.sources).map fun a => String.ofList a.table.chars
  hasJoin := !s.joins.isEmpty
  hasWhere := s.conditions?.isSome
  hasOrderBy := !s.orderBy.isEmpty
  hasGroupBy := !s.groupBy.isEmpty
  whereText := (s.whereText?.map String.ofList).getD unknownConditions
  orderByText := (s.orderByText?.map String.ofList).getD unknownColumn
  groupByText := (s.groupByText?.map String.ofList).getD unknownColumn
  joinConditionText := (s.joinConditionText?.map String.ofList).getD unknownJoinCondition
  predicates := s.predicates
  joinPairs := s.joins.map Join.pair
  orderColumns := s.orderBy.map fun k => String.ofList k.column.text
  aliases := Aliases.empty.bind (s.allSources.map Source.binding)

/-- What is read off a statement in any ASCII letter case is what it was put together from. -/
theorem features_eq {sql : String} (h : sql.toList.map Char.toLower = s.text) :
    Sql.features sql = s.features := by
  have hwhere : s.whereText?.isSome = s.conditions?.isSome := Option.isSome_map
  have hgroup : s.groupByText?.isSome = !s.groupBy.isEmpty := by
    rw [groupByText?]
    cases s.groupBy <;> rfl
  have horder : s.orderByText?.isSome = !s.orderBy.isEmpty := by
    rw [orderByText?]
    cases s.orderBy <;> rfl
  have haliases : Aliases.ofClauses (some s.fromText) s.normal =
      Aliases.empty.bind (s.allSources.map Source.binding) := by
    rw [Aliases.ofClauses, clauseBindings_normal]
    rfl
  rw [Sql.features, s.normalize_of_toLower h]
  simp only [s.fromClause_normal, s.whereClause_normal.1, s.whereClause_normal.2,
    s.orderByClause_normal.1, s.orderByClause_normal.2, s.groupByClause_normal.1,
    s.groupByClause_normal.2, s.joinCondition_normal, s.mentions_join_normal, hwhere, hgroup,
    horder, s.predicates_whereText, s.joinPairs_normal, haliases, s.orderColumns_orderByText,
    Option.map_some, Option.getD_some, s.entryTables_fromText]
  rw [features, List.map_map, List.map_map]
  rfl

theorem map_fst_binding : (s.allSources.map Source.binding).map Prod.fst =
    s.allSources.map fun a => a.visible.chars := by
  rw [List.map_map]
  rfl

/-- A visible name stands for its table, unless two tables share the name. -/
theorem resolveTable_visible (hnodup : (s.allSources.map fun a => a.visible.chars).Nodup)
    {a : Source} (ha : a ∈ s.allSources) :
    s.features.resolveTable (String.ofList a.visible.chars) = String.ofList a.table.chars := by
  have hbinding : a.binding ∈ s.allSources.map Source.binding := List.mem_map_of_mem ha
  rw [← map_fst_binding] at hnodup
  exact resolve_bind_of_mem hnodup hbinding Aliases.empty

/-- A name that is not visible stands for itself. -/
theorem resolveTable_of_not_visible {q : String}
    (hq : ∀ a ∈ s.allSources, q ≠ String.ofList a.visible.chars) :
    s.features.resolveTable q = q := by
  have hnot : q.toList ∉ (s.allSources.map Source.binding).map Prod.fst := by
    rw [map_fst_binding]
    intro hmem
    obtain ⟨a, ha, heq⟩ := List.mem_map.mp hmem
    exact hq a ha (by rw [heq, String.ofList_toList])
  have hresolve := resolve_bind_of_not_mem hnot Aliases.empty
  rw [String.ofList_toList] at hresolve
  exact hresolve

/-- **Reading what was put together.** In any ASCII letter case the features of a statement are
what it was put together from: its tables, the clauses it has and their texts, its conditions, the
columns of its joins, and the columns it is ordered by. If no two tables are known by one name,
each visible name stands for its table; any other name stands for itself. -/
theorem features_of_toLower {sql : String} (h : sql.toList.map Char.toLower = s.text) :
    Sql.features sql = s.features ∧
    ((s.allSources.map fun a => a.visible.chars).Nodup → ∀ a ∈ s.allSources,
      (Sql.features sql).resolveTable (String.ofList a.visible.chars) =
        String.ofList a.table.chars) ∧
    ∀ q : String, (∀ a ∈ s.allSources, q ≠ String.ofList a.visible.chars) →
      (Sql.features sql).resolveTable q = q := by
  rw [s.features_eq h]
  exact ⟨rfl, fun hnodup _ ha => s.resolveTable_visible hnodup ha,
    fun _ hq => s.resolveTable_of_not_visible hq⟩

/-- Orders, brands and users: words that begin like keywords are names. -/
def orders : Statement where
  source := ⟨.ofString "orders" (by decide), some (true, .ofString "o" (by decide))⟩
  sources := [⟨.ofString "brand" (by decide), none⟩]
  joins := [
    { side? := some .left
      source := ⟨.ofString "users" (by decide), some (false, .ofString "u" (by decide))⟩
      left := (.ofString "o" (by decide), .ofString "id" (by decide))
      right := (.ofString "u" (by decide), .ofString "id" (by decide)) }]
  conditions? :=
    some (⟨⟨none, .ofString "joined_at" (by decide)⟩, .ge, ⟨['9'], by decide, by decide⟩⟩, [])
  groupBy := []
  orderBy := []
  limit? := none
  isClosed := true

theorem features_of_toLower_orders :
    let sql :=
      "SELECT * FROM orders AS o, Brand LEFT JOIN users U ON o.id = u.id WHERE Joined_At >= 9;"
    sql.toList.map Char.toLower = orders.text ∧
    (orders.allSources.map fun a => a.visible.chars).Nodup ∧
    Sql.features sql = orders.features ∧
    (∀ a ∈ orders.allSources, (Sql.features sql).resolveTable (String.ofList a.visible.chars) =
      String.ofList a.table.chars) ∧
    (Sql.features sql).resolveTable "b" = "b" := by
  intro sql
  have htext : sql.toList.map Char.toLower = orders.text := by decide +kernel
  have hnodup : (orders.allSources.map fun a => a.visible.chars).Nodup := by decide
  have hother : ∀ a ∈ orders.allSources, "b" ≠ String.ofList a.visible.chars := by decide
  obtain ⟨hfeatures, hvisible, hitself⟩ := features_of_toLower orders htext
  exact ⟨htext, hnodup, hfeatures, hvisible hnodup, hitself "b" hother⟩

end Statement

end IndexAdvisor.Sql
