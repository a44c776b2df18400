import IndexAdvisor.Proofs.Sql.Joins

/-!
# The entries of a plain statement

A FROM text and an ORDER BY text are cut at commas, and each entry is cut into words. The first word
is the table or the column, and the words behind it tell the alias or the direction. Joins belong to
the last FROM entry: they begin with a word that is no alias.
-/

set_option autoImplicit false

namespace IndexAdvisor.Text

/-! ## Words -/

theorem words_blank {c : Char} (hc : isBlank c = true) (cs : List Char) :
    words (c :: cs) = words cs := by
  have hsplit : (c :: cs).splitOnP isBlank = [] :: cs.splitOnP isBlank :=
    List.splitOnP_append_cons_of_forall_mem (fun _ h => absurd h List.not_mem_nil) c hc cs
  rw [words, hsplit, words]
  rfl

/-- A text without blanks is a word. -/
theorem words_singleton {w : List Char} (hne : w ≠ []) (hw : ∀ c ∈ w, isBlank c = false) :
    words w = [w] := by
  rw [words, List.splitOnP_eq_singleton hw]
  cases w with
  | nil => exact absurd rfl hne
  | cons c w => rfl

/-- The characters up to a blank are a word. -/
theorem words_cons {w : List Char} (hne : w ≠ []) (hw : ∀ c ∈ w, isBlank c = false) {c : Char}
    (hc : isBlank c = true) (cs : List Char) : words (w ++ c :: cs) = w :: words (c :: cs) := by
  rw [words_blank hc, words, List.splitOnP_append_cons_of_forall_mem hw c hc]
  cases w with
  | nil => exact absurd rfl hne
  | cons d w => rfl

end IndexAdvisor.Text

namespace IndexAdvisor.Sql

open IndexAdvisor.Text

/-- A text that is empty or begins with a blank, so that a word ends in front of it. -/
def EndsWord (cs : List Char) : Prop := ∀ c ∈ cs.head?, isBlank c = true

theorem endsWord_nil : EndsWord [] := fun c hc => absurd hc (Option.not_mem_none c)

theorem words_append {w cs : List Char} (hne : w ≠ []) (hw : ∀ c ∈ w, isBlank c = false)
    (hcs : EndsWord cs) : words (w ++ cs) = w :: words cs := by
  cases cs with
  | nil =>
      rw [List.append_nil, words_singleton hne hw]
      rfl
  | cons c cs => exact words_cons hne hw (hcs c rfl) cs

/-- The first word of a text that begins with a word. -/
theorem words_word (w : Word) {cs : List Char} (hcs : EndsWord cs) :
    words (w.chars ++ cs) = w.chars :: words cs :=
  words_append w.ne_nil (fun c hc => isBlank_of_isNameChar (w.isNameChar_of_mem c hc)) hcs

/-- Words behind blanks are the words of their text. -/
theorem words_spell {ps : List Piece} (hps : ∀ p ∈ ps, p.gap = .blank) {cs : List Char}
    (hcs : EndsWord cs) :
    EndsWord (spell ps ++ cs) ∧ words (spell ps ++ cs) = ps.map (·.word.chars) ++ words cs := by
  induction ps with
  | nil => exact ⟨hcs, rfl⟩
  | cons p ps ih =>
      obtain ⟨g, w⟩ := p
      obtain rfl : g = .blank := hps ⟨g, w⟩ List.mem_cons_self
      obtain ⟨hends, hwords⟩ := ih fun q hq => hps q (List.mem_cons_of_mem _ hq)
      have htext : spell (⟨.blank, w⟩ :: ps) ++ cs = ' ' :: (w.chars ++ (spell ps ++ cs)) := by
        rw [spell_cons, List.append_assoc, List.append_assoc]
        rfl
      rw [htext, words_blank (by decide), words_word w hends, hwords]
      exact ⟨fun c hc => by cases hc; decide, rfl⟩

/-! ## Entries -/

theorem filterMap_splitOn_blank {β : Type} {f : List Char → Option β}
    (hf : ∀ cs, f (' ' :: cs) = f cs) (cs : List Char) :
    ((' ' :: cs).splitOn ',').filterMap f = (cs.splitOn ',').filterMap f := by
  rw [List.splitOn_cons_eq_if_modifyHead, if_neg (by decide)]
  cases cs.splitOn ',' with
  | nil => rfl
  | cons e es => rw [List.modifyHead_cons, List.filterMap_cons, List.filterMap_cons, hf]

/-- **Entries are read one by one**, and the last one with the text behind it. -/
theorem filterMap_splitOn {α β : Type} {text : α → List Char} {f : List Char → Option β}
    {answer : α → β} {rest : List Char} (hcomma : ∀ a, ',' ∉ text a) (hrest : ',' ∉ rest)
    (hblank : ∀ cs, f (' ' :: cs) = f cs) (hf : ∀ a, f (text a) = some (answer a))
    (hlast : ∀ a, f (text a ++ rest) = some (answer a)) (a : α) (as : List α) :
    ((", ".toList.intercalate ((a :: as).map text) ++ rest).splitOn ',').filterMap f =
      (a :: as).map answer := by
  induction as generalizing a with
  | nil =>
      have htext : ", ".toList.intercalate ([a].map text) ++ rest = text a ++ rest := by
        simp [List.intercalate]
      have hnot : ',' ∉ text a ++ rest := fun h =>
        (List.mem_append.mp h).elim (hcomma a) hrest
      rw [htext, List.splitOn_eq_singleton hnot, List.filterMap_cons, hlast]
      rfl
  | cons b as ih =>
      have htext : ", ".toList.intercalate ((a :: b :: as).map text) ++ rest = text a ++
          ',' :: ' ' :: (", ".toList.intercalate ((b :: as).map text) ++ rest) := by
        rw [List.map_cons, List.map_cons, List.intercalate_cons_cons, ← List.map_cons]
        simp
      -- the first comma ends the first entry, and a blank in front of the next one is not seen
      rw [htext, List.splitOn_append_cons_self_of_not_mem (hcomma a), List.filterMap_cons, hf,
        filterMap_splitOn_blank hblank, ih b]
      rfl

/-- No sign of a text is a comma if no gap is one. -/
theorem comma_not_mem_spell {ps : List Piece} (hps : ∀ p ∈ ps, p.gap ≠ .comma) :
    ',' ∉ spell ps := by
  induction ps with
  | nil => exact List.not_mem_nil
  | cons p ps ih =>
      have hgap : ',' ∉ p.gap.chars := by
        have hp := hps p List.mem_cons_self
        cases hg : p.gap with
        | comma => exact absurd hg hp
        | _ => decide
      have hword : ',' ∉ p.word.chars := fun h => absurd (p.word.isNameChar_of_mem _ h) (by decide)
      rw [spell_cons, List.mem_append, List.mem_append, not_or, not_or]
      exact ⟨hgap, hword, ih fun q hq => hps q (List.mem_cons_of_mem p hq)⟩

/-! ## Tables -/

theorem isTableChar_of_isNameChar {c : Char} (h : isNameChar c = true) : isTableChar c = true :=
  forall_isNameChar (P := fun c => isTableChar c = true) (by decide) h

/-- Nothing is dropped from an end that is to be kept. -/
theorem dropEndWhile_of_forall {p : Char → Bool} {cs : List Char} (h : ∀ c ∈ cs, p c = false) :
    dropEndWhile p cs = cs := by
  induction cs with
  | nil => rfl
  | cons c cs ih =>
      have hc := h c List.mem_cons_self
      rw [dropEndWhile, ih fun d hd => h d (List.mem_cons_of_mem c hd)]
      cases cs with
      | nil => simp [hc]
      | cons d ds => rfl

/-- The first word of an entry is its table. -/
theorem entryTable?_word (n : Name) {cs : List Char} (hcs : EndsWord cs) :
    entryTable? (n.chars ++ cs) = some n.chars := by
  have hkept : ∀ c ∈ n.chars, (!isTableChar c) = false := fun c hc => by
    rw [isTableChar_of_isNameChar (n.isNameChar_of_mem c hc)]
    rfl
  have hfront : n.chars.dropWhile (fun c => !isTableChar c) = n.chars := by
    have h := dropWhile_word (p := fun c => !isTableChar c)
      (fun c hc => by rw [isTableChar_of_isNameChar hc, Bool.not_true]) n.word []
    rwa [List.append_nil] at h
  have hwords : words (n.chars ++ cs) = n.chars :: words cs := words_word n.word hcs
  rw [entryTable?, hwords]
  simp only [hfront, dropEndWhile_of_forall hkept]
  cases hn : n.chars with
  | nil => exact absurd hn n.ne_nil
  | cons c ds => rfl

/-! ## Bindings -/

/-- What a table makes known: its visible name stands for it. -/
def Source.binding (s : Source) : List Char × List Char := (s.visible.chars, s.table.chars)

theorem Name.mayBeAlias (n : Name) : Sql.mayBeAlias n.chars = true := by
  have hfree : ∀ k ∈ nonAliasWords, (k.toList == n.chars) = false := fun k hk =>
    beq_eq_false_iff_ne.mpr fun h =>
      n.isFree k (List.mem_append_right _ hk) h.symm
  have hnone : nonAliasWords.any (fun k => k.toList == n.chars) = false :=
    List.any_eq_false.mpr fun k hk => by
      rw [hfree k hk]
      exact Bool.false_ne_true
  rw [Sql.mayBeAlias, hnone]
  rfl

/-- The text behind the tables: none, or one whose first word is no alias. -/
def NotAlias (cs : List Char) : Prop :=
  EndsWord cs ∧ ∀ w ∈ (words cs).head?, ∃ k ∈ nonAliasWords, w = k.toList

/-- The text of a source is its table and what stands before its alias. -/
theorem Source.text_eq (s : Source) : s.text = s.table.word.chars ++ spell (aliasPieces s.alias?) := by
  have hspell := spell_source .blank s
  rw [Source.pieces, spell_cons] at hspell
  exact (List.append_cancel_left hspell).symm

theorem gap_of_mem_aliasPieces (alias? : Option (Bool × Name)) :
    ∀ p ∈ aliasPieces alias?, p.gap = .blank := by
  rcases alias? with _ | ⟨_ | _, a⟩ <;> simp [aliasPieces, keywordPiece]

theorem notAlias_nil : NotAlias [] :=
  ⟨endsWord_nil, fun w hw => absurd hw (Option.not_mem_none w)⟩

theorem entryBinding?_text (s : Source) {cs : List Char} (hcs : NotAlias cs) :
    entryBinding? (words (s.text ++ cs)) = some s.binding := by
  obtain ⟨hends, hfirst⟩ := hcs
  obtain ⟨hends, hwords⟩ := words_spell (gap_of_mem_aliasPieces s.alias?) hends
  rw [s.text_eq, List.append_assoc, words_word _ hends, hwords, Source.binding, Source.visible]
  rcases s.alias? with _ | ⟨_ | _, a⟩
  · cases hrest : words cs with
    | nil => rfl
    | cons w ws =>
        rw [hrest] at hfirst
        obtain ⟨k, hk, rfl⟩ := hfirst w rfl
        have hkeys : ∀ k ∈ nonAliasWords, k.toList ≠ "as".toList ∧
            Sql.mayBeAlias k.toList = false := by decide
        show entryBinding? (s.table.chars :: k.toList :: ws) = some (s.table.chars, s.table.chars)
        rw [entryBinding?, if_neg (hkeys k hk).1, (hkeys k hk).2, if_neg Bool.false_ne_true]
  · show entryBinding? (s.table.chars :: a.chars :: words cs) = some (a.chars, s.table.chars)
    rw [entryBinding?, if_neg (a.isFree "as" (by decide)), a.mayBeAlias, if_pos rfl]
  · rfl

/-- The target of a join binds what its source binds. -/
theorem targetBinding_join (j : Join) :
    targetBinding (j.source.table.chars, some j.wordBehind.chars) = j.source.binding := by
  rw [targetBinding, Join.wordBehind, Source.binding, Source.visible]
  cases j.source.alias? with
  | none => rfl
  | some a =>
      have ha : Sql.mayBeAlias a.2.word.chars = true := a.2.mayBeAlias
      simp only [ha]
      rfl

namespace Statement

variable (s : Statement)

/-- The tables of a statement, those of joins included. -/
def allSources : List Source := s.source :: s.sources ++ s.joins.map Join.source

theorem comma_not_mem_source (a : Source) : ',' ∉ a.text := by
  rw [a.text_eq, ← List.append_nil (spell _), List.mem_append, not_or]
  refine ⟨fun h => absurd (a.table.isNameChar_of_mem _ h) (by decide), ?_⟩
  rw [List.append_nil]
  refine comma_not_mem_spell fun p hp => ?_
  rw [gap_of_mem_aliasPieces _ p hp]
  decide

theorem comma_not_mem_joins : ',' ∉ s.joins.flatMap Join.text := by
  have hside (side? : Option Side) : ∀ p ∈ sidePieces side?, p.gap ≠ .comma := by
    rcases side? with _ | _ | _ | _ | _ <;> simp [sidePieces, keywordPiece]
  have hcondition (j : Join) : ∀ p ∈ onPiece :: j.condition, p.gap ≠ .comma := by
    simp [onPiece, keywordPiece, Join.condition]
  rw [← spell_joins]
  refine comma_not_mem_spell fun p hp => ?_
  obtain ⟨j, -, hp⟩ := List.mem_flatMap.mp hp
  rw [Join.pieces, List.mem_append, List.mem_cons, Join.body, Source.pieces, List.cons_append,
    List.mem_cons, List.mem_append] at hp
  rcases hp with hp | rfl | rfl | hp | hp
  · exact hside j.side? p hp
  · decide
  · exact fun h => Gap.noConfusion h
  · rw [gap_of_mem_aliasPieces _ p hp]
    decide
  · exact hcondition j p hp

/-- Whatever its side, a join begins with a word that is no alias. -/
theorem exists_pieces_join (j : Join) : ∃ k h w ps, k ∈ nonAliasWords ∧
    j.pieces = keywordPiece k h :: ⟨.blank, w⟩ :: ps := by
  rw [Join.pieces]
  rcases j.side? with _ | _ | _ | _ | _
  · exact ⟨"join", by decide, _, _, by decide, rfl⟩
  · exact ⟨"inner", by decide, _, _, by decide, rfl⟩
  · exact ⟨"left", by decide, _, _, by decide, rfl⟩
  · exact ⟨"right", by decide, _, _, by decide, rfl⟩
  · exact ⟨"full", by decide, _, _, by decide, rfl⟩

/-- Joins begin with a word that is no alias. -/
theorem notAlias_joins : NotAlias (s.joins.flatMap Join.text) := by
  rw [← spell_joins]
  cases s.joins with
  | nil => exact notAlias_nil
  | cons j js =>
      obtain ⟨k, h, w, ps, hk, hpieces⟩ := exists_pieces_join j
      have htext : spell ((j :: js).flatMap Join.pieces) =
          ' ' :: (k.toList ++ spell (⟨.blank, w⟩ :: (ps ++ js.flatMap Join.pieces))) := by
        rw [List.flatMap_cons, hpieces, List.cons_append, List.cons_append, spell_cons]
        rfl
      have hends : EndsWord (spell (⟨.blank, w⟩ :: (ps ++ js.flatMap Join.pieces))) := by
        rw [spell_cons]
        intro c hc
        cases hc
        decide
      have hwords : words (k.toList ++ spell (⟨.blank, w⟩ :: (ps ++ js.flatMap Join.pieces))) =
          k.toList :: words (spell (⟨.blank, w⟩ :: (ps ++ js.flatMap Join.pieces))) :=
        words_word (.ofString k h) hends
      refine ⟨fun c hc => ?_, fun v hv => ⟨k, hk, ?_⟩⟩
      · rw [htext] at hc
        cases hc
        decide
      · rw [htext, words_blank (by decide), hwords] at hv
        cases hv
        rfl

/-- **The tables of a FROM text** are those that were put together. -/
theorem entryTables_fromText :
    entryTables s.fromText = (s.source :: s.sources).map fun a => a.table.chars := by
  have hread (a : Source) {cs : List Char} (hcs : EndsWord cs) :
      entryTable? (a.text ++ cs) = some a.table.chars := by
    rw [a.text_eq, List.append_assoc]
    exact entryTable?_word a.table (words_spell (gap_of_mem_aliasPieces a.alias?) hcs).1
  have hblank (cs : List Char) : entryTable? (' ' :: cs) = entryTable? cs := by
    rw [entryTable?, words_blank (by decide), entryTable?]
  have halone (a : Source) : entryTable? a.text = some a.table.chars := by
    have h := hread a endsWord_nil
    rwa [List.append_nil] at h
  exact filterMap_splitOn comma_not_mem_source s.comma_not_mem_joins hblank halone
    (fun a => hread a s.notAlias_joins.1) s.source s.sources

/-- **The bindings of a statement** are those of its tables, in order. -/
theorem clauseBindings_normal :
    clauseBindings (some s.fromText) s.normal = s.allSources.map Source.binding := by
  have hblank (cs : List Char) :
      entryBinding? (words (' ' :: cs)) = entryBinding? (words cs) := by
    rw [words_blank (by decide)]
  have halone (a : Source) : entryBinding? (words a.text) = some a.binding := by
    have h := entryBinding?_text a notAlias_nil
    rwa [List.append_nil] at h
  have hentries : (s.fromText.splitOn ',').filterMap (fun e => entryBinding? (words e)) =
      (s.source :: s.sources).map Source.binding :=
    filterMap_splitOn comma_not_mem_source s.comma_not_mem_joins hblank halone
      (fun a => entryBinding?_text a s.notAlias_joins) s.source s.sources
  have htargets : (s.joins.map fun j => (j.source.table.chars, some j.wordBehind.chars)).map
      targetBinding = (s.joins.map Join.source).map Source.binding := by
    rw [List.map_map, List.map_map]
    exact List.map_congr_left fun j _ => targetBinding_join j
  rw [clauseBindings, joinTargets_normal, htargets, hentries, allSources, List.map_append]

end Statement

/-! ## Orderings -/

theorem point_not_mem_name (n : Name) : '.' ∉ n.chars := fun h =>
  absurd (n.isNameChar_of_mem _ h) (by decide)

theorem isColumnRef_text (c : Column) : isColumnRef c.text = true := by
  rcases c with ⟨_ | t, n⟩
  · have hsplit : n.chars.splitOn '.' = [n.chars] := List.splitOn_eq_singleton (point_not_mem_name n)
    show isColumnRef n.chars = true
    rw [isColumnRef, hsplit]
    exact n.isIdentifier
  · have hsplit : (t.chars ++ '.' :: n.chars).splitOn '.' = [t.chars, n.chars] := by
      rw [List.splitOn_append_cons_self_of_not_mem (point_not_mem_name t),
        List.splitOn_eq_singleton (point_not_mem_name n)]
    show isColumnRef (t.chars ++ '.' :: n.chars) = true
    rw [isColumnRef, hsplit]
    show (isIdentifier t.chars && isIdentifier n.chars) = true
    rw [t.isIdentifier, n.isIdentifier]
    rfl

/-- A column is one word. -/
theorem isBlank_of_mem_column (c : Column) : c.text ≠ [] ∧ ∀ d ∈ c.text, isBlank d = false := by
  have hname (n : Name) : ∀ d ∈ n.chars, isBlank d = false := fun d hd =>
    isBlank_of_isNameChar (n.isNameChar_of_mem d hd)
  rcases c with ⟨_ | t, n⟩
  · exact ⟨n.ne_nil, hname n⟩
  · refine ⟨List.append_ne_nil_of_left_ne_nil t.ne_nil _, fun d hd => ?_⟩
    rcases List.mem_append.mp hd with hd | hd
    · exact hname t d hd
    · rcases List.mem_cons.mp hd with rfl | hd
      · decide
      · exact hname n d hd

/-- **An entry of an ordering is read** as its column. -/
theorem orderColumn?_text (k : OrderKey) : orderColumn? k.text = some k.column.text := by
  have hblank : ∀ p ∈ directionPieces k.descends? ++ nullsPieces k.nullsLast?, p.gap = .blank := by
    rcases k.descends? with _ | _ | _ <;> rcases k.nullsLast? with _ | _ | _ <;>
      simp [directionPieces, nullsPieces, keywordPiece]
  have htext : k.text = k.column.text ++
      (spell (directionPieces k.descends? ++ nullsPieces k.nullsLast?) ++ []) := by
    have hspell := spell_orderKey .blank k
    rw [OrderKey.pieces, spell_append, spell_column, List.append_assoc] at hspell
    rw [List.append_nil, ← List.append_cancel_left hspell]
  obtain ⟨hends, hwords⟩ := words_spell hblank endsWord_nil
  have hcolumn := isBlank_of_mem_column k.column
  have hmodifiers : orderModifiers.any (fun m => m.map String.toList ==
      (directionPieces k.descends? ++ nullsPieces k.nullsLast?).map (·.word.chars)) = true := by
    rcases k.descends? with _ | _ | _ <;> rcases k.nullsLast? with _ | _ | _ <;> decide
  have hnil : words [] = [] := rfl
  rw [htext, orderColumn?, words_append hcolumn.1 hcolumn.2 hends, hwords, hnil, List.append_nil]
  simp only [isColumnRef_text, hmodifiers, Bool.and_self, if_true]

/-- **The columns of an ORDER BY text** are those that were put together, without directions. -/
theorem Statement.orderColumns_orderByText (s : Statement) :
    (s.orderByText?.map fun t => (t.splitOn ',').filterMap orderColumn?).getD [] =
      s.orderBy.map fun k => k.column.text := by
  have hcomma (k : OrderKey) : ',' ∉ k.text := by
    have hspell := spell_orderKey .blank k
    have hnot : ',' ∉ spell (k.pieces .blank) := by
      refine comma_not_mem_spell ?_
      rcases k with ⟨⟨_ | t, n⟩, _ | _ | _, _ | _ | _⟩ <;>
        simp [OrderKey.pieces, Column.pieces, directionPieces, nullsPieces, keywordPiece]
    rw [hspell, List.mem_append, not_or] at hnot
    exact hnot.2
  have hblank (cs : List Char) : orderColumn? (' ' :: cs) = orderColumn? cs := by
    rw [orderColumn?, words_blank (by decide), orderColumn?]
  rw [orderByText?]
  cases s.orderBy with
  | nil => rfl
  | cons k ks =>
      have hentries := filterMap_splitOn hcomma List.not_mem_nil hblank orderColumn?_text
        (fun k => (congrArg orderColumn? (List.append_nil _)).trans (orderColumn?_text k)) k ks
      rwa [List.append_nil] at hentries

end IndexAdvisor.Sql
