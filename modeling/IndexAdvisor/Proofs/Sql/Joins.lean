import IndexAdvisor.Proofs.Sql.Conditions

/-!
# The joins of a plain statement

Each join is found at its keyword, its table and alias are told from the word `on` behind them, and
its columns are read up to the next part of the statement.
-/

set_option autoImplicit false

namespace IndexAdvisor.Sql

open IndexAdvisor.Text

section Plain

variable {fold : Char → Char} (hfold : Plain fold)

include hfold

theorem letters_word {k : List Char} (hk : ∀ c ∈ k, isNameChar c = true) (cs : List Char) :
    letters fold k (k ++ cs) = some cs :=
  letters_self fold (fun c hc => hfold.name (hk c hc)) cs

/-- Letters and blanks in front of something are read where the word is these letters. -/
theorem letters_blanks_of_ne {β : Type} {w : Word} {k : String}
    (hk : ∀ c ∈ k.toList, isNameChar c = true) (hw : w.chars ≠ k.toList) (ps : List Piece)
    (g : List Char → Option β) :
    ((letters fold k.toList (w.chars ++ spell ps)).bind fun cs => (blanks cs).bind g) = none :=
  (letters_bind hfold (failsInWords_blanks.bind g) hk w.isNameChar_of_mem ps).trans (if_neg hw)

/-! ## Joined tables -/

omit hfold in
theorem joinedTable_bind {β : Type} (tail : List Char × List Char → Option β) (cs : List Char) :
    (joinedTable fold cs).bind tail = (letters fold "join".toList cs).bind fun cs =>
      (blanks cs).bind fun cs => (name fold cs).bind tail := by
  simp only [joinedTable, bind, Option.bind_assoc]

/-- What begins with a joined table is read at words only. -/
theorem atWords_joinedTable {β : Type} (tail : List Char × List Char → Option β) :
    AtWords fun cs => (joinedTable fold cs).bind tail := by
  have hwords := atWords_letters hfold (k := "join".toList) (by decide) (by decide)
    fun cs => (blanks cs).bind fun cs => (name fold cs).bind tail
  rw [funext (joinedTable_bind tail)]
  exact hwords

/-- Another word than the keyword begins no joined table. -/
theorem joinedTable_of_ne {β : Type} (tail : List Char × List Char → Option β) {w : Word}
    (hw : w.chars ≠ "join".toList) (ps : List Piece) :
    (joinedTable fold (w.chars ++ spell ps)).bind tail = none := by
  rw [joinedTable_bind]
  exact letters_blanks_of_ne hfold (by decide) hw ps _

/-- A joined table is read. -/
theorem joinedTable_join (w : Word) (ps : List Piece) :
    joinedTable fold ("join".toList ++ spell (⟨.blank, w⟩ :: ps)) = some (w.chars, spell ps) := by
  have hjoin := letters_word hfold (k := "join".toList) (by decide) (spell (⟨.blank, w⟩ :: ps))
  simp only [joinedTable, hjoin, blanks_spell_blank, name_word hfold, bind, Option.bind_some]

/-! ## Aliases -/

/-- Past an alias: where a word stands behind a blank it may be `as`, or an alias, or none. -/
theorem pastAlias_blank {β : Type} (tail : List Char → Option β) (w : Word) (ps : List Piece) :
    pastAlias fold tail (spell (⟨.blank, w⟩ :: ps)) =
      ((letters fold "as".toList (w.chars ++ spell ps)).bind fun cs =>
        (blanks cs).bind fun cs => (name fold cs).bind fun r => tail r.2).or
        ((tail (spell ps)).or (tail (spell (⟨.blank, w⟩ :: ps)))) := by
  have hor (a b : Option β) : (a <|> b) = a.or b := by
    cases a <;> rfl
  simp only [pastAlias, blanks_spell_blank, name_word hfold, bind, Option.bind_some, hor]

/-- **An alias is passed over**, with `as` in front of it or not, and where there is none nothing
is: what is read behind `on` does not fit where `on` is taken for an alias. -/
theorem pastAlias_spell {β : Type} {tail : List Char → Option β} {b : β} {ps : List Piece}
    (alias? : Option (Bool × Name)) (hsome : tail (spell (onPiece :: ps)) = some b)
    (hnone : tail (spell ps) = none) :
    pastAlias fold tail (spell (aliasPieces alias? ++ onPiece :: ps)) = some b := by
  have hnotAs {w : Word} (hw : w.chars ≠ "as".toList) (ps : List Piece) :
      ((letters fold "as".toList (w.chars ++ spell ps)).bind fun cs =>
        (blanks cs).bind fun cs => (name fold cs).bind fun r => tail r.2) = none :=
    letters_blanks_of_ne hfold (by decide) hw ps _
  -- without an alias `on` is tried as one first, and then no `on` is left
  rcases alias? with _ | ⟨_ | _, a⟩
  · show pastAlias fold tail (spell (⟨.blank, onPiece.word⟩ :: ps)) = some b
    rw [pastAlias_blank hfold, hnotAs (by decide), hnone, Option.none_or, Option.none_or]
    exact hsome
  · show pastAlias fold tail (spell (⟨.blank, a.word⟩ :: onPiece :: ps)) = some b
    rw [pastAlias_blank hfold, hnotAs (a.isFree "as" (by decide)), hsome]
    rfl
  · show pastAlias fold tail
      (spell (⟨.blank, .ofString "as" (by decide)⟩ :: ⟨.blank, a.word⟩ :: onPiece :: ps)) = some b
    have has : letters fold "as".toList ((Word.ofString "as" (by decide)).chars ++
        spell (⟨.blank, a.word⟩ :: onPiece :: ps)) =
          some (spell (⟨.blank, a.word⟩ :: onPiece :: ps)) := letters_word hfold (by decide) _
    rw [pastAlias_blank hfold, has]
    simp only [Option.bind_some, blanks_spell_blank, name_word hfold, hsome]
    rfl

/-! ## Conditions -/

theorem onKeyword_on (w : Word) (ps : List Piece) :
    onKeyword fold (spell (onPiece :: ⟨.blank, w⟩ :: ps)) = some (w.chars ++ spell ps) := by
  have hblanks : blanks (spell (onPiece :: ⟨.blank, w⟩ :: ps)) =
      some ("on".toList ++ spell (⟨.blank, w⟩ :: ps)) := blanks_spell_blank onPiece.word _
  have hon := letters_word hfold (k := "on".toList) (by decide) (spell (⟨.blank, w⟩ :: ps))
  simp only [onKeyword, hblanks, hon, blanks_spell_blank, bind, Option.bind_some]

theorem onKeyword_of_ne {w : Word} (hw : w.chars ≠ "on".toList) (ps : List Piece) :
    onKeyword fold (spell (⟨.blank, w⟩ :: ps)) = none := by
  have hon := letters_bind hfold failsInWords_blanks (k := "on".toList) (by decide)
    w.isNameChar_of_mem ps
  simp only [onKeyword, blanks_spell_blank, bind, Option.bind_some]
  exact hon.trans (if_neg hw)

end Plain

theorem columnRef_spell (q c : Word) (ps : List Piece) :
    columnRef (q.chars ++ spell (⟨.point, c⟩ :: ps)) = some ((q.chars, c.chars), spell ps) := by
  have hpoint : char '.' (spell (⟨.point, c⟩ :: ps)) = some (c.chars ++ spell ps) := by
    rw [spell_cons]
    rfl
  simp only [columnRef, name_word plain_foldCase, hpoint, bind, Option.bind_some]

/-- The columns that a join compares. -/
def Join.pair (j : Join) : JoinPair where
  leftTable := String.ofList j.left.1.chars
  leftColumn := String.ofList j.left.2.chars
  rightTable := String.ofList j.right.1.chars
  rightColumn := String.ofList j.right.2.chars

theorem equality_condition (j : Join) (ps : List Piece) :
    equality (spell (onPiece :: (j.condition ++ ps))) = some (j.pair, spell ps) := by
  have heq : char '=' ((spell (⟨.eq, j.right.1.word⟩ :: ⟨.point, j.right.2.word⟩ :: ps)).dropWhile
      isBlank) = some (' ' :: (j.right.1.word.chars ++ spell (⟨.point, j.right.2.word⟩ :: ps))) := by
    rw [spell_cons]
    rfl
  have hright : (' ' :: (j.right.1.word.chars ++ spell (⟨.point, j.right.2.word⟩ :: ps))).dropWhile
      isBlank = j.right.1.word.chars ++ spell (⟨.point, j.right.2.word⟩ :: ps) :=
    (List.dropWhile_cons_of_pos (by decide)).trans (dropWhile_isBlank_word _ _)
  show equality (spell (onPiece :: ⟨.blank, j.left.1.word⟩ :: ⟨.point, j.left.2.word⟩ ::
    ⟨.eq, j.right.1.word⟩ :: ⟨.point, j.right.2.word⟩ :: ps)) = _
  simp only [equality, onKeyword_on plain_foldCase, columnRef_spell, heq, hright, bind,
    Option.bind_some, lower_word]
  rfl

theorem equality_of_ne {w : Word} (hw : w.chars ≠ "on".toList) (ps : List Piece) :
    equality (spell (⟨.blank, w⟩ :: ps)) = none := by
  simp only [equality, onKeyword_of_ne plain_foldCase hw, bind, Option.bind_none]

/-- **A join is read** with its columns, up to what follows it. -/
theorem joinPair?_body (j : Join) (ps : List Piece) :
    joinPair? ("join".toList ++ spell (j.body ++ ps)) = some (j.pair, spell ps) := by
  have hbody : j.body ++ ps = ⟨.blank, j.source.table.word⟩ ::
      (aliasPieces j.source.alias? ++ onPiece :: (j.condition ++ ps)) := by
    simp [Join.body, Source.pieces]
  have hpast := pastAlias_spell plain_foldCase j.source.alias? (equality_condition j ps)
    (equality_of_ne (j.left.1.isFree "on" (by decide)) _)
  rw [hbody, joinPair?]
  simp only [joinedTable_join plain_foldCase, bind, Option.bind_some]
  exact hpast

/-! ## Targets -/

/-- `as` is passed over where it is the whole word. -/
theorem skipAs_as (ps : List Piece) :
    skipAs (spell (keywordPiece "as" (by decide) :: ps)) = spell ps := by
  have hblanks : blanks (spell (keywordPiece "as" (by decide) :: ps)) =
      some ("as".toList ++ spell ps) := blanks_spell_blank _ ps
  have has : anyCase "as" ("as".toList ++ spell ps) = some (spell ps) :=
    letters_word plain_foldCase (by decide) _
  simp only [skipAs, hblanks, has, wordEnd_spell, Option.bind_some]

theorem skipAs_of_ne {w : Word} (hw : w.chars ≠ "as".toList) (ps : List Piece) :
    skipAs (spell (⟨.blank, w⟩ :: ps)) = spell (⟨.blank, w⟩ :: ps) := by
  have has : (anyCase "as" (w.chars ++ spell ps)).bind wordEnd = none :=
    (letters_bind plain_foldCase failsInWords_wordEnd (by decide) w.isNameChar_of_mem ps).trans
      (if_neg hw)
  simp only [skipAs, blanks_spell_blank, Option.bind_some, has]

/-- The word behind the joined table, `as` aside: its alias, or `on`. -/
def Join.wordBehind (j : Join) : Word :=
  match j.source.alias? with
  | none => onPiece.word
  | some (_, a) => a.word

/-- The pieces behind that word. -/
def Join.behindWord (j : Join) : List Piece :=
  match j.source.alias? with
  | none => j.condition
  | some _ => onPiece :: j.condition

/-- **The target of a join is read** with the word behind it. -/
theorem joinTarget?_body (j : Join) (ps : List Piece) :
    joinTarget? ("join".toList ++ spell (j.body ++ ps)) =
      some ((j.source.table.chars, some j.wordBehind.chars), spell (j.behindWord ++ ps)) := by
  have hread (qs : List Piece)
      (hskip : skipAs (spell qs) = spell (⟨.blank, j.wordBehind⟩ :: (j.behindWord ++ ps))) :
      joinTarget? ("join".toList ++ spell (⟨.blank, j.source.table.word⟩ :: qs)) =
        some ((j.source.table.chars, some j.wordBehind.chars), spell (j.behindWord ++ ps)) := by
    simp only [joinTarget?, joinedTable_join plain_foldCase, hskip, blanks_spell_blank,
      name_word plain_foldCase, bind, Option.bind_some, lower_word]
    rfl
  have hbody : j.body ++ ps = ⟨.blank, j.source.table.word⟩ ::
      (aliasPieces j.source.alias? ++ onPiece :: (j.condition ++ ps)) := by
    simp [Join.body, Source.pieces]
  rw [hbody]
  refine hread _ ?_
  rw [Join.wordBehind, Join.behindWord]
  rcases j.source.alias? with _ | ⟨_ | _, a⟩
  · exact skipAs_of_ne (w := onPiece.word) (by decide) _
  · exact skipAs_of_ne (w := a.word) (a.isFree "as" (by decide)) _
  · exact skipAs_as _

/-! ## All joins -/

/-- **What is read at the keyword of a join** is read at every join and nowhere else. -/
theorem everyAt_joins {β : Type} {f : List Char → Option (β × List Char)} (hf : AtWords f)
    (hother : ∀ w : Word, w.chars ≠ "join".toList → ∀ ps, f (w.chars ++ spell ps) = none)
    {answer : Join → β}
    (hjoin : ∀ j, ∃ read rest, j.body = read ++ rest ∧
      ∀ ps, f ("join".toList ++ spell (j.body ++ ps)) = some (answer j, spell (rest ++ ps)))
    (js : List Join) {ps : List Piece} (hps : ∀ p ∈ ps, p.word.chars ≠ "join".toList) :
    everyAt f 0 false (spell (js.flatMap Join.pieces ++ ps)) = js.map answer := by
  have hpass (qs : List Piece) (hqs : ∀ p ∈ qs, p.word.chars ≠ "join".toList) (rs : List Piece) :
      everyAt f 0 false (spell (qs ++ rs)) = everyAt f 0 false (spell rs) :=
    everyAt_append hf false (fun p hp => hother p.word (hqs p hp)) rs
  induction js with
  | nil =>
      have hend := hpass ps hps []
      rw [List.append_nil] at hend
      exact hend
  | cons j js ih =>
      obtain ⟨read, rest, hbody, hread⟩ := hjoin j
      have hside : ∀ p ∈ sidePieces j.side?, p.word.chars ≠ "join".toList := by
        rcases j.side? with _ | _ | _ | _ | _ <;> decide
      have hrest : ∀ p ∈ rest, p.word.chars ≠ "join".toList := fun p hp =>
        (uses_joinBody j).free (by decide) p (hbody ▸ List.mem_append_right read hp)
      have hpieces : (j :: js).flatMap Join.pieces ++ ps = sidePieces j.side? ++
          (keywordPiece "join" (by decide) :: read ++ (rest ++ (js.flatMap Join.pieces ++ ps))) := by
        simp [Join.pieces, hbody]
      have hfit := hread (js.flatMap Join.pieces ++ ps)
      rw [hbody, List.append_assoc] at hfit
      -- nothing fits in front of the keyword, nor behind what was read at it
      rw [hpieces, hpass _ hside, everyAt_cons_of_some hf false (x := answer j) hfit,
        hpass rest hrest, ih]
      rfl

namespace Statement

variable (s : Statement)

theorem uses_afterFrom : ∀ p ∈ s.afterFrom, p.word.chars ≠ "join".toList :=
  (s.uses_wherePart.both
    (s.uses_groupByPart.both (s.uses_orderByPart.both s.uses_limitPart))).free (by decide)

theorem uses_beforeJoins :
    ∀ p ∈ ⟨.star, .ofString "from" (by decide)⟩ :: listed Source.pieces (s.source :: s.sources),
      p.word.chars ≠ "join".toList := by
  have hsources : Uses ["as"] (listed Source.pieces (s.source :: s.sources)) :=
    uses_listed uses_source _
  have hfrom : Uses ["from"] [⟨.star, .ofString "from" (by decide)⟩] := uses_word .star (by decide)
  exact (hfrom.both hsources).free (by decide)

theorem pieces_eq : s.pieces =
    ⟨.star, .ofString "from" (by decide)⟩ :: listed Source.pieces (s.source :: s.sources) ++
      (s.joins.flatMap Join.pieces ++ s.afterFrom) := by
  rw [pieces, fromBody, List.append_assoc]
  rfl

/-- What is read at the keyword of a join is read at each join of a statement, in order. -/
theorem everyAt_normal {β : Type} {f : List Char → Option (β × List Char)} (hf : AtWords f)
    (hother : ∀ w : Word, w.chars ≠ "join".toList → ∀ ps, f (w.chars ++ spell ps) = none)
    {answer : Join → β}
    (hjoin : ∀ j, ∃ read rest, j.body = read ++ rest ∧
      ∀ ps, f ("join".toList ++ spell (j.body ++ ps)) = some (answer j, spell (rest ++ ps))) :
    everyAt f 0 false s.normal = s.joins.map answer := by
  have hstart : everyAt f 0 false (select.chars ++ spell s.pieces) =
      everyAt f 0 false (spell (⟨.blank, select⟩ :: s.pieces)) := by
    rw [spell_cons, everyAt_gap hf]
  have hselect : everyAt f 0 false (spell (⟨.blank, select⟩ :: s.pieces)) =
      everyAt f 0 false (spell s.pieces) :=
    everyAt_cons_of_none hf false (hother select (by decide) _)
  have hbefore := everyAt_append hf false
    (fun p hp => hother p.word (s.uses_beforeJoins p hp)) (s.joins.flatMap Join.pieces ++ s.afterFrom)
  rw [normal, hstart, hselect, pieces_eq, hbefore]
  exact everyAt_joins hf hother hjoin s.joins s.uses_afterFrom

/-- **The join pairs of a statement** are the columns of its joins. -/
theorem joinPairs_normal : joinPairs s.normal = s.joins.map Join.pair :=
  s.everyAt_normal (atWords_joinedTable plain_foldCase _)
    (fun _ hw ps => joinedTable_of_ne plain_foldCase _ hw ps)
    fun j => ⟨j.body, [], (List.append_nil _).symm, joinPair?_body j⟩

/-- **The join targets of a statement** are the tables of its joins. -/
theorem joinTargets_normal : joinTargets s.normal =
    s.joins.map fun j => (j.source.table.chars, some j.wordBehind.chars) := by
  refine s.everyAt_normal (atWords_joinedTable plain_foldCase _)
    (fun _ hw ps => joinedTable_of_ne plain_foldCase _ hw ps) fun j => ?_
  have hbody : ∃ read, j.body = read ++ j.behindWord := by
    rw [Join.body, Join.behindWord]
    cases j.source.alias? with
    | none => exact ⟨j.source.pieces .blank ++ [onPiece], by simp⟩
    | some a => exact ⟨j.source.pieces .blank, rfl⟩
  obtain ⟨read, hbody⟩ := hbody
  exact ⟨read, j.behindWord, hbody, joinTarget?_body j⟩

end Statement

/-! ## The condition of the first join -/

/-- The text of the condition of a join. -/
def Join.conditionText (j : Join) : List Char :=
  j.left.1.chars ++ '.' :: j.left.2.chars ++ " = ".toList ++
    j.right.1.chars ++ '.' :: j.right.2.chars

theorem spell_joinCondition (j : Join) : spell j.condition = ' ' :: j.conditionText := by
  simp [Join.condition, Join.conditionText, spell_cons, Gap.chars, Name.word]

namespace Statement

variable (s : Statement)

/-- The condition of the first join with the joins behind it, if there is one. -/
def joinConditionText? : Option (List Char) :=
  match s.joins with
  | [] => none
  | j :: js => some (j.conditionText ++ js.flatMap Join.text)

/-- The text behind `on` runs to the end of the FROM clause. -/
theorem fragment_condition (j : Join) (js : List Join) :
    (onKeyword id (spell (onPiece :: (j.condition ++ (js.flatMap Join.pieces ++ s.afterFrom))))).bind
      (fragment ["where", "group", "order", "limit"]) =
        some (j.conditionText ++ js.flatMap Join.text) := by
  have hfree : ∀ p ∈ j.condition ++ js.flatMap Join.pieces,
      ∀ k ∈ ["where", "group", "order", "limit"], p.word.chars ≠ k.toList := by
    have hcondition : Uses joinWords j.condition := fun p hp =>
      ((uses_joinBody j).mono (by decide)) p (List.mem_append_right _ (List.mem_cons_of_mem _ hp))
    exact (hcondition.append (uses_flatMap uses_join)).ne (by decide)
  have hclosing : ∀ k ∈ ["where", "group", "order", "limit"],
      k.toList ≠ [] ∧ ∀ c ∈ k.toList, isNameChar c = true := by decide
  obtain ⟨w, ps, hpieces⟩ : ∃ w ps, j.condition = ⟨.blank, w⟩ :: ps := ⟨_, _, rfl⟩
  have htext := spell_joinCondition j
  rw [hpieces] at hfree htext ⊢
  rw [spell_cons] at htext
  have htext : w.chars ++ spell ps = j.conditionText := (List.cons.inj htext).2
  have hrest : ∀ p ∈ ps ++ js.flatMap Join.pieces, ∀ k ∈ ["where", "group", "order", "limit"],
      p.word.chars ≠ k.toList := fun p hp => hfree p (List.mem_cons_of_mem _ hp)
  have hupTo := upTo_append hclosing hrest s.afterFrom
  rw [upTo_closed hclosing s.closedBy_afterFrom, List.append_nil, List.append_assoc,
    spell_append ps (js.flatMap Join.pieces), spell_joins] at hupTo
  rw [List.cons_append, onKeyword_on plain_id, Option.bind_some, ← htext, List.append_assoc, ← hupTo,
    ← upTo_word]
  cases hw : w.chars with
  | nil => exact absurd hw w.ne_nil
  | cons c cs => rfl

/-- **The join condition of a statement** is that of its first join. -/
theorem joinCondition_normal : joinCondition s.normal = s.joinConditionText? := by
  have hf : AtWords joinCondition? := atWords_joinedTable plain_id _
  have hother (w : Word) (hw : w.chars ≠ "join".toList) (ps : List Piece) :
      joinCondition? (w.chars ++ spell ps) = none := joinedTable_of_ne plain_id _ hw ps
  have hpass (qs : List Piece) (hqs : ∀ p ∈ qs, p.word.chars ≠ "join".toList) (rs : List Piece) :
      firstAt joinCondition? false (spell (qs ++ rs)) = firstAt joinCondition? false (spell rs) :=
    firstAt_append hf false (fun p hp => hother p.word (hqs p hp)) rs
  -- The first place that reads as a join is the first word join, so all before it is passed.
  rw [joinCondition, normal, firstAt_word hf, hother select (by decide), Option.none_or, pieces_eq,
    hpass _ s.uses_beforeJoins, joinConditionText?]
  cases s.joins with
  | nil =>
      have hend := hpass _ s.uses_afterFrom []
      rw [List.append_nil] at hend
      exact hend
  | cons j js =>
      have hside : ∀ p ∈ sidePieces j.side?, p.word.chars ≠ "join".toList := by
        rcases j.side? with _ | _ | _ | _ | _ <;> decide
      have hpieces : (j :: js).flatMap Join.pieces ++ s.afterFrom = sidePieces j.side? ++
          (keywordPiece "join" (by decide) :: ⟨.blank, j.source.table.word⟩ ::
            (aliasPieces j.source.alias? ++
              onPiece :: (j.condition ++ (js.flatMap Join.pieces ++ s.afterFrom)))) := by
        simp [Join.pieces, Join.body, Source.pieces]
      have hread : joinCondition? ("join".toList ++ spell (⟨.blank, j.source.table.word⟩ ::
          (aliasPieces j.source.alias? ++
            onPiece :: (j.condition ++ (js.flatMap Join.pieces ++ s.afterFrom))))) =
              some (j.conditionText ++ js.flatMap Join.text) := by
        have hnone : (onKeyword id (spell (j.condition ++
            (js.flatMap Join.pieces ++ s.afterFrom)))).bind
              (fragment ["where", "group", "order", "limit"]) = none := by
          have hleft : onKeyword id (spell (j.condition ++
              (js.flatMap Join.pieces ++ s.afterFrom))) = none :=
            onKeyword_of_ne plain_id (j.left.1.isFree "on" (by decide)) _
          rw [hleft]
          rfl
        simp only [joinCondition?, joinedTable_join plain_id, bind, Option.bind_some]
        exact pastAlias_spell plain_id j.source.alias? (s.fragment_condition j js) hnone
      rw [hpieces, hpass _ hside, firstAt_cons hf]
      exact congrArg (Option.or · _) hread

end Statement

end IndexAdvisor.Sql
