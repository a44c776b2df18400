import IndexAdvisor.Proofs.Sql.Spacing

/-!
# Statements in different layouts

Two statements that differ in nothing but the lengths and kinds of their runs of blanks, the case of
their ASCII letters, and what stands around them, have the same features; the texts of their clauses
differ in their spacing alone.
-/

set_option autoImplicit false

namespace IndexAdvisor.Sql

open IndexAdvisor.Text

/-! ## Clauses -/

section Clauses

variable {ws closing : List String} {k : String} {ks : List String}

theorem anyWordAhead_collapse (hws : ∀ w ∈ ws, Unspaced w) (cs : List Char) :
    anyWordAhead ws (collapse cs) = anyWordAhead ws cs := by
  induction ws with
  | nil => rfl
  | cons w ws ih =>
      have hcons (cs : List Char) : anyWordAhead (w :: ws) cs =
          (((exactly w cs).bind wordEnd).isSome || anyWordAhead ws cs) := rfl
      have hword := ((passes_exactly (hws w List.mem_cons_self)).bind passes_wordEnd).isSome cs
      have hmore := ih fun v hv => hws v (List.mem_cons_of_mem w hv)
      rw [hcons, hcons, hword, hmore]

/-- No clause ends within a run of blanks. -/
theorem blankAhead_upTo {cs : List Char} (h : anyWordAhead ws (cs.dropWhile isBlank) = false) :
    blankAhead (upTo ws cs) = blankAhead cs := by
  cases cs with
  | nil => rfl
  | cons c cs =>
      cases hc : isBlank c with
      | true =>
          rw [List.dropWhile_cons_of_pos hc] at h
          rw [upTo, h, Bool.and_false]
          rfl
      | false =>
          rw [upTo, hc]
          rfl

theorem upTo_collapse (hws : ∀ w ∈ ws, Unspaced w) (cs : List Char) :
    upTo ws (collapse cs) = collapse (upTo ws cs) := by
  induction cs with
  | nil => rfl
  | cons c cs ih =>
      have hahead : anyWordAhead ws ((collapse cs).dropWhile isBlank) =
          anyWordAhead ws (cs.dropWhile isBlank) := by
        rw [dropWhile_collapse, anyWordAhead_collapse hws]
      cases hc : isBlank c with
      | false =>
          have hstep (cs : List Char) : upTo ws (c :: cs) = c :: upTo ws cs := by
            rw [upTo, hc, Bool.false_and, if_neg Bool.false_ne_true]
          rw [collapse_cons hc, hstep, hstep, ih, collapse_cons hc]
      | true =>
          -- a closing word behind the run ends the clause in front of the whole run
          cases hclosed : anyWordAhead ws (cs.dropWhile isBlank) with
          | true =>
              have hrun : anyWordAhead ws ((collapse (cs.dropWhile isBlank)).dropWhile isBlank) =
                  true := by
                rw [← dropWhile_collapse,
                  dropWhile_of_not_blankAhead (not_blankAhead_dropWhile _), hahead, hclosed]
              rw [collapse_blank hc, upTo, upTo, hrun, hclosed, hc]
              rfl
          | false =>
              have hrest := blankAhead_upTo hclosed
              rw [upTo, hclosed, Bool.and_false, if_neg Bool.false_ne_true]
              cases hcs : blankAhead cs with
              | true => rw [collapse_within hc hcs, collapse_within hc (hrest.trans hcs), ih]
              | false =>
                  rw [collapse_last hc hcs, collapse_last hc (hrest.trans hcs), upTo, hahead,
                    hclosed, Bool.and_false, if_neg Bool.false_ne_true, ih]

theorem fragment_eq (ws : List String) (cs : List Char) :
    fragment ws cs = if cs.isEmpty then none else some (upTo ws cs) := by
  cases cs <;> rfl

theorem passes_fragment (hws : ∀ w ∈ ws, Unspaced w) : Passes (fragment ws) := by
  intro cs
  rw [fragment_eq, fragment_eq, isEmpty_collapse, upTo_collapse hws]
  cases cs.isEmpty <;> rfl

theorem passes_keyword (hws : ∀ w ∈ ws, Unspaced w) : Passes (keyword ws) := by
  induction ws with
  | nil => exact fun _ => rfl
  | cons w ws ih =>
      have hw := passes_exactly (hws w List.mem_cons_self)
      cases ws with
      | nil => exact hw
      | cons v ws =>
          exact (hw.bind passes_blanks).bind (ih fun u hu => hws u (List.mem_cons_of_mem w hu))

/-- No keyword begins at a blank. -/
theorem beginsInWord_keyword (hk : k.toList ≠ []) (hu : Unspaced k) (ks : List String) :
    BeginsInWord (keyword (k :: ks)) := by
  obtain ⟨a, w, hkey⟩ := List.exists_cons_of_ne_nil hk
  have ha : isBlank a = false := hu a (hkey ▸ List.mem_cons_self)
  have hfirst : BeginsInWord (exactly k) := by
    show BeginsInWord (letters id k.toList)
    rw [hkey]
    exact beginsInWord_letters keepsBlanks_id ha w
  cases ks with
  | nil => exact hfirst
  | cons v ks => exact (hfirst.bind blanks).bind (keyword (v :: ks))

theorem passes_clause (hk : k.toList ≠ []) (hks : ∀ w ∈ k :: ks, Unspaced w)
    (hclosing : ∀ w ∈ closing, Unspaced w) : Passes (clause (k :: ks) closing) := fun _ =>
  firstAt_collapse
    (((passes_keyword hks).bind passes_blanks).bind (passes_fragment hclosing))
    (((beginsInWord_keyword hk (hks k List.mem_cons_self) ks).bind blanks).bind (fragment closing))
    (Or.inr rfl)

theorem mentions_collapse (hk : k.toList ≠ []) (hks : ∀ w ∈ k :: ks, Unspaced w) (cs : List Char) :
    mentions (k :: ks) (collapse cs) = mentions (k :: ks) cs := by
  have hfirst := firstAt_collapse ((passes_keyword hks).bind passes_wordEnd)
    ((beginsInWord_keyword hk (hks k List.mem_cons_self) ks).bind wordEnd)
    (Or.inr rfl : blankAhead cs = true ∨ false = false)
  rw [mentions, hfirst, Option.isSome_map, mentions]

end Clauses

/-! ## Joins -/

section Joins

variable {fold : Char → Char} {β : Type} {ψ : β → β} {ρ : β → List Char}

theorem reads_joinedTable (hfold : KeepsBlanks fold) : Reads (joinedTable fold) :=
  (passes_letters hfold (by decide)).bind (passes_blanks.bind (reads_name hfold))

theorem advances_joinedTable : Advances Prod.snd (joinedTable fold) :=
  (advances_letters 'j' "oin".toList).bind (leaves_blanks.bind ends_name)

theorem beginsInWord_joinedTable (hfold : KeepsBlanks fold) : BeginsInWord (joinedTable fold) :=
  (beginsInWord_letters hfold (by decide : isBlank 'j' = false) "oin".toList).bind _

theorem carries_pastAlias (hfold : KeepsBlanks fold) {tail : List Char → Option β}
    (htail : Carries collapse ψ tail) : Carries collapse ψ (pastAlias fold tail) := by
  have hnamed : Carries collapse ψ fun cs => (name fold cs).bind fun r => tail r.2 :=
    (reads_name hfold).bind fun _ => htail
  have has : Carries collapse ψ fun cs => (blanks cs).bind fun cs =>
      (letters fold "as".toList cs).bind fun cs => (blanks cs).bind fun cs =>
        (name fold cs).bind fun r => tail r.2 :=
    passes_blanks.bind ((passes_letters hfold (by decide)).bind (passes_blanks.bind hnamed))
  exact has.orElse ((passes_blanks.bind hnamed).orElse htail)

theorem leaves_pastAlias {tail : List Char → Option β} (htail : Leaves id ρ tail) :
    Leaves id ρ (pastAlias fold tail) := by
  have hnamed : Leaves id ρ fun cs => (name fold cs).bind fun r => tail r.2 :=
    ends_name.bind fun _ => htail
  have has : Leaves id ρ fun cs => (blanks cs).bind fun cs =>
      (letters fold "as".toList cs).bind fun cs => (blanks cs).bind fun cs =>
        (name fold cs).bind fun r => tail r.2 :=
    leaves_blanks.bind ((leaves_letters _).bind (leaves_blanks.bind hnamed))
  exact has.orElse ((leaves_blanks.bind hnamed).orElse htail)

theorem passes_onKeyword (hfold : KeepsBlanks fold) : Passes (onKeyword fold) :=
  passes_blanks.bind ((passes_letters hfold (by decide)).bind passes_blanks)

theorem leaves_onKeyword : Leaves id id (onKeyword fold) :=
  leaves_blanks.bind ((leaves_letters _).bind leaves_blanks)

theorem reads_columnRef : Reads columnRef := by
  have hcolumn (table : List Char) :
      Reads fun cs => (name foldCase cs).bind fun r => some ((table, r.1), r.2) :=
    (reads_name keepsBlanks_foldCase).bind fun column => reads_answer (table, column)
  exact (reads_name keepsBlanks_foldCase).bind fun table =>
    (passes_char (by decide : isBlank '.' = false)).bind (hcolumn table)

theorem ends_columnRef : Ends columnRef := by
  have hcolumn (table : List Char) :
      Ends fun cs => (name foldCase cs).bind fun r => some ((table, r.1), r.2) :=
    ends_name.bind fun column => ends_answer (table, column)
  exact ends_name.bind fun table => (leaves_char '.').bind (hcolumn table)

/-- The pair of two columns that have been read. -/
def pairOf (left right : List Char × List Char) : JoinPair :=
  ⟨String.ofList (lower left.1), String.ofList (lower left.2), String.ofList (lower right.1),
    String.ofList (lower right.2)⟩

theorem equality_eq (cs : List Char) : equality cs = (onKeyword foldCase cs).bind fun cs =>
    (columnRef cs).bind fun l => (char '=' (l.2.dropWhile isBlank)).bind fun cs =>
      (columnRef (cs.dropWhile isBlank)).bind fun r => some (pairOf l.1 r.1, r.2) := rfl

theorem reads_equality : Reads equality := by
  have hright (left : List Char × List Char) : Reads fun cs =>
      (columnRef (cs.dropWhile isBlank)).bind fun r => some (pairOf left r.1, r.2) :=
    Reads.bind reads_columnRef.pastBlanks fun right => reads_answer (pairOf left right)
  have hsign : Passes fun cs => char '=' (cs.dropWhile isBlank) :=
    (passes_char (by decide)).pastBlanks
  exact (passes_onKeyword keepsBlanks_foldCase).bind <|
    reads_columnRef.bind fun left => hsign.bind (hright left)

theorem ends_equality : Ends equality := by
  have hright (left : List Char × List Char) : Ends fun cs =>
      (columnRef (cs.dropWhile isBlank)).bind fun r => some (pairOf left r.1, r.2) :=
    Ends.bind ends_columnRef.pastBlanks fun right => ends_answer (pairOf left right)
  have hsign : Leaves id id fun cs => char '=' (cs.dropWhile isBlank) :=
    (leaves_char '=').pastBlanks
  exact leaves_onKeyword.bind (ends_columnRef.bind fun left => hsign.bind (hright left))

theorem reads_joinPair? : Reads joinPair? :=
  (reads_joinedTable keepsBlanks_foldCase).bind fun _ =>
    carries_pastAlias keepsBlanks_foldCase reads_equality

theorem joinPairs_collapse (cs : List Char) : joinPairs (collapse cs) = joinPairs cs :=
  everyAt_collapse reads_joinPair? ((beginsInWord_joinedTable keepsBlanks_foldCase).bind _)
    (advances_joinedTable.bind fun _ _ h => leaves_pastAlias ends_equality h) cs

theorem skipAs_collapse (cs : List Char) : skipAs (collapse cs) = collapse (skipAs cs) := by
  have has : Passes (anyCase "as") := passes_anyCase (by decide)
  have hread : ((blanks (collapse cs)).bind (anyCase "as")).bind wordEnd =
      (((blanks cs).bind (anyCase "as")).bind wordEnd).map collapse :=
    ((passes_blanks.bind has).bind passes_wordEnd) cs
  rw [skipAs, skipAs, hread]
  cases ((blanks cs).bind (anyCase "as")).bind wordEnd <;> rfl

theorem skipAs_suffix (cs : List Char) : skipAs cs <:+ cs := by
  rw [skipAs]
  split
  · rename_i rest h
    exact ((leaves_blanks.bind (leaves_letters _)).bind leaves_wordEnd) h
  · exact List.suffix_rfl

/-- The word behind a joined table and the rest, for a table that has been read. -/
def targetWord (r : List Char × List Char) :
    Option ((List Char × Option (List Char)) × List Char) :=
  match (blanks (skipAs r.2)).bind (name foldCase) with
  | some (word, rest) => some ((lower r.1, some (lower word)), rest)
  | none => some ((lower r.1, none), skipAs r.2)

theorem joinTarget?_eq (cs : List Char) :
    joinTarget? cs = (joinedTable foldCase cs).bind targetWord := rfl

theorem carries_targetWord : Carries respaced respaced targetWord := by
  rintro ⟨table, cs⟩
  have hword : (blanks (collapse (skipAs cs))).bind (name foldCase) =
      ((blanks (skipAs cs)).bind (name foldCase)).map respaced :=
    (passes_blanks.bind (reads_name keepsBlanks_foldCase)) (skipAs cs)
  rw [targetWord, targetWord, respaced, skipAs_collapse, hword]
  cases (blanks (skipAs cs)).bind (name foldCase) <;> rfl

theorem leaves_targetWord : Leaves Prod.snd Prod.snd targetWord := by
  rintro ⟨table, cs⟩ r h
  rw [targetWord] at h
  split at h
  · rename_i word rest hword
    rw [← Option.some.inj h]
    exact ((leaves_blanks.bind ends_name) hword).trans (skipAs_suffix cs)
  · rw [← Option.some.inj h]
    exact skipAs_suffix cs

theorem joinTargets_collapse (cs : List Char) : joinTargets (collapse cs) = joinTargets cs := by
  have hreads : Reads joinTarget? :=
    Carries.bind (reads_joinedTable keepsBlanks_foldCase) carries_targetWord
  exact everyAt_collapse hreads ((beginsInWord_joinedTable keepsBlanks_foldCase).bind _)
    (advances_joinedTable.bind leaves_targetWord) cs

theorem passes_joinCondition : Passes joinCondition := fun _ =>
  firstAt_collapse
    ((reads_joinedTable keepsBlanks_id).bind fun _ => carries_pastAlias keepsBlanks_id <|
      (passes_onKeyword keepsBlanks_id).bind (passes_fragment (by decide)))
    ((beginsInWord_joinedTable keepsBlanks_id).bind _) (Or.inr rfl)

end Joins

/-! ## Conditions -/

section Conditions

theorem passes_connective : Passes connective := by
  have hword : Passes fun cs => anyCase "and" cs <|> anyCase "or" cs :=
    (passes_anyCase (by decide)).orElse (passes_anyCase (by decide))
  exact passes_blanks.bind (hword.bind passes_blanks)

theorem advances_connective : Advances id connective := by
  have hword : Leaves id id fun cs => anyCase "and" cs <|> anyCase "or" cs :=
    (leaves_letters _).orElse (leaves_letters _)
  exact advances_blanks.bind (hword.bind leaves_blanks)

/-- A connective begins with the whole run of blanks or with a part of it. -/
theorem connective_blank {c : Char} (hc : isBlank c = true) {cs : List Char}
    (hcs : blankAhead cs = true) : connective (c :: cs) = connective cs := by
  cases cs with
  | nil => cases hcs
  | cons d cs =>
      have hd : isBlank d = true := hcs
      rw [connective, connective, blanks, blanks, if_pos hc, if_pos hd,
        List.dropWhile_cons_of_pos hd]

theorem connective_of_not_blankAhead {cs : List Char} (hcs : blankAhead cs = false) :
    connective cs = none := by
  cases cs with
  | nil => rfl
  | cons c cs => exact connective_of_not_blank hcs cs

/-- Behind a connective the next condition begins. -/
theorem conditionsFrom_of_connective {c : Char} {cs rest : List Char}
    (h : connective (c :: cs) = some rest) :
    conditionsFrom 0 (c :: cs) = ([], (conditionsFrom 0 rest).1 :: (conditionsFrom 0 rest).2) := by
  obtain ⟨read, hread⟩ := advances_connective h
  have hlength : cs.length - rest.length = read.length := by
    rw [← hread, List.length_append]
    exact Nat.add_sub_cancel _ _
  rw [conditionsFrom_zero_cons, h]
  show ([], (conditionsFrom (cs.length - rest.length) cs).1 ::
    (conditionsFrom (cs.length - rest.length) cs).2) = _
  rw [hlength, ← hread]
  exact congrArg (fun r : List Char × List (List Char) => (([] : List Char), r.1 :: r.2))
    (conditionsFrom_skip read rest)

/-- Where no connective is read the condition goes on as the text does. -/
theorem blankAhead_conditionsFrom {cs : List Char} (h : connective cs = none) :
    blankAhead (conditionsFrom 0 cs).1 = blankAhead cs := by
  cases cs with
  | nil => rfl
  | cons c cs =>
      rw [conditionsFrom_cons h]
      rfl

/-- The conditions of a text, each respaced, are those of the respaced text. -/
theorem conditionsFrom_collapse (cs : List Char) : conditionsFrom 0 (collapse cs) =
    (collapse (conditionsFrom 0 cs).1, (conditionsFrom 0 cs).2.map collapse) := by
  -- by the length of the text: a connective is passed over as a whole
  match cs with
  | [] => rfl
  | c :: cs =>
      cases hread : connective (c :: cs) with
      | some rest =>
          have hshorter : rest.length ≤ cs.length := (advances_connective hread).length_le
          have ih := conditionsFrom_collapse rest
          cases hc : isBlank c with
          | false =>
              rw [connective_of_not_blank hc] at hread
              cases hread
          | true =>
              have hcarried : connective (' ' :: collapse (cs.dropWhile isBlank)) =
                  some (collapse rest) := by
                rw [← collapse_blank hc, passes_connective, hread]
                rfl
              rw [conditionsFrom_of_connective hread, collapse_blank hc,
                conditionsFrom_of_connective hcarried, ih]
              rfl
      | none =>
          have ih := conditionsFrom_collapse cs
          rw [conditionsFrom_cons hread]
          cases hc : isBlank c with
          | false =>
              rw [collapse_cons hc, conditionsFrom_cons (connective_of_not_blank hc _), ih,
                collapse_cons hc]
          | true =>
              cases hcs : blankAhead cs with
              | true =>
                  have hnext := blankAhead_conditionsFrom ((connective_blank hc hcs).symm.trans hread)
                  rw [collapse_within hc hcs, ih, collapse_within hc (hnext.trans hcs)]
              | false =>
                  have hnext := blankAhead_conditionsFrom (connective_of_not_blankAhead hcs)
                  have hcarried : connective (' ' :: collapse cs) = none := by
                    rw [← collapse_last hc hcs, passes_connective, hread]
                    rfl
                  rw [collapse_last hc hcs, conditionsFrom_cons hcarried, ih,
                    collapse_last hc (hnext.trans hcs)]
termination_by cs.length

theorem conditions_collapse (cs : List Char) :
    conditions (collapse cs) = (conditions cs).map collapse := by
  rw [conditions, conditions, conditionsFrom_collapse]
  rfl

theorem symbolOperator_collapse (cs : List Char) :
    symbolOperator (collapse cs) = symbolOperator cs := by
  have hunspaced (op : Operator) : Unspaced op.text := by cases op <;> decide
  rw [symbolOperator, symbolOperator]
  refine congrArg (List.find? · _) (funext fun op => ?_)
  rw [passes_exactly (hunspaced op) cs]
  rcases exactly op.text cs with _ | _ | ⟨c, rest⟩
  · rfl
  · rfl
  · have hrest := isEmpty_collapse (c :: rest)
    rw [Option.map_some]
    cases h : collapse (c :: rest) with
    | nil =>
        rw [h] at hrest
        cases hrest
    | cons d ds => rfl

/-- The word operator that ends before `rest`, if something follows it. -/
def endedOperator (start rest : List Char) : Option Operator :=
  (wordEnd rest).bind fun
    | [] => none
    | _ :: _ => Operator.ofText? (start.take (start.length - rest.length))

/-- A word that has been read holds no blank, so it is the same in the respaced text. -/
theorem endedOperator_collapse {read : List Char} (hread : ∀ c ∈ read, isBlank c = false)
    (rest : List Char) : endedOperator (collapse (read ++ rest)) (collapse rest) =
      endedOperator (read ++ rest) rest := by
  have htake (cs : List Char) : (read ++ cs).take ((read ++ cs).length - cs.length) = read := by
    rw [List.length_append, Nat.add_sub_cancel, List.take_left]
  rw [endedOperator, endedOperator, passes_wordEnd, collapse_append hread, htake, htake]
  rcases wordEnd rest with _ | _ | ⟨c, cs⟩
  · rfl
  · rfl
  · have hrest := isEmpty_collapse (c :: cs)
    rw [Option.map_some, Option.bind_some]
    cases h : collapse (c :: cs) with
    | nil =>
        rw [h] at hrest
        cases hrest
    | cons d ds => rfl

theorem carries_wordOperator : Carries collapse id wordOperator := by
  have hlike : ∀ c ∈ "like".toList, isBlank c = false := by decide
  have hin : ∀ c ∈ "in".toList, isBlank c = false := by decide
  have hword : Passes fun cs => anyCase "like" cs <|> anyCase "in" cs :=
    (passes_anyCase hlike).orElse (passes_anyCase hin)
  refine passes_blanks.bind fun start => ?_
  have hstart : (anyCase "like" (collapse start) <|> anyCase "in" (collapse start)) =
      (anyCase "like" start <|> anyCase "in" start).map collapse := hword start
  show (anyCase "like" (collapse start) <|> anyCase "in" (collapse start)).bind
    (endedOperator (collapse start)) = ((anyCase "like" start <|> anyCase "in" start).bind
      (endedOperator start)).map id
  rw [hstart, Option.map_id]
  cases h : (anyCase "like" start <|> anyCase "in" start) with
  | none => rfl
  | some rest =>
      -- the operator is told by its letters, so what has been read has to stay as it is
      have hparts : ∃ read, start = read ++ rest ∧ ∀ c ∈ read, isBlank c = false := by
        cases hl : anyCase "like" start with
        | some r =>
            rw [hl] at h
            exact exists_of_letters keepsBlanks_foldCase hlike (hl.trans h)
        | none =>
            rw [hl] at h
            exact exists_of_letters keepsBlanks_foldCase hin h
      obtain ⟨read, rfl, hread⟩ := hparts
      exact endedOperator_collapse hread rest

theorem carries_comparison : Carries collapse id comparison := by
  have hsymbol : Carries collapse id symbolOperator := fun cs => by
    rw [symbolOperator_collapse, Option.map_id]
    rfl
  exact hsymbol.pastBlanks.orElse carries_wordOperator

theorem qualified_collapse (cs : List Char) :
    qualified (collapse cs) = respaced (qualified cs) := by
  have hread : (char '.' (collapse cs)).bind (name foldCase) =
      ((char '.' cs).bind (name foldCase)).map respaced :=
    ((passes_char (by decide)).bind (reads_name keepsBlanks_foldCase)) cs
  rw [qualified, qualified, hread]
  cases (char '.' cs).bind (name foldCase) <;> rfl

/-- The predicate of a column whose first name has been read. -/
def predicateOf (first : List Char) (cs : List Char) : Option Predicate :=
  (comparison (qualified cs).2).bind fun operator =>
    match (qualified cs).1 with
    | some column => some ⟨some (String.ofList (lower first)), String.ofList (lower column), operator⟩
    | none => some ⟨none, String.ofList (lower first), operator⟩

theorem predicate?_eq (cs : List Char) : predicate? cs =
    (name foldCase (((cs.dropWhile isBlank).dropWhile (· == '(')).dropWhile isBlank)).bind
      fun r => predicateOf r.1 r.2 := rfl

theorem carries_predicateOf (first : List Char) : Carries collapse id (predicateOf first) := by
  intro cs
  rw [predicateOf, predicateOf, qualified_collapse, respaced, carries_comparison, Option.map_id,
    Option.map_id]
  rfl

theorem predicate?_collapse (cs : List Char) : predicate? (collapse cs) = predicate? cs := by
  have hopen : ∀ c, isBlank c = true → (c == '(') = false := fun _ hc =>
    forall_isBlank (P := fun c => (c == '(') = false) (by decide +kernel) hc
  have hname : Carries collapse id fun cs =>
      (name foldCase cs).bind fun r => predicateOf r.1 r.2 :=
    (reads_name keepsBlanks_foldCase).bind carries_predicateOf
  rw [predicate?_eq, predicate?_eq, dropWhile_collapse, (span_collapse hopen _).2,
    dropWhile_collapse]
  exact (hname _).trans (congrFun Option.map_id _)

theorem predicates_collapse (cs : List Char) : predicates (collapse cs) = predicates cs := by
  rw [predicates, conditions_collapse, List.filterMap_map, predicates]
  exact congrArg (List.filterMap · _) (funext predicate?_collapse)

end Conditions

/-! ## Entries -/

section Entries

theorem filterMap_splitOn_collapse {β : Type} {f : List Char → Option β}
    (hf : ∀ cs, f (collapse cs) = f cs) (cs : List Char) :
    ((collapse cs).splitOn ',').filterMap f = (cs.splitOn ',').filterMap f := by
  rw [splitOn_collapse (by decide), List.filterMap_map]
  exact congrArg (List.filterMap · _) (funext hf)

theorem entryTables_collapse (cs : List Char) : entryTables (collapse cs) = entryTables cs :=
  filterMap_splitOn_collapse (fun _ => by rw [entryTable?, entryTable?, words_collapse]) cs

theorem orderColumns_collapse (cs : List Char) :
    ((collapse cs).splitOn ',').filterMap orderColumn? = (cs.splitOn ',').filterMap orderColumn? :=
  filterMap_splitOn_collapse (fun _ => by rw [orderColumn?, orderColumn?, words_collapse]) cs

theorem clauseBindings_collapse (fromText : Option (List Char)) (cs : List Char) :
    clauseBindings (fromText.map collapse) (collapse cs) = clauseBindings fromText cs := by
  have htargets := joinTargets_collapse cs
  cases fromText with
  | none => exact congrArg (List.map targetBinding) htargets
  | some t =>
      have hentries : ((collapse t).splitOn ',').filterMap (fun e => entryBinding? (words e)) =
          (t.splitOn ',').filterMap fun e => entryBinding? (words e) :=
        filterMap_splitOn_collapse (fun _ => by rw [words_collapse]) t
      show ((collapse t).splitOn ',').filterMap (fun e => entryBinding? (words e)) ++
        (joinTargets (collapse cs)).map targetBinding = _
      rw [hentries, htargets]
      rfl

end Entries

/-! ## Features -/

section Features

theorem fromClause_collapse (cs : List Char) :
    fromClause (collapse cs) = (fromClause cs).map collapse :=
  passes_clause (by decide) (by decide) (by decide) cs

theorem whereClause_collapse (cs : List Char) :
    whereClause (collapse cs) = (whereClause cs).map collapse :=
  passes_clause (by decide) (by decide) (by decide) cs

theorem orderByClause_collapse (cs : List Char) :
    orderByClause (collapse cs) = (orderByClause cs).map collapse :=
  passes_clause (by decide) (by decide) (by decide) cs

theorem groupByClause_collapse (cs : List Char) :
    groupByClause (collapse cs) = (groupByClause cs).map collapse :=
  passes_clause (by decide) (by decide) (by decide) cs

/-- A text with each run of blanks written as one space, ASCII letters in lower case, and neither
blanks in front nor blanks and semicolons at the end. -/
def plainForm (cs : List Char) : List Char :=
  dropEndWhile closes (((collapse cs).map Char.toLower).dropWhile isBlank)

theorem dropEndWhile_dropEndWhile {p q : Char → Bool} (hpq : ∀ c, p c = true → q c = true)
    (cs : List Char) : dropEndWhile q (dropEndWhile p cs) = dropEndWhile q cs := by
  induction cs with
  | nil => rfl
  | cons c cs ih =>
      rw [dropEndWhile_cons p, dropEndWhile_cons q c cs]
      split
      · rename_i hdropped
        rw [Bool.and_eq_true] at hdropped
        rw [List.isEmpty_iff.mp hdropped.2] at ih
        rw [← ih, hpq c hdropped.1]
        rfl
      · rw [dropEndWhile_cons q, ih]

theorem closes_of_isBlank {c : Char} (hc : isBlank c = true) : closes c = true := by
  rw [closes, hc, Bool.or_true]

theorem dropEndWhile_closes_trim (cs : List Char) :
    dropEndWhile closes (trim cs) = dropEndWhile closes (cs.dropWhile isBlank) :=
  dropEndWhile_dropEndWhile (fun _ => closes_of_isBlank) _

/-- What is read of a statement is, up to spacing, its plain form in lower case. -/
theorem collapse_normalize (cs : List Char) :
    collapse (normalize cs) = lower (plainForm cs) := by
  show collapse (lower (dropEndWhile closes (trim cs))) = _
  rw [← lower_collapse, dropEndWhile_closes_trim,
    ← dropEndWhile_collapse (fun _ => closes_of_isBlank), ← dropWhile_collapse, plainForm,
    ← dropEndWhile_closes_trim, ← dropEndWhile_closes_trim, ← map_toLower_trim,
    lower_map_toLower]

/-- The same features but for the spacing of the texts. -/
structure SameButSpacing (f g : Features) : Prop where
  tables : f.tables = g.tables
  hasJoin : f.hasJoin = g.hasJoin
  hasWhere : f.hasWhere = g.hasWhere
  hasOrderBy : f.hasOrderBy = g.hasOrderBy
  hasGroupBy : f.hasGroupBy = g.hasGroupBy
  predicates : f.predicates = g.predicates
  joinPairs : f.joinPairs = g.joinPairs
  orderColumns : f.orderColumns = g.orderColumns
  resolveTable : f.resolveTable = g.resolveTable
  whereText : collapse f.whereText.toList = collapse g.whereText.toList
  orderByText : collapse f.orderByText.toList = collapse g.orderByText.toList
  groupByText : collapse f.groupByText.toList = collapse g.groupByText.toList
  joinConditionText : collapse f.joinConditionText.toList = collapse g.joinConditionText.toList

/-- A text that is there, or a phrase in its place. -/
theorem collapse_getD {t t' : Option (List Char)} (h : t.map collapse = t'.map collapse)
    (missing : String) : collapse ((t.map String.ofList).getD missing).toList =
      collapse ((t'.map String.ofList).getD missing).toList := by
  cases t with
  | none =>
      cases t' with
      | none => rfl
      | some cs' => cases h
  | some cs =>
      cases t' with
      | none => cases h
      | some cs' => simpa only [Option.map_some, Option.getD_some, String.toList_ofList] using
          Option.some.inj h

/-- What is read of a clause is the same if it can be read of the respaced clause. -/
theorem getD_map_of_collapse {β : Type} {t t' : Option (List Char)}
    (h : t.map collapse = t'.map collapse) {f : List Char → β} (hf : ∀ cs, f (collapse cs) = f cs)
    (missing : β) : (t.map f).getD missing = (t'.map f).getD missing := by
  have hread (t : Option (List Char)) : (t.map collapse).map f = t.map f := by
    rw [Option.map_map]
    exact congrArg (Option.map · t) (funext hf)
  rw [← hread t, h, hread t']

/-- **Layout and letter case do not matter.** Statements with one plain form have the same tables,
clauses, predicates, join pairs, ordering columns and names of tables, and the texts of their
clauses differ in their spacing alone. -/
theorem features_of_plainForm {s t : String} (h : plainForm s.toList = plainForm t.toList) :
    SameButSpacing (features s) (features t) := by
  -- all features are read of the normal form, and each reader is blind to its spacing
  have hq : collapse (normalize s.toList) = collapse (normalize t.toList) := by
    rw [collapse_normalize, collapse_normalize, h]
  have hclause {f : List Char → Option (List Char)} (hf : Passes f) :
      (f (normalize s.toList)).map collapse = (f (normalize t.toList)).map collapse := by
    rw [← hf, ← hf, hq]
  have hread {β : Type} {f : List Char → β} (hf : ∀ cs, f (collapse cs) = f cs) :
      f (normalize s.toList) = f (normalize t.toList) := by
    rw [← hf, hq, hf]
  have hmentions {k : String} {ks : List String} (hk : k.toList ≠ [])
      (hks : ∀ w ∈ k :: ks, Unspaced w) :
      mentions (k :: ks) (normalize s.toList) = mentions (k :: ks) (normalize t.toList) :=
    hread (mentions_collapse hk hks)
  have hfrom := hclause fromClause_collapse
  have horder := hclause orderByClause_collapse
  have hwhere := hclause whereClause_collapse
  have htables := getD_map_of_collapse hfrom entryTables_collapse []
  have haliases : Aliases.ofClauses (fromClause (normalize s.toList)) (normalize s.toList) =
      Aliases.ofClauses (fromClause (normalize t.toList)) (normalize t.toList) := by
    rw [Aliases.ofClauses, ← clauseBindings_collapse, hfrom, hq, clauseBindings_collapse]
    rfl
  exact
    { tables := by
        show (if List.isEmpty _ then _ else _) = _
        rw [htables]
        rfl
      hasJoin := hmentions (by decide) (by decide)
      hasWhere := hmentions (by decide) (by decide)
      hasOrderBy := hmentions (by decide) (by decide)
      hasGroupBy := hmentions (by decide) (by decide)
      predicates := getD_map_of_collapse hwhere predicates_collapse []
      joinPairs := hread joinPairs_collapse
      orderColumns :=
        congrArg (List.map String.ofList) (getD_map_of_collapse horder orderColumns_collapse [])
      resolveTable := funext fun q => congrArg (Aliases.resolve · q) haliases
      whereText := collapse_getD hwhere _
      orderByText := collapse_getD horder _
      groupByText := collapse_getD (hclause groupByClause_collapse) _
      joinConditionText := collapse_getD (hclause passes_joinCondition) _ }

/-- One statement over several lines and in capitals, and on one line. -/
theorem features_of_plainForm_lines :
    let s := "SELECT *\n  FROM Orders o\tJOIN users AS u\n    ON o.user_id  =  u.id\n WHERE o.x > 1 ;\n"
    let t := " select * from orders O join USERS as u on O.user_id = u.id where o.x > 1"
    plainForm s.toList = plainForm t.toList ∧ SameButSpacing (features s) (features t) := by
  intro s t
  have hforms : plainForm s.toList = plainForm t.toList := by decide +kernel
  exact ⟨hforms, features_of_plainForm hforms⟩

end Features

end IndexAdvisor.Sql
