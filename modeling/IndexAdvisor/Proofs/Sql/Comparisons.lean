import IndexAdvisor.Proofs.Sql.Connectives

/-!
# Comparisons with a run of signs

A condition that compares a column with a value by a run of the characters `<`, `>`, `=` and `!`.
The operator that is read is the longest one the run begins with; what is left of the run goes with
the value. So a run that is no operator is dropped only if it does not begin with one either.
-/

set_option autoImplicit false

namespace IndexAdvisor.Sql

open IndexAdvisor.Text

/-! ## Conditions without words behind one another -/

section Cutting

variable {cs : List Char}

/-- The condition goes on over blanks if no connective is read behind them. -/
theorem conditionsFrom_blanks {g : List Char} (hg : ∀ c ∈ g, isBlank c = true)
    (hcs : blankAhead cs = false)
    (hnone : ((anyCase "and" cs <|> anyCase "or" cs).bind blanks) = none) :
    conditionsFrom 0 (g ++ cs) = (g ++ (conditionsFrom 0 cs).1, (conditionsFrom 0 cs).2) := by
  induction g with
  | nil => rfl
  | cons c g ih =>
      have hread : blanks (c :: g ++ cs) = some cs :=
        blanks_eq_some_iff.mpr ⟨c :: g, ⟨List.cons_ne_nil c g, hg⟩, rfl, hcs⟩
      have hconnective : connective (c :: (g ++ cs)) = none := by
        rw [connective_eq, ← List.cons_append, hread]
        exact hnone
      rw [List.cons_append, conditionsFrom_cons hconnective,
        ih fun d hd => hg d (List.mem_cons_of_mem c hd)]
      rfl

/-- No connective is read where no blank follows. -/
theorem connective_solid (hcs : ∀ c ∈ cs, isBlank c = false) :
    ((anyCase "and" cs <|> anyCase "or" cs).bind blanks) = none := by
  rw [Option.eq_none_iff_forall_ne_some]
  intro rest h
  obtain ⟨mid, hword, hgap⟩ := Option.bind_eq_some_iff.mp h
  obtain ⟨w, -, rfl⟩ := anyCase_connective_iff.mp hword
  obtain ⟨g, hg, rfl, -⟩ := blanks_eq_some_iff.mp hgap
  obtain ⟨c, g, rfl⟩ := List.exists_cons_of_ne_nil hg.1
  have hsolid := hcs c (List.mem_append_right w List.mem_cons_self)
  have hblank := hg.2 c List.mem_cons_self
  rw [hsolid] at hblank
  cases hblank

end Cutting

/-! ## Runs of signs -/

/-- The characters that the symbol operators are made of. -/
def comparisonSigns : List Char := ['<', '>', '=', '!']

/-- The operators that are written in signs, in the order in which they are tried. -/
def symbolOperators : List Operator := [.ge, .le, .ne, .eq, .gt, .lt]

/-- The operator is read and something is left for the value. -/
def leavesValue (cs : List Char) (op : Operator) : Bool :=
  match exactly op.text cs with
  | some (_ :: _) => true
  | _ => false

theorem symbolOperator_eq (cs : List Char) :
    symbolOperator cs = symbolOperators.find? (leavesValue cs) := rfl

/-- The operator is the longest one that the run begins with. -/
def Leads (op : Operator) (run : List Char) : Prop :=
  op.text.toList <+: run ∧
    ∀ op' : Operator, op'.text.toList <+: run → op'.text.length ≤ op.text.length

section Runs

variable {run tail : List Char} {op : Operator}

theorem isBlank_sign {c : Char} (hc : c ∈ comparisonSigns) : isBlank c = false :=
  (by decide : ∀ c ∈ comparisonSigns, isBlank c = false) c hc

theorem text_injective {op op' : Operator} (h : op.text.toList = op'.text.toList) : op = op' := by
  have hread := Operator.ofText?_text op
  rw [h, Operator.ofText?_text] at hread
  exact (Option.some.inj hread).symm

/-- A run of signs begins with no other operators than those written in signs. -/
theorem mem_symbolOperators (hrun : ∀ c ∈ run, c ∈ comparisonSigns)
    (h : op.text.toList <+: run) : op ∈ symbolOperators := by
  have hsigns : ∀ c ∈ op.text.toList, c ∈ comparisonSigns := fun c hc => hrun c (h.subset hc)
  have hwritten : ∀ op ∈ Operator.all, (∀ c ∈ op.text.toList, c ∈ comparisonSigns) →
      op ∈ symbolOperators := by decide
  exact hwritten op (Operator.mem_all op) hsigns

/-- An operator in signs is read of a run with something behind it if the run begins with it. -/
theorem leavesValue_iff (htail : tail ≠ []) (hhead : ∀ c ∈ tail.head?, c ∉ comparisonSigns)
    (hop : op ∈ symbolOperators) :
    leavesValue (run ++ tail) op = true ↔ op.text.toList <+: run := by
  have hsigns : ∀ op ∈ symbolOperators, ∀ c ∈ op.text.toList, c ∈ comparisonSigns := by decide
  rw [leavesValue]
  constructor
  · intro h
    split at h
    · rename_i c rest hread
      rcases List.append_eq_append_iff.mp (exactly_eq_some_iff.mp hread) with
        ⟨x, hx, htext⟩ | ⟨x, hx, -⟩
      · cases x with
        | nil => exact ⟨[], by rw [List.append_nil, hx, List.append_nil]⟩
        | cons d x =>
            -- the operator does not reach beyond the run
            have hd : d ∈ op.text.toList := hx ▸ List.mem_append_right run List.mem_cons_self
            exact absurd (hsigns op hop d hd) (hhead d (by rw [htext]; rfl))
      · exact ⟨x, hx.symm⟩
    · cases h
  · rintro ⟨x, rfl⟩
    have hread : exactly op.text (op.text.toList ++ x ++ tail) = some (x ++ tail) :=
      exactly_eq_some_iff.mpr (List.append_assoc _ _ _)
    obtain ⟨c, rest, hrest⟩ :=
      List.exists_cons_of_ne_nil (List.append_ne_nil_of_right_ne_nil x htail)
    rw [hread, hrest]

/-- Longer operators are tried first. -/
theorem leads_of_symbolOperator (hrun : ∀ c ∈ run, c ∈ comparisonSigns) (htail : tail ≠ [])
    (hhead : ∀ c ∈ tail.head?, c ∉ comparisonSigns) (h : symbolOperator (run ++ tail) = some op) :
    Leads op run := by
  rw [symbolOperator_eq] at h
  have hmem := List.mem_of_find?_eq_some h
  obtain ⟨hfits, tried, untried, hlist, htried⟩ := List.find?_eq_some_iff_append.mp h
  refine ⟨(leavesValue_iff htail hhead hmem).mp hfits, fun op' hop' => ?_⟩
  have hmem' := mem_symbolOperators hrun hop'
  have hsorted : symbolOperators.Pairwise fun a b => b.text.length ≤ a.text.length := by decide
  rw [hlist, List.pairwise_append] at hsorted
  rcases List.mem_append.mp (hlist ▸ hmem') with hbefore | hbehind
  · have hmiss := htried op' hbefore
    rw [(leavesValue_iff htail hhead hmem').mpr hop'] at hmiss
    cases hmiss
  · rcases List.mem_cons.mp hbehind with rfl | hbehind
    · exact Nat.le_refl _
    · exact (List.pairwise_cons.mp hsorted.2.1).1 op' hbehind

/-- A run begins with one longest operator at most. -/
theorem Leads.unique {op' : Operator} (h : Leads op run) (h' : Leads op' run) : op = op' := by
  have hlength : op.text.toList.length = op'.text.toList.length := by
    rw [String.length_toList, String.length_toList]
    exact Nat.le_antisymm (h'.2 op h.1) (h.2 op' h'.1)
  have hfront := List.prefix_of_prefix_length_le h.1 h'.1 (Nat.le_of_eq hlength)
  exact text_injective (hfront.eq_of_length hlength)

/-- **The operator of a run** is the longest one that the run begins with. -/
theorem symbolOperator_run (hrun : ∀ c ∈ run, c ∈ comparisonSigns) (htail : tail ≠ [])
    (hhead : ∀ c ∈ tail.head?, c ∉ comparisonSigns) :
    symbolOperator (run ++ tail) = some op ↔ Leads op run := by
  refine ⟨leads_of_symbolOperator hrun htail hhead, fun h => ?_⟩
  have hmem := mem_symbolOperators hrun h.1
  have hsome : (symbolOperator (run ++ tail)).isSome :=
    List.find?_isSome.mpr ⟨op, hmem, (leavesValue_iff htail hhead hmem).mpr h.1⟩
  obtain ⟨found, hfound⟩ := Option.isSome_iff_exists.mp hsome
  rw [hfound, h.unique (leads_of_symbolOperator hrun htail hhead hfound)]

/-- A run of signs begins with no operator exactly if its first sign is a lone `!`. -/
theorem forall_not_prefix_iff (hne : run ≠ []) (hrun : ∀ c ∈ run, c ∈ comparisonSigns) :
    (∀ op : Operator, ¬op.text.toList <+: run) ↔
      run.head? = some '!' ∧ ¬Operator.ne.text.toList <+: run := by
  constructor
  · intro h
    refine ⟨?_, h .ne⟩
    obtain ⟨c, run, rfl⟩ := List.exists_cons_of_ne_nil hne
    have hsingle (op : Operator) (hop : op.text.toList = [c]) : False :=
      h op ⟨run, by rw [hop]; rfl⟩
    have hc := hrun c List.mem_cons_self
    simp only [comparisonSigns, List.mem_cons, List.not_mem_nil, or_false] at hc
    rcases hc with rfl | rfl | rfl | rfl
    · exact (hsingle .lt rfl).elim
    · exact (hsingle .gt rfl).elim
    · exact (hsingle .eq rfl).elim
    · rfl
  · rintro ⟨hhead, hnot⟩ op hop
    obtain ⟨run, rfl⟩ : ∃ more, run = '!' :: more := by
      cases run with
      | nil => cases hhead
      | cons c run => exact ⟨run, congrArg (· :: run) (Option.some.inj hhead)⟩
    -- no other operator begins with this sign
    have hother : ∀ op ∈ Operator.all, op ≠ .ne → op.text.toList.head? ≠ some '!' := by decide
    have hfirst : op.text.toList.head? = some '!' := by
      have hnonempty : ∀ op ∈ Operator.all, op.text.toList ≠ [] := by decide
      obtain ⟨c, text, htext⟩ := List.exists_cons_of_ne_nil (hnonempty op (Operator.mem_all op))
      rw [htext] at hop ⊢
      rw [(List.cons_prefix_cons.mp hop).1]
      rfl
    by_cases hne : op = .ne
    · exact hnot (hne ▸ hop)
    · exact hother op (Operator.mem_all op) hne hfirst

end Runs

/-! ## Comparisons -/

/-- A column, a run of signs and a value, with blanks or nothing between them. -/
structure Comparison where
  table? : Option Word
  column : Word
  before : List Char
  run : List Char
  behind : List Char
  value : List Char
  before_blank : ∀ c ∈ before, isBlank c = true
  run_ne_nil : run ≠ []
  run_signs : ∀ c ∈ run, c ∈ comparisonSigns
  behind_blank : ∀ c ∈ behind, isBlank c = true
  value_ne_nil : value ≠ []
  value_solid : ∀ c ∈ value, isBlank c = false
  /-- The run ends where the value begins. -/
  value_head : ∀ c ∈ value.head?, c ∉ comparisonSigns

namespace Comparison

variable (c : Comparison)

/-- The value with the blanks in front of it. -/
def tail : List Char := c.behind ++ c.value

/-- The column as it is written. -/
def front : List Char :=
  match c.table? with
  | none => c.column.chars
  | some t => t.chars ++ '.' :: c.column.chars

/-- The text of the condition. -/
def text : List Char := c.front ++ (c.before ++ (c.run ++ c.tail))

/-- The predicate that compares the column with an operator. -/
def predicate (op : Operator) : Predicate where
  table := c.table?.map fun t => String.ofList t.chars
  column := String.ofList c.column.chars
  operator := op

theorem tail_ne_nil : c.tail ≠ [] := List.append_ne_nil_of_right_ne_nil _ c.value_ne_nil

theorem tail_head : ∀ d ∈ c.tail.head?, d ∉ comparisonSigns := by
  intro d hd
  cases hbehind : c.behind with
  | nil => exact c.value_head d (by rwa [tail, hbehind] at hd)
  | cons b bs =>
      rw [tail, hbehind] at hd
      obtain rfl : b = d := Option.some.inj hd
      intro hsign
      have hblank := c.behind_blank b (hbehind ▸ List.mem_cons_self)
      rw [isBlank_sign hsign] at hblank
      cases hblank

/-- No blank is ahead of the run, and no letter. -/
theorem exists_run : ∃ d more, c.run ++ c.tail = d :: more ∧ d ∈ comparisonSigns := by
  obtain ⟨d, run, hrun⟩ := List.exists_cons_of_ne_nil c.run_ne_nil
  exact ⟨d, run ++ c.tail, by rw [hrun]; rfl, c.run_signs d (hrun ▸ List.mem_cons_self)⟩

theorem isBlank_front : ∀ d ∈ c.front, isBlank d = false := by
  have hword (w : Word) : ∀ d ∈ w.chars, isBlank d = false := fun d hd =>
    isBlank_of_isNameChar (w.isNameChar_of_mem d hd)
  rw [front]
  cases c.table? with
  | none => exact hword c.column
  | some t =>
      intro d hd
      rcases List.mem_append.mp hd with hd | hd
      · exact hword t d hd
      · rcases List.mem_cons.mp hd with rfl | hd
        · rfl
        · exact hword c.column d hd

/-- A comparison is one condition, whatever its column and its value are called. -/
theorem conditions_text : conditions c.text = [c.text] := by
  obtain ⟨d, more, hmore, hd⟩ := c.exists_run
  have hletter : ∀ d ∈ comparisonSigns, foldCase d ≠ 'a' ∧ foldCase d ≠ 'o' := by decide
  have hnone : ((anyCase "and" (c.run ++ c.tail) <|> anyCase "or" (c.run ++ c.tail)).bind blanks) =
      none := by
    have hand : anyCase "and" (d :: more) = none := if_neg (hletter d hd).1
    have hor : anyCase "or" (d :: more) = none := if_neg (hletter d hd).2
    rw [hmore, hand, hor]
    rfl
  have hahead : blankAhead (c.run ++ c.tail) = false := by
    rw [hmore]
    exact isBlank_sign hd
  have hvalue : blankAhead c.value = false := by
    obtain ⟨v, vs, hv⟩ := List.exists_cons_of_ne_nil c.value_ne_nil
    rw [hv]
    exact c.value_solid v (hv ▸ List.mem_cons_self)
  have hlast : conditionsFrom 0 c.value = (c.value, []) := by
    have hsolid := conditionsFrom_solid c.value_solid []
    rw [List.append_nil] at hsolid
    rw [hsolid]
    exact congrArg (·, []) (List.append_nil c.value)
  rw [conditions, text, conditionsFrom_solid c.isBlank_front,
    conditionsFrom_blanks c.before_blank hahead hnone,
    conditionsFrom_solid fun d hd => isBlank_sign (c.run_signs d hd), tail,
    conditionsFrom_blanks c.behind_blank hvalue (connective_solid c.value_solid), hlast]

theorem dropWhile_isBlank_run :
    (c.before ++ (c.run ++ c.tail)).dropWhile isBlank = c.run ++ c.tail := by
  obtain ⟨d, more, hmore, hd⟩ := c.exists_run
  refine (span_append c.before_blank fun e he => ?_).2
  rw [hmore] at he
  obtain rfl : d = e := Option.some.inj he
  exact isBlank_sign hd

/-- No operator in letters is read where the run stands. -/
theorem wordOperator_run : wordOperator (c.before ++ (c.run ++ c.tail)) = none := by
  obtain ⟨d, more, hmore, hd⟩ := c.exists_run
  have hletter : ∀ d ∈ comparisonSigns, foldCase d ≠ 'l' ∧ foldCase d ≠ 'i' := by decide
  have hlike : anyCase "like" (d :: more) = none := if_neg (hletter d hd).1
  have hin : anyCase "in" (d :: more) = none := if_neg (hletter d hd).2
  rw [wordOperator]
  cases hgap : blanks (c.before ++ (c.run ++ c.tail)) with
  | none => rfl
  | some start =>
      have hstart : start = d :: more := by
        rw [← hmore, ← c.dropWhile_isBlank_run]
        obtain ⟨g, hg, htext, hrest⟩ := blanks_eq_some_iff.mp hgap
        rw [htext]
        exact (span_append hg.2 fun e he => by
          cases start with
          | nil => cases he
          | cons b start =>
              obtain rfl : b = e := Option.some.inj he
              exact hrest).2.symm
      show (anyCase "like" start <|> anyCase "in" start).bind _ = none
      rw [hstart, hlike, hin]
      rfl

/-- The operator of a comparison is the one in signs. -/
theorem comparison_run :
    comparison (c.before ++ (c.run ++ c.tail)) = symbolOperator (c.run ++ c.tail) := by
  rw [comparison, c.dropWhile_isBlank_run, c.wordOperator_run]
  cases symbolOperator (c.run ++ c.tail) <;> rfl

/-- No name and no point goes on behind the column. -/
theorem exists_behind_column : ∃ d more, c.before ++ (c.run ++ c.tail) = d :: more ∧
    isNameChar (foldCase d) = false ∧ d ≠ '.' := by
  cases hbefore : c.before with
  | nil =>
      obtain ⟨d, more, hmore, hd⟩ := c.exists_run
      exact ⟨d, more, hmore, (by decide : ∀ d ∈ comparisonSigns,
        isNameChar (foldCase d) = false ∧ d ≠ '.') d hd⟩
  | cons b bs =>
      have hblank := c.before_blank b (hbefore ▸ List.mem_cons_self)
      exact ⟨b, _, rfl, forall_isBlank
        (P := fun b => isNameChar (foldCase b) = false ∧ b ≠ '.') (by decide +kernel) hblank⟩

theorem endsName_behind_column : EndsName foldCase (c.before ++ (c.run ++ c.tail)) := by
  obtain ⟨d, more, hmore, hd, -⟩ := c.exists_behind_column
  intro e he
  rw [hmore] at he
  obtain rfl : d = e := Option.some.inj he
  exact hd

theorem qualified_behind_column : qualified (c.before ++ (c.run ++ c.tail)) =
    (none, c.before ++ (c.run ++ c.tail)) := by
  obtain ⟨d, more, hmore, -, hd⟩ := c.exists_behind_column
  have hpoint : char '.' (d :: more) = none := if_neg hd
  rw [qualified, hmore, hpoint]
  rfl

/-- **A comparison is read** as its column with the operator that is read of the run. -/
theorem predicate?_text :
    predicate? c.text = (symbolOperator (c.run ++ c.tail)).map c.predicate := by
  have hname := name_word_append c.column c.endsName_behind_column
  cases htable : c.table? with
  | none =>
      have htext : c.text = c.column.chars ++ (c.before ++ (c.run ++ c.tail)) := by
        rw [text, front, htable]
      rw [htext, predicate?]
      simp only [dropOpening_word, hname, qualified_behind_column, comparison_run, lower_word, bind,
        Option.bind_some]
      cases symbolOperator (c.run ++ c.tail) with
      | none => rfl
      | some op => simp [predicate, htable]
  | some t =>
      have htext : c.text =
          t.chars ++ ('.' :: (c.column.chars ++ (c.before ++ (c.run ++ c.tail)))) := by
        rw [text, front, htable, List.append_assoc, List.cons_append]
      have hfirst : name foldCase
          (t.chars ++ ('.' :: (c.column.chars ++ (c.before ++ (c.run ++ c.tail))))) =
          some (t.chars, '.' :: (c.column.chars ++ (c.before ++ (c.run ++ c.tail)))) :=
        name_word_append t fun e he => by
          obtain rfl : '.' = e := Option.some.inj he
          rfl
      have hsecond : qualified ('.' :: (c.column.chars ++ (c.before ++ (c.run ++ c.tail)))) =
          (some c.column.chars, c.before ++ (c.run ++ c.tail)) := by
        have hpoint (cs : List Char) : char '.' ('.' :: cs) = some cs := rfl
        rw [qualified, hpoint, Option.bind_some, hname]
      rw [htext, predicate?]
      simp only [dropOpening_word, hfirst, hsecond, comparison_run, lower_word, bind,
        Option.bind_some]
      cases symbolOperator (c.run ++ c.tail) with
      | none => rfl
      | some op => simp [predicate, htable]

theorem predicates_text :
    predicates c.text = ((symbolOperator (c.run ++ c.tail)).map c.predicate).toList := by
  rw [predicates, c.conditions_text, List.filterMap_cons, predicate?_text]
  cases (symbolOperator (c.run ++ c.tail)).map c.predicate <;> rfl

theorem ofText?_run {op : Operator} :
    Operator.ofText? c.run = some op ↔ op.text.toList = c.run := by
  have hlower : c.run.map Char.toLower = c.run := by
    have hself : ∀ d ∈ comparisonSigns, d.toLower = d := by decide
    exact (List.map_congr_left fun d hd => hself d (c.run_signs d hd)).trans (List.map_id' _)
  constructor
  · intro h
    have hfound := List.find?_some h
    rw [hlower] at hfound
    exact eq_of_beq hfound
  · intro h
    rw [← h, Operator.ofText?_text]

/-- **The operator of a comparison.** For every column, qualified or not, every run of signs and
every value without blanks, with any blanks between them: the predicate that is read has just this
column and the longest operator that the run begins with, and there is none only if the run begins
with a `!` that no `=` follows. So the predicate has the operator that the run spells, or is missing
where the run spells none, exactly if the run spells one or begins with none. -/
theorem predicates_comparison :
    (∀ op, predicates c.text = [c.predicate op] ↔ Leads op c.run) ∧
    (predicates c.text = [] ↔ c.run.head? = some '!' ∧ ¬Operator.ne.text.toList <+: c.run) ∧
    (predicates c.text = ((Operator.ofText? c.run).map c.predicate).toList ↔
      (∃ op : Operator, op.text.toList = c.run) ∨
        c.run.head? = some '!' ∧ ¬Operator.ne.text.toList <+: c.run) := by
  have hread {op : Operator} : symbolOperator (c.run ++ c.tail) = some op ↔ Leads op c.run :=
    symbolOperator_run c.run_signs c.tail_ne_nil c.tail_head
  have hone (op : Operator) : predicates c.text = [c.predicate op] ↔ Leads op c.run := by
    rw [predicates_text, ← hread]
    cases symbolOperator (c.run ++ c.tail) with
    | none => exact iff_of_false nofun nofun
    | some found =>
        refine ⟨fun h => ?_, fun h => by rw [h]; rfl⟩
        exact congrArg some (congrArg Predicate.operator (List.cons.inj h).1)
  have hnone : predicates c.text = [] ↔
      c.run.head? = some '!' ∧ ¬Operator.ne.text.toList <+: c.run := by
    rw [← forall_not_prefix_iff c.run_ne_nil c.run_signs, predicates_text, Option.toList_eq_nil_iff,
      Option.map_eq_none_iff]
    constructor
    · intro h op hop
      have hmiss := List.find?_eq_none.mp h op (mem_symbolOperators c.run_signs hop)
      exact hmiss ((leavesValue_iff c.tail_ne_nil c.tail_head
        (mem_symbolOperators c.run_signs hop)).mpr hop)
    · intro h
      rw [Option.eq_none_iff_forall_ne_some]
      exact fun op hop => h op (hread.mp hop).1
  refine ⟨hone, hnone, ?_⟩
  rw [← hnone]
  cases hspelled : Operator.ofText? c.run with
  | none =>
      refine ⟨Or.inr, ?_⟩
      rintro (⟨op, hop⟩ | h)
      · rw [c.ofText?_run.mpr hop] at hspelled
        cases hspelled
      · exact h
  | some op =>
      have hop := c.ofText?_run.mp hspelled
      have hleads : Leads op c.run := by
        refine ⟨hop ▸ List.prefix_refl _, fun op' hop' => ?_⟩
        rw [← String.length_toList, ← String.length_toList, hop]
        exact hop'.length_le
      exact iff_of_true ((hone op).mpr hleads) (Or.inl ⟨op, hop⟩)

/-- A run that spells no operator may still be read as one. -/
theorem predicates_angles : ∃ c : Comparison, c.text = "a <> 1".toList ∧
    Operator.ofText? c.run = none ∧ predicates c.text = [⟨none, "a", .lt⟩] :=
  ⟨{ table? := none
     column := .ofString "a" (by decide)
     before := [' ']
     run := "<>".toList
     behind := [' ']
     value := ['1']
     before_blank := by decide
     run_ne_nil := by decide
     run_signs := by decide
     behind_blank := by decide
     value_ne_nil := by decide
     value_solid := by decide
     value_head := by decide }, by decide, by decide, by decide⟩

end Comparison

end IndexAdvisor.Sql
