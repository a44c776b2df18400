import IndexAdvisor.Proofs.Sql.Clauses

/-!
# The conditions of a plain statement

A WHERE text is cut at the words `and` and `or`, which no column is called, into the conditions that
were put together, and each of them is read as what it compares.
-/

set_option autoImplicit false

namespace IndexAdvisor.Text

/-- ASCII texts are lower-cased letter by letter. -/
theorem lower_of_ascii {cs : List Char} (h : ∀ c ∈ cs, c.toNat < 128) :
    lower cs = cs.map Char.toLower := by
  have hafter (before : List Char) : lowerAfter before cs = cs.map Char.toLower := by
    induction cs generalizing before with
    | nil => rfl
    | cons c cs ih =>
        have hc := h c List.mem_cons_self
        have hat : lowerAt before c cs = [c.toLower] := by
          rw [lowerAt, if_neg (by omega), if_neg (by omega), lowerChar, if_pos hc]
        rw [lowerAfter, hat, ih fun d hd => h d (List.mem_cons_of_mem c hd)]
        rfl
  exact hafter []

end IndexAdvisor.Text

namespace IndexAdvisor.Sql

open IndexAdvisor.Text

/-- A word is in lower case already. -/
theorem lower_word (w : Word) : lower w.chars = w.chars := by
  have hascii : ∀ c ∈ w.chars, c.toNat < 128 := fun c hc =>
    forall_isNameChar (P := fun c => c.toNat < 128) (by decide) (w.isNameChar_of_mem c hc)
  have hlower : ∀ c ∈ w.chars, c.toLower = c := fun c hc =>
    forall_isNameChar (P := fun c => c.toLower = c) (by decide) (w.isNameChar_of_mem c hc)
  rw [lower_of_ascii hascii]
  exact (List.map_congr_left hlower).trans (List.map_id' _)

/-! ## Cutting -/

theorem connective_eq (cs : List Char) : connective cs =
    (blanks cs).bind fun cs => (anyCase "and" cs <|> anyCase "or" cs).bind blanks := rfl

/-- No connective begins at a character that is no blank. -/
theorem connective_of_not_blank {c : Char} (hc : isBlank c = false) (cs : List Char) :
    connective (c :: cs) = none := by
  rw [connective, blanks, hc]
  rfl

/-- A word that is none is not read as a connective. -/
theorem connectiveWord_of_ne {w : Word} (hw : ∀ k ∈ ["and", "or"], w.chars ≠ k.toList)
    (ps : List Piece) : ((anyCase "and" (w.chars ++ spell ps) <|>
      anyCase "or" (w.chars ++ spell ps)).bind blanks) = none := by
  have hnone (k : String) (hk : k ∈ ["and", "or"]) (hletters : ∀ c ∈ k.toList, isNameChar c = true) :
      (anyCase k (w.chars ++ spell ps)).bind blanks = none :=
    (letters_bind plain_foldCase failsInWords_blanks hletters w.isNameChar_of_mem ps).trans
      (if_neg (hw k hk))
  have hand := hnone "and" (by decide) (by decide)
  cases h : anyCase "and" (w.chars ++ spell ps) with
  | none => exact hnone "or" (by decide) (by decide)
  | some rest =>
      rw [h] at hand
      exact hand

/-- Nor is one read where signs stand before such a word. -/
theorem connectiveWord_signs {w : Word} (hw : ∀ k ∈ ["and", "or"], w.chars ≠ k.toList)
    (ps : List Piece) {ss : List Char} (hss : ∀ d ∈ ss, isSign d = true) :
    ((anyCase "and" ((ss ++ (w.chars ++ spell ps)).dropWhile isBlank) <|>
      anyCase "or" ((ss ++ (w.chars ++ spell ps)).dropWhile isBlank)).bind blanks) = none := by
  induction ss with
  | nil =>
      rw [List.nil_append, dropWhile_isBlank_word]
      exact connectiveWord_of_ne hw ps
  | cons d ss ih =>
      -- a blank is passed over, any other sign is not the first letter of a connective
      rw [List.cons_append, List.dropWhile_cons]
      split
      · exact ih fun e he => hss e (List.mem_cons_of_mem d he)
      · have hd := hss d List.mem_cons_self
        have hnone (k : String) (hne : k.toList ≠ [])
            (hk : ∀ c ∈ k.toList, isNameChar c = true) (cs : List Char) :
            anyCase k (d :: cs) = none := by
          have hread : (letters foldCase k.toList (d :: cs)).bind some = none :=
            (atWords_letters plain_foldCase hne hk some).sign hd
          rwa [Option.bind_fun_some] at hread
        rw [hnone "and" (by decide) (by decide), hnone "or" (by decide) (by decide)]
        rfl

/-- Behind some signs no connective is read where the word is none. -/
theorem connective_signs {w : Word} (hw : ∀ k ∈ ["and", "or"], w.chars ≠ k.toList)
    (ps : List Piece) {c : Char} {ss : List Char} (hss : ∀ d ∈ ss, isSign d = true) :
    connective (c :: (ss ++ (w.chars ++ spell ps))) = none := by
  cases hc : isBlank c with
  | false => exact connective_of_not_blank hc _
  | true =>
      have hblanks (cs : List Char) : blanks (c :: cs) = some (cs.dropWhile isBlank) := by
        rw [blanks, hc, if_pos rfl]
      rw [connective_eq, hblanks, Option.bind_some]
      exact connectiveWord_signs hw ps hss

/-- At each character a connective begins or the condition goes on. -/
theorem conditionsFrom_zero_cons (c : Char) (cs : List Char) : conditionsFrom 0 (c :: cs) =
    match connective (c :: cs) with
    | some rest =>
      ([], (conditionsFrom (cs.length - rest.length) cs).1 ::
        (conditionsFrom (cs.length - rest.length) cs).2)
    | none => (c :: (conditionsFrom 0 cs).1, (conditionsFrom 0 cs).2) := by
  rfl

/-- What is no connective belongs to the condition. -/
theorem conditionsFrom_cons {c : Char} {cs : List Char} (h : connective (c :: cs) = none) :
    conditionsFrom 0 (c :: cs) = (c :: (conditionsFrom 0 cs).1, (conditionsFrom 0 cs).2) := by
  rw [conditionsFrom_zero_cons, h]

/-- The condition goes on where no blank stands. -/
theorem conditionsFrom_solid {front : List Char} (hfront : ∀ c ∈ front, isBlank c = false)
    (cs : List Char) : conditionsFrom 0 (front ++ cs) =
      (front ++ (conditionsFrom 0 cs).1, (conditionsFrom 0 cs).2) := by
  induction front with
  | nil => rfl
  | cons c front ih =>
      have hc := hfront c List.mem_cons_self
      rw [List.cons_append, conditionsFrom_cons (connective_of_not_blank hc _),
        ih fun d hd => hfront d (List.mem_cons_of_mem c hd)]
      rfl

theorem conditionsFrom_word (w : Word) (cs : List Char) :
    conditionsFrom 0 (w.chars ++ cs) =
      (w.chars ++ (conditionsFrom 0 cs).1, (conditionsFrom 0 cs).2) :=
  conditionsFrom_solid (fun c hc => isBlank_of_isNameChar (w.isNameChar_of_mem c hc)) cs

/-- Pieces without a connective belong to the condition. -/
theorem conditionsFrom_append {ps : List Piece}
    (hps : ∀ p ∈ ps, ∀ k ∈ ["and", "or"], p.word.chars ≠ k.toList) (qs : List Piece) :
    conditionsFrom 0 (spell (ps ++ qs)) =
      (spell ps ++ (conditionsFrom 0 (spell qs)).1, (conditionsFrom 0 (spell qs)).2) := by
  induction ps with
  | nil => rfl
  | cons p ps ih =>
      have hsigns (ss : List Char) (hss : ∀ d ∈ ss, isSign d = true) :
          conditionsFrom 0 (ss ++ (p.word.chars ++ spell (ps ++ qs))) =
            (ss ++ (conditionsFrom 0 (p.word.chars ++ spell (ps ++ qs))).1,
              (conditionsFrom 0 (p.word.chars ++ spell (ps ++ qs))).2) := by
        induction ss with
        | nil => rfl
        | cons c ss ihs =>
            have hrest : ∀ d ∈ ss, isSign d = true := fun d hd => hss d (List.mem_cons_of_mem c hd)
            rw [List.cons_append,
              conditionsFrom_cons (connective_signs (hps p List.mem_cons_self) (ps ++ qs) hrest),
              ihs hrest]
            rfl
      rw [List.cons_append, spell_cons, hsigns p.gap.chars isSign_of_mem_gap, conditionsFrom_word,
        ih fun q hq => hps q (List.mem_cons_of_mem p hq), spell_cons, List.append_assoc,
        List.append_assoc]

/-- What belongs to a connective is passed over. -/
theorem conditionsFrom_skip (read rest : List Char) :
    conditionsFrom read.length (read ++ rest) = conditionsFrom 0 rest := by
  induction read with
  | nil => rfl
  | cons c read ih => exact ih

/-- A connective ends the condition. -/
theorem conditionsFrom_connective (k : Connective) (w : Word) (ps : List Piece) :
    conditionsFrom 0 (spell (k.piece :: ⟨.blank, w⟩ :: ps)) =
      ([], (conditionsFrom 0 (w.chars ++ spell ps)).1 ::
        (conditionsFrom 0 (w.chars ++ spell ps)).2) := by
  have hread : connective (spell (k.piece :: ⟨.blank, w⟩ :: ps)) = some (w.chars ++ spell ps) := by
    have hblanks := blanks_spell_blank w ps
    have hself (k : String) (hk : ∀ c ∈ k.toList, foldCase c = c) (cs : List Char) :
        anyCase k (k.toList ++ cs) = some cs := letters_self foldCase hk cs
    cases k with
    | and =>
        have hk : blanks (spell (Connective.and.piece :: ⟨.blank, w⟩ :: ps)) =
          some ("and".toList ++ spell (⟨.blank, w⟩ :: ps)) := blanks_spell_blank _ _
        rw [connective_eq, hk, Option.bind_some, hself "and" (by decide)]
        exact hblanks
    | or =>
        have hk : blanks (spell (Connective.or.piece :: ⟨.blank, w⟩ :: ps)) =
          some ("or".toList ++ spell (⟨.blank, w⟩ :: ps)) := blanks_spell_blank _ _
        have hnone (cs : List Char) : anyCase "and" ("or".toList ++ cs) = none := rfl
        rw [connective_eq, hk, Option.bind_some, hnone, hself "or" (by decide)]
        exact hblanks
  have htext : spell (k.piece :: ⟨.blank, w⟩ :: ps) =
      ' ' :: ((k.piece.word.chars ++ [' ']) ++ (w.chars ++ spell ps)) := by
    cases k <;> rfl
  rw [htext] at hread ⊢
  rw [conditionsFrom_zero_cons, hread]
  -- the word and the blank behind it are passed over
  have hskip : ((k.piece.word.chars ++ [' ']) ++ (w.chars ++ spell ps)).length -
      (w.chars ++ spell ps).length = (k.piece.word.chars ++ [' ']).length := by
    rw [List.length_append, Nat.add_sub_cancel]
  simp only [hskip, conditionsFrom_skip]

/-- A condition begins with a word, and no connective stands in it. -/
theorem exists_condition_pieces (c : Condition) : ∃ w ps, c.pieces = ⟨.blank, w⟩ :: ps ∧
    w.chars ++ spell ps = c.text ∧ ∀ p ∈ ps, ∀ k ∈ ["and", "or"], p.word.chars ≠ k.toList := by
  obtain ⟨w, ps, h⟩ := exists_column_pieces .blank c.column
  have hpieces : c.pieces = ⟨.blank, w⟩ :: (ps ++ c.operator.pieces c.value.word) := by
    rw [Condition.pieces, h, List.cons_append]
  have hspell := spell_condition c
  have hfree : ∀ p ∈ c.pieces, ∀ k ∈ ["and", "or"], p.word.chars ≠ k.toList :=
    (uses_condition c).ne (by decide)
  rw [hpieces] at hspell hfree
  rw [spell_cons] at hspell
  exact ⟨w, _, hpieces, (List.cons.inj hspell).2, fun p hp => hfree p (List.mem_cons_of_mem _ hp)⟩

/-- The conditions behind the first one are cut off each at its connective. -/
theorem conditionsFrom_conditionsBehind (cs : List (Connective × Condition)) :
    conditionsFrom 0 (spell (conditionsBehind cs)) = ([], cs.map fun k => k.2.text) := by
  induction cs with
  | nil => rfl
  | cons k cs ih =>
      obtain ⟨k, c⟩ := k
      obtain ⟨w, ps, hpieces, htext, hfree⟩ := exists_condition_pieces c
      have hbehind : conditionsBehind ((k, c) :: cs) =
          k.piece :: ⟨.blank, w⟩ :: (ps ++ conditionsBehind cs) := by
        rw [conditionsBehind, List.flatMap_cons, hpieces]
        rfl
      rw [hbehind, conditionsFrom_connective, conditionsFrom_word,
        conditionsFrom_append hfree, ih,
        List.append_nil, htext]
      rfl

/-- **The conditions of a WHERE text** are the texts that were put together. -/
theorem conditions_text (c : Condition) (cs : List (Connective × Condition)) :
    conditions (c.text ++ cs.flatMap fun k => ' ' :: k.1.name.toList ++ ' ' :: k.2.text) =
      c.text :: cs.map fun k => k.2.text := by
  obtain ⟨w, ps, -, htext, hfree⟩ := exists_condition_pieces c
  have hfrom : conditionsFrom 0 (w.chars ++ spell (ps ++ conditionsBehind cs)) =
      (c.text, cs.map fun k => k.2.text) := by
    rw [conditionsFrom_word, conditionsFrom_append hfree, conditionsFrom_conditionsBehind,
      List.append_nil, htext]
  rw [← spell_conditionsBehind, ← htext, List.append_assoc, ← spell_append, conditions, hfrom]
  rw [htext]

/-! ## Reading -/

/-- The operator of a comparison is read, and some value behind it. -/
theorem comparison_pieces (op : Operator) (value : Word) :
    comparison (spell (op.pieces value)) = some op := by
  have htake (a b : List Char) : (a ++ b).take ((a ++ b).length - b.length) = a := by
    rw [List.length_append, Nat.add_sub_cancel, List.take_left]
  cases op with
  | like =>
      have hword : wordOperator (spell (Operator.like.pieces value)) =
          Operator.ofText? (("like".toList ++ spell [⟨.blank, value⟩]).take
            (("like".toList ++ spell [⟨.blank, value⟩]).length -
              (spell [⟨.blank, value⟩]).length)) := rfl
      have hsymbol : symbolOperator ((spell (Operator.like.pieces value)).dropWhile isBlank) =
          none := rfl
      rw [comparison, hsymbol, hword, htake]
      rfl
  | isIn =>
      have hword : wordOperator (spell (Operator.isIn.pieces value)) =
          Operator.ofText? (("in".toList ++ spell [⟨.blank, value⟩]).take
            (("in".toList ++ spell [⟨.blank, value⟩]).length -
              (spell [⟨.blank, value⟩]).length)) := rfl
      have hsymbol : symbolOperator ((spell (Operator.isIn.pieces value)).dropWhile isBlank) =
          none := rfl
      rw [comparison, hsymbol, hword, htake]
      rfl
  | eq => rfl
  | gt => rfl
  | lt => rfl
  | ge => rfl
  | le => rfl
  | ne => rfl

/-- What a condition compares. -/
def Condition.predicate (c : Condition) : Predicate where
  table := c.column.table?.map fun t => String.ofList t.chars
  column := String.ofList c.column.name.chars
  operator := c.operator

/-- Nothing is passed over in front of a word. -/
theorem dropWhile_word {p : Char → Bool} (hp : ∀ c, isNameChar c = true → p c = false) (w : Word)
    (cs : List Char) : (w.chars ++ cs).dropWhile p = w.chars ++ cs := by
  cases hw : w.chars with
  | nil => exact absurd hw w.ne_nil
  | cons c ds =>
      have hc := hp c (w.isNameChar_of_mem c (hw ▸ List.mem_cons_self))
      rw [List.cons_append, List.dropWhile_cons_of_neg (by rw [hc]; exact Bool.false_ne_true)]

/-- No blank and no parenthesis is passed over in front of a word. -/
theorem dropOpening_word (w : Word) (cs : List Char) :
    (((w.chars ++ cs).dropWhile isBlank).dropWhile (· == '(')).dropWhile isBlank =
      w.chars ++ cs := by
  have hparen : ∀ c, isNameChar c = true → (c == '(') = false := fun c hc =>
    forall_isNameChar (P := fun c => (c == '(') = false) (by decide) hc
  rw [dropWhile_isBlank_word, dropWhile_word hparen, dropWhile_isBlank_word]

/-- **A condition is read** as what it compares. -/
theorem predicate?_text (c : Condition) : predicate? c.text = some c.predicate := by
  obtain ⟨⟨t, n⟩, op, value⟩ := c
  have hops := spell_operator value.word op
  have hcompare := comparison_pieces op value.word
  -- a point behind the first name makes it the table
  cases t with
  | none =>
      have htext : Condition.text ⟨⟨none, n⟩, op, value⟩ =
          n.word.chars ++ spell (op.pieces value.word) := by
        rw [hops]
        simp [Condition.text, Column.text, Name.word, Digits.word]
      have hname := name_word plain_foldCase n.word (op.pieces value.word)
      have hqualified : qualified (spell (op.pieces value.word)) =
          (none, spell (op.pieces value.word)) := by
        rw [hops]
        rfl
      rw [htext, predicate?]
      simp only [dropOpening_word, hname, hqualified, hcompare, lower_word, bind, Option.bind_some]
      rfl
  | some t =>
      have htext : Condition.text ⟨⟨some t, n⟩, op, value⟩ =
          t.word.chars ++ spell (⟨.point, n.word⟩ :: op.pieces value.word) := by
        rw [spell_cons, hops]
        simp [Condition.text, Column.text, Gap.chars, Name.word, Digits.word]
      have hname := name_word plain_foldCase t.word (⟨.point, n.word⟩ :: op.pieces value.word)
      have hqualified : qualified (spell (⟨.point, n.word⟩ :: op.pieces value.word)) =
          (some n.word.chars, spell (op.pieces value.word)) := by
        have hcolumn := name_word plain_foldCase n.word (op.pieces value.word)
        have hpoint : char '.' (spell (⟨.point, n.word⟩ :: op.pieces value.word)) =
            some (n.word.chars ++ spell (op.pieces value.word)) := rfl
        rw [qualified, hpoint, Option.bind_some, hcolumn]
      rw [htext, predicate?]
      simp only [dropOpening_word, hname, hqualified, hcompare, lower_word, bind, Option.bind_some]
      rfl

namespace Statement

variable (s : Statement)

/-- What the conditions of a statement are read as, in order. -/
def predicates : List Predicate :=
  match s.conditions? with
  | none => []
  | some (c, cs) => c.predicate :: cs.map fun k => k.2.predicate

/-- **The predicates of a statement** are those of its conditions. -/
theorem predicates_whereText : (s.whereText?.map Sql.predicates).getD [] = s.predicates := by
  rw [whereText?, predicates]
  cases s.conditions? with
  | none => rfl
  | some c =>
      obtain ⟨c, cs⟩ := c
      have hothers : (cs.map fun k => k.2.text).filterMap predicate? =
          cs.map fun k => k.2.predicate := by
        rw [List.filterMap_map]
        exact (congrArg (List.filterMap · cs) (funext fun k => predicate?_text k.2)).trans
          (congrFun List.filterMap_eq_map' cs)
      show Sql.predicates (c.text ++ _) = _
      rw [Sql.predicates, conditions_text, List.filterMap_cons, predicate?_text]
      exact congrArg (c.predicate :: ·) hothers

end Statement

end IndexAdvisor.Sql
