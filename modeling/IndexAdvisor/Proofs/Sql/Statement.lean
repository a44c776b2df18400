import IndexAdvisor.Proofs.Sql.Pieces
import IndexAdvisor.Sql.Features

/-!
# Plain statements

The statements whose features are read exactly: tables with aliases, joins on equal columns,
conditions that compare a column with a number, groups, orderings and a limit. Names are plain words
that no clause begins or ends with. A statement is given with its text in lower case, and its text
is also given as pieces, which is the form that the readers are followed on.
-/

set_option autoImplicit false

namespace IndexAdvisor.Sql

/-! ## Names and numbers -/

/-- Words with a meaning of their own, which no table, alias or column is called. -/
def reservedWords : List String :=
  ["from", "where", "group", "by", "order", "limit", "having", "join", "on", "as", "and", "or",
   "like", "in", "asc", "desc", "nulls", "first", "last"] ++ nonAliasWords

/-- The name of a table, an alias or a column. -/
structure Name where
  chars : List Char
  isIdentifier : Sql.isIdentifier chars = true
  isFree : ∀ k ∈ reservedWords, chars ≠ k.toList

/-- The name that is spelled so. -/
def Name.ofString (s : String)
    (h : Sql.isIdentifier s.toList = true ∧ ∀ k ∈ reservedWords, s.toList ≠ k.toList) : Name :=
  ⟨s.toList, h.1, h.2⟩

/-- A natural number as it is written. -/
structure Digits where
  chars : List Char
  ne_nil : chars ≠ []
  isDigit_of_mem : ∀ c ∈ chars, c.isDigit = true

theorem Name.ne_nil (n : Name) : n.chars ≠ [] := by
  intro h
  have hn := n.isIdentifier
  rw [h] at hn
  cases hn

theorem Name.isNameChar_of_mem (n : Name) : ∀ c ∈ n.chars, Text.isNameChar c = true := by
  intro c hc
  have hn := n.isIdentifier
  cases hchars : n.chars with
  | nil => exact absurd hchars n.ne_nil
  | cons d ds =>
      rw [hchars] at hn hc
      rw [Sql.isIdentifier, Bool.and_eq_true] at hn
      rcases List.mem_cons.mp hc with rfl | hc
      · have hfirst := hn.1
        rw [Bool.or_eq_true] at hfirst
        simp only [Text.isNameChar, Bool.or_eq_true]
        exact hfirst.elim (fun h => Or.inl (Or.inl h)) Or.inr
      · exact List.all_eq_true.mp hn.2 c hc

/-- A name is a word. -/
def Name.word (n : Name) : Word := ⟨n.chars, n.ne_nil, n.isNameChar_of_mem⟩

/-- A number is a word. -/
def Digits.word (n : Digits) : Word where
  chars := n.chars
  ne_nil := n.ne_nil
  isNameChar_of_mem c hc := by
    simp only [Text.isNameChar, n.isDigit_of_mem c hc, Bool.or_true, Bool.true_or]

/-! ## Parts of statements -/

/-- A table and its alias, if it has one; `as` stands in front of the alias or not. -/
structure Source where
  table : Name
  alias? : Option (Bool × Name)

/-- The name under which a table is known. -/
def Source.visible (s : Source) : Name :=
  match s.alias? with
  | some (_, a) => a
  | none => s.table

/-- A column, with the name of its table in front or not. -/
structure Column where
  table? : Option Name
  name : Name

/-- The kinds of joins. -/
inductive Side where
  | inner
  | left
  | right
  | full

/-- A join on two equal columns. -/
structure Join where
  side? : Option Side
  source : Source
  left : Name × Name
  right : Name × Name

/-- A column compared with a number. -/
structure Condition where
  column : Column
  operator : Operator
  value : Digits

/-- What stands between two conditions. -/
inductive Connective where
  | and
  | or

/-- A column that rows are ordered by, its direction, and where nulls are put. -/
structure OrderKey where
  column : Column
  /-- Downward or upward, if it is said. -/
  descends? : Option Bool
  /-- Last or first, if it is said. -/
  nullsLast? : Option Bool

/-- A plain statement. -/
structure Statement where
  source : Source
  /-- The tables behind the first one. -/
  sources : List Source
  joins : List Join
  /-- The first condition, and the others with what stands before each. -/
  conditions? : Option (Condition × List (Connective × Condition))
  groupBy : List Column
  orderBy : List OrderKey
  limit? : Option Digits
  /-- A semicolon stands at the end. -/
  isClosed : Bool

/-! ## Texts -/

def Source.text (s : Source) : List Char :=
  s.table.chars ++
    match s.alias? with
    | none => []
    | some (true, a) => " as ".toList ++ a.chars
    | some (false, a) => ' ' :: a.chars

def Column.text (c : Column) : List Char :=
  match c.table? with
  | none => c.name.chars
  | some t => t.chars ++ '.' :: c.name.chars

def Side.name : Side → String
  | inner => "inner"
  | left => "left"
  | right => "right"
  | full => "full"

def Join.text (j : Join) : List Char :=
  (match j.side? with
    | none => []
    | some side => ' ' :: side.name.toList) ++
  " join ".toList ++ j.source.text ++ " on ".toList ++
    j.left.1.chars ++ '.' :: j.left.2.chars ++ " = ".toList ++
    j.right.1.chars ++ '.' :: j.right.2.chars

def Condition.text (c : Condition) : List Char :=
  c.column.text ++ ' ' :: c.operator.text.toList ++ ' ' :: c.value.chars

def Connective.name : Connective → String
  | and => "and"
  | or => "or"

def OrderKey.text (k : OrderKey) : List Char :=
  k.column.text ++
    (match k.descends? with
      | none => []
      | some false => " asc".toList
      | some true => " desc".toList) ++
    match k.nullsLast? with
    | none => []
    | some false => " nulls first".toList
    | some true => " nulls last".toList

/-- The text of a clause behind its keyword, unless there is none. -/
def behind (keyword : String) : Option (List Char) → List Char
  | none => []
  | some t => keyword.toList ++ t

namespace Statement

variable (s : Statement)

/-- The tables and aliases of the FROM clause. -/
def sourcesText : List Char := ", ".toList.intercalate ((s.source :: s.sources).map Source.text)

/-- The FROM clause, joins included. -/
def fromText : List Char := s.sourcesText ++ s.joins.flatMap Join.text

/-- The WHERE clause, if there is one. -/
def whereText? : Option (List Char) :=
  s.conditions?.map fun c => c.1.text ++
    c.2.flatMap fun k => ' ' :: k.1.name.toList ++ ' ' :: k.2.text

/-- The GROUP BY clause, if there is one. -/
def groupByText? : Option (List Char) :=
  match s.groupBy with
  | [] => none
  | cs => some (", ".toList.intercalate (cs.map Column.text))

/-- The ORDER BY clause, if there is one. -/
def orderByText? : Option (List Char) :=
  match s.orderBy with
  | [] => none
  | ks => some (", ".toList.intercalate (ks.map OrderKey.text))

/-- **The text of a statement**, in lower case. -/
def text : List Char :=
  "select * from ".toList ++ s.fromText ++ behind " where " s.whereText? ++
    behind " group by " s.groupByText? ++ behind " order by " s.orderByText? ++
    behind " limit " (s.limit?.map Digits.chars) ++ if s.isClosed then [';'] else []

end Statement

/-! ## Pieces -/

/-- A keyword behind a blank. -/
def keywordPiece (s : String)
    (h : s.toList ≠ [] ∧ ∀ c ∈ s.toList, Text.isNameChar c = true) : Piece :=
  ⟨.blank, .ofString s h⟩

/-- The pieces of some parts with commas between them. -/
def listed {α : Type} (f : Gap → α → List Piece) : List α → List Piece
  | [] => []
  | a :: as => f .blank a ++ as.flatMap (f .comma)

def aliasPieces : Option (Bool × Name) → List Piece
  | none => []
  | some (true, a) => [keywordPiece "as" (by decide), ⟨.blank, a.word⟩]
  | some (false, a) => [⟨.blank, a.word⟩]

def Source.pieces (g : Gap) (s : Source) : List Piece :=
  ⟨g, s.table.word⟩ :: aliasPieces s.alias?

def Column.pieces (g : Gap) (c : Column) : List Piece :=
  match c.table? with
  | none => [⟨g, c.name.word⟩]
  | some t => [⟨g, t.word⟩, ⟨.point, c.name.word⟩]

def sidePieces : Option Side → List Piece
  | none => []
  | some .inner => [keywordPiece "inner" (by decide)]
  | some .left => [keywordPiece "left" (by decide)]
  | some .right => [keywordPiece "right" (by decide)]
  | some .full => [keywordPiece "full" (by decide)]

/-- The word in front of the condition of a join. -/
def onPiece : Piece := keywordPiece "on" (by decide)

/-- The pieces of the condition of a join. -/
def Join.condition (j : Join) : List Piece :=
  [⟨.blank, j.left.1.word⟩, ⟨.point, j.left.2.word⟩, ⟨.eq, j.right.1.word⟩,
    ⟨.point, j.right.2.word⟩]

/-- The pieces of a join behind its first keyword. -/
def Join.body (j : Join) : List Piece := j.source.pieces .blank ++ onPiece :: j.condition

def Join.pieces (j : Join) : List Piece :=
  sidePieces j.side? ++ keywordPiece "join" (by decide) :: j.body

/-- The pieces of a comparison with a number. -/
def Operator.pieces (value : Word) : Operator → List Piece
  | eq => [⟨.eq, value⟩]
  | gt => [⟨.gt, value⟩]
  | lt => [⟨.lt, value⟩]
  | ge => [⟨.ge, value⟩]
  | le => [⟨.le, value⟩]
  | ne => [⟨.ne, value⟩]
  | like => [keywordPiece "like" (by decide), ⟨.blank, value⟩]
  | isIn => [keywordPiece "in" (by decide), ⟨.blank, value⟩]

def Condition.pieces (c : Condition) : List Piece :=
  c.column.pieces .blank ++ c.operator.pieces c.value.word

def Connective.piece : Connective → Piece
  | and => keywordPiece "and" (by decide)
  | or => keywordPiece "or" (by decide)

def directionPieces : Option Bool → List Piece
  | none => []
  | some false => [keywordPiece "asc" (by decide)]
  | some true => [keywordPiece "desc" (by decide)]

def nullsPieces : Option Bool → List Piece
  | none => []
  | some false => [keywordPiece "nulls" (by decide), keywordPiece "first" (by decide)]
  | some true => [keywordPiece "nulls" (by decide), keywordPiece "last" (by decide)]

def OrderKey.pieces (g : Gap) (k : OrderKey) : List Piece :=
  k.column.pieces g ++ (directionPieces k.descends? ++ nullsPieces k.nullsLast?)

/-- The conditions behind the first one. -/
def conditionsBehind (cs : List (Connective × Condition)) : List Piece :=
  cs.flatMap fun k => k.1.piece :: k.2.pieces

/-- A clause with its keyword, unless it is empty. -/
def clausePieces (keyword body : List Piece) : List Piece :=
  if body.isEmpty then [] else keyword ++ body

namespace Statement

variable (s : Statement)

def fromBody : List Piece :=
  listed Source.pieces (s.source :: s.sources) ++ s.joins.flatMap Join.pieces

def whereBody : List Piece :=
  match s.conditions? with
  | none => []
  | some (c, cs) => c.pieces ++ conditionsBehind cs

def groupByBody : List Piece := listed Column.pieces s.groupBy

def orderByBody : List Piece := listed OrderKey.pieces s.orderBy

def limitBody : List Piece :=
  match s.limit? with
  | none => []
  | some n => [⟨.blank, n.word⟩]

/-- The pieces behind the LIMIT keyword and before it, and so on to the front. -/
def limitPart : List Piece := clausePieces [keywordPiece "limit" (by decide)] s.limitBody

def orderByPart : List Piece :=
  clausePieces [keywordPiece "order" (by decide), keywordPiece "by" (by decide)] s.orderByBody

def groupByPart : List Piece :=
  clausePieces [keywordPiece "group" (by decide), keywordPiece "by" (by decide)] s.groupByBody

def wherePart : List Piece := clausePieces [keywordPiece "where" (by decide)] s.whereBody

/-- The first word of a statement. -/
def select : Word := .ofString "select" (by decide)

/-- The pieces behind the first word. -/
def pieces : List Piece :=
  ⟨.star, .ofString "from" (by decide)⟩ ::
    (s.fromBody ++ (s.wherePart ++ (s.groupByPart ++ (s.orderByPart ++ s.limitPart))))

end Statement

/-! ## Pieces spell the text -/

theorem spell_listed {α : Type} {f : Gap → α → List Piece} {text : α → List Char}
    (h : ∀ g a, spell (f g a) = g.chars ++ text a) (a : α) (as : List α) :
    spell (listed f (a :: as)) = ' ' :: ", ".toList.intercalate ((a :: as).map text) := by
  have hothers (as : List α) :
      spell (as.flatMap (f .comma)) = as.flatMap fun a => ", ".toList ++ text a := by
    induction as with
    | nil => rfl
    | cons a as ih =>
        rw [List.flatMap_cons, spell_append, h, ih, List.flatMap_cons]
        rfl
  have hjoined (a : α) (as : List α) :
      ", ".toList.intercalate ((a :: as).map text) =
        text a ++ as.flatMap fun a => ", ".toList ++ text a := by
    induction as generalizing a with
    | nil => simp [List.intercalate]
    | cons b as ih =>
        rw [List.map_cons, List.map_cons, List.intercalate_cons_cons, ← List.map_cons, ih b,
          List.flatMap_cons]
        simp
  rw [listed, spell_append, h, hothers, hjoined]
  rfl

theorem spell_source (g : Gap) (s : Source) : spell (s.pieces g) = g.chars ++ s.text := by
  rcases s with ⟨t, _ | ⟨_ | _, a⟩⟩ <;>
    simp [Source.pieces, aliasPieces, Source.text, spell_cons, keywordPiece, Word.ofString, Gap.chars,
      Name.word]

theorem spell_column (g : Gap) (c : Column) : spell (c.pieces g) = g.chars ++ c.text := by
  rcases c with ⟨_ | t, n⟩ <;>
    simp [Column.pieces, Column.text, spell_cons, Gap.chars, Name.word]

theorem spell_join (j : Join) : spell j.pieces = j.text := by
  rcases j with ⟨_ | _ | _ | _ | _, source, left, right⟩ <;>
    simp [Join.pieces, sidePieces, Join.body, onPiece, Join.condition, Join.text, spell_cons,
      spell_append, spell_source, keywordPiece, Word.ofString, Side.name, Gap.chars, Name.word]

theorem spell_operator (value : Word) (op : Operator) :
    spell (op.pieces value) = ' ' :: op.text.toList ++ ' ' :: value.chars := by
  cases op <;>
    simp [Operator.pieces, Operator.text, spell_cons, keywordPiece, Word.ofString, Gap.chars]

theorem spell_condition (c : Condition) : spell c.pieces = ' ' :: c.text := by
  rw [Condition.pieces, spell_append, spell_column, spell_operator, Condition.text]
  simp [Gap.chars, Digits.word]

theorem spell_conditionsBehind (cs : List (Connective × Condition)) :
    spell (conditionsBehind cs) =
      cs.flatMap fun k => ' ' :: k.1.name.toList ++ ' ' :: k.2.text := by
  induction cs with
  | nil => rfl
  | cons k cs ih =>
      have hword : spell [k.1.piece] = ' ' :: k.1.name.toList := by
        cases k.1 <;> rfl
      rw [conditionsBehind, List.flatMap_cons, ← List.singleton_append, spell_append, spell_append,
        hword, spell_condition, List.flatMap_cons, ← ih]
      rfl

theorem spell_orderKey (g : Gap) (k : OrderKey) : spell (k.pieces g) = g.chars ++ k.text := by
  rcases k with ⟨c, _ | _ | _, _ | _ | _⟩ <;>
    simp [OrderKey.pieces, directionPieces, nullsPieces, OrderKey.text, spell_append, spell_cons,
      spell_column, keywordPiece, Word.ofString, Gap.chars]

theorem spell_joins (js : List Join) : spell (js.flatMap Join.pieces) = js.flatMap Join.text := by
  induction js with
  | nil => rfl
  | cons j js ih => rw [List.flatMap_cons, spell_append, spell_join, ih, List.flatMap_cons]

/-- The text of a clause with its keyword. -/
theorem spell_clausePieces {keyword body : List Piece} {k : String} {t : Option (List Char)}
    (hk : spell keyword ++ [' '] = k.toList) (hbody : spell body = behind " " t) :
    spell (clausePieces keyword body) = behind k t := by
  cases body with
  | nil =>
      cases t with
      | none => rfl
      | some t => cases hbody
  | cons p ps =>
      cases t with
      | none =>
          rw [spell_cons, behind, List.append_eq_nil_iff] at hbody
          exact absurd hbody.1 p.gap.chars_ne_nil
      | some t =>
          show spell (keyword ++ p :: ps) = k.toList ++ t
          rw [spell_append, hbody, ← hk, List.append_assoc]
          rfl

namespace Statement

variable (s : Statement)

theorem spell_fromBody : spell s.fromBody = ' ' :: s.fromText := by
  rw [fromBody, spell_append, spell_listed spell_source, spell_joins]
  rfl

theorem spell_whereBody : spell s.whereBody = behind " " s.whereText? := by
  rw [whereBody, whereText?]
  cases s.conditions? with
  | none => rfl
  | some c =>
      obtain ⟨c, cs⟩ := c
      simp only [Option.map_some]
      rw [spell_append, spell_condition, spell_conditionsBehind]
      rfl

theorem spell_groupByBody : spell s.groupByBody = behind " " s.groupByText? := by
  rw [groupByBody, groupByText?]
  cases s.groupBy with
  | nil => rfl
  | cons c cs => exact spell_listed spell_column c cs

theorem spell_orderByBody : spell s.orderByBody = behind " " s.orderByText? := by
  rw [orderByBody, orderByText?]
  cases s.orderBy with
  | nil => rfl
  | cons k ks => exact spell_listed spell_orderKey k ks

theorem spell_limitBody : spell s.limitBody = behind " " (s.limit?.map Digits.chars) := by
  rw [limitBody]
  cases s.limit? with
  | none => rfl
  | some n => exact List.append_nil _

theorem spell_wherePart : spell s.wherePart = behind " where " s.whereText? :=
  spell_clausePieces rfl s.spell_whereBody

theorem spell_groupByPart : spell s.groupByPart = behind " group by " s.groupByText? :=
  spell_clausePieces rfl s.spell_groupByBody

theorem spell_orderByPart : spell s.orderByPart = behind " order by " s.orderByText? :=
  spell_clausePieces rfl s.spell_orderByBody

theorem spell_limitPart : spell s.limitPart = behind " limit " (s.limit?.map Digits.chars) :=
  spell_clausePieces rfl s.spell_limitBody

/-- **The pieces of a statement spell its text.** -/
theorem text_eq : s.text =
    select.chars ++ spell s.pieces ++ if s.isClosed then [';'] else [] := by
  have hstart : select.chars ++ (Gap.star.chars ++ ("from".toList ++ [' '])) =
      "select * from ".toList := by decide
  have hpieces : spell s.pieces = Gap.star.chars ++ ("from".toList ++ ' ' :: (s.fromText ++
      (behind " where " s.whereText? ++ (behind " group by " s.groupByText? ++
        (behind " order by " s.orderByText? ++ behind " limit " (s.limit?.map Digits.chars)))))) := by
    rw [pieces, spell_cons, spell_append, spell_append, spell_append, spell_append,
      spell_fromBody, spell_wherePart, spell_groupByPart, spell_orderByPart, spell_limitPart]
    rfl
  rw [hpieces]
  unfold text
  generalize "select * from ".toList = start at hstart ⊢
  subst hstart
  simp only [List.append_assoc, List.cons_append, List.nil_append]

end Statement

end IndexAdvisor.Sql
