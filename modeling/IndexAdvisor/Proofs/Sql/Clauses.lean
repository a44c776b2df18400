import IndexAdvisor.Proofs.Sql.Statement

/-!
# The clauses of a plain statement

Each clause is found where its keyword stands, and its text ends where the next clause begins. No
name is taken for a keyword, however it begins, so a keyword that is not there is not found either.
-/

set_option autoImplicit false

namespace IndexAdvisor.Sql

open IndexAdvisor.Text

/-! ## Words of parts -/

/-- Each word is one of `own` or not a reserved one. -/
def Uses (own : List String) (ps : List Piece) : Prop :=
  ∀ p ∈ ps, (∃ k ∈ own, p.word.chars = k.toList) ∨ ∀ k ∈ reservedWords, p.word.chars ≠ k.toList

section Uses

variable {own : List String} {ps qs : List Piece}

theorem uses_nil : Uses own [] := fun _ hp => absurd hp List.not_mem_nil

theorem Uses.append (hps : Uses own ps) (hqs : Uses own qs) : Uses own (ps ++ qs) := fun p hp =>
  (List.mem_append.mp hp).elim (hps p) (hqs p)

theorem uses_flatMap {α : Type} {f : α → List Piece} {as : List α}
    (h : ∀ a, Uses own (f a)) : Uses own (as.flatMap f) := by
  intro p hp
  obtain ⟨a, -, hp⟩ := List.mem_flatMap.mp hp
  exact h a p hp

theorem Uses.mono {more : List String} (h : Uses own ps) (hmore : ∀ k ∈ own, k ∈ more) :
    Uses more ps := fun p hp =>
  (h p hp).imp_left fun ⟨k, hk, heq⟩ => ⟨k, hmore k hk, heq⟩

theorem Uses.both {more : List String} (hps : Uses own ps) (hqs : Uses more qs) :
    Uses (own ++ more) (ps ++ qs) :=
  (hps.mono fun _ hk => List.mem_append_left _ hk).append
    (hqs.mono fun _ hk => List.mem_append_right _ hk)

theorem uses_name (g : Gap) (n : Name) : Uses own [⟨g, n.word⟩] := by
  intro p hp
  rw [List.mem_singleton.mp hp]
  exact Or.inr n.isFree

theorem uses_digits (g : Gap) (n : Digits) : Uses own [⟨g, n.word⟩] := by
  intro p hp
  rw [List.mem_singleton.mp hp]
  refine Or.inr fun k hk heq => ?_
  have hreserved : ∀ k ∈ reservedWords, ∀ c ∈ k.toList, c.isDigit = false := by decide
  cases hn : n.chars with
  | nil => exact n.ne_nil hn
  | cons c cs =>
      have hc : c ∈ n.chars := hn ▸ List.mem_cons_self
      have hdigit := n.isDigit_of_mem c hc
      rw [hreserved k hk c (heq ▸ hc)] at hdigit
      cases hdigit

theorem uses_word {s : String} {h} (g : Gap) (hs : s ∈ own) : Uses own [⟨g, .ofString s h⟩] := by
  intro p hp
  rw [List.mem_singleton.mp hp]
  exact Or.inl ⟨s, hs, rfl⟩

theorem uses_keyword {s : String} {h} (hs : s ∈ own) : Uses own [keywordPiece s h] :=
  uses_word .blank hs

/-- Reserved words that a part has no use for do not stand in it. -/
theorem Uses.ne {ks : List String} (h : Uses own ps)
    (hks : ks.all (fun k => reservedWords.contains k && !own.contains k) = true) :
    ∀ p ∈ ps, ∀ k ∈ ks, p.word.chars ≠ k.toList := by
  intro p hp k hk heq
  have hkeys := List.all_eq_true.mp hks k hk
  rw [Bool.and_eq_true, List.contains_iff_mem] at hkeys
  rcases h p hp with ⟨k', hk', heq'⟩ | hfree
  · have hsame : k = k' := String.toList_inj.mp (heq.symm.trans heq')
    rw [hsame, List.contains_iff_mem.mpr hk'] at hkeys
    exact absurd hkeys.2 (by decide)
  · exact hfree k hkeys.1 heq

theorem Uses.free (h : Uses own ps) {k : String}
    (hk : (reservedWords.contains k && !own.contains k) = true) :
    ∀ p ∈ ps, p.word.chars ≠ k.toList := by
  have hall : [k].all (fun k => reservedWords.contains k && !own.contains k) = true := by
    rw [List.all_cons, hk]
    rfl
  exact fun p hp => h.ne hall p hp k List.mem_cons_self

end Uses

theorem uses_source (g : Gap) (s : Source) : Uses ["as"] (s.pieces g) := by
  refine (uses_name g s.table).append (?_ : Uses ["as"] (aliasPieces s.alias?))
  rcases s.alias? with _ | ⟨_ | _, a⟩
  · exact uses_nil
  · exact uses_name _ a
  · exact (uses_keyword (by decide)).append (uses_name _ a)

theorem uses_column (own : List String) (g : Gap) (c : Column) : Uses own (c.pieces g) := by
  rcases c with ⟨_ | t, n⟩
  · exact uses_name g n
  · exact (uses_name g t).append (uses_name _ n)

/-- The keywords of joins. -/
def joinWords : List String := ["inner", "left", "right", "full", "join", "as", "on"]

theorem uses_joinBody (j : Join) : Uses ["as", "on"] j.body :=
  ((uses_source .blank j.source).mono (by decide)).append <|
    (uses_keyword (by decide)).append <| (uses_name _ j.left.1).append <|
    (uses_name _ j.left.2).append <| (uses_name _ j.right.1).append (uses_name _ j.right.2)

theorem uses_join (j : Join) : Uses joinWords j.pieces := by
  refine (?_ : Uses joinWords (sidePieces j.side?)).append
    ((uses_keyword (by decide)).append ((uses_joinBody j).mono (by decide)))
  rcases j.side? with _ | _ | _ | _ | _
  · exact uses_nil
  all_goals exact uses_keyword (by decide)

theorem uses_condition (c : Condition) : Uses ["like", "in"] c.pieces := by
  refine (uses_column _ .blank c.column).append ?_
  cases c.operator
  case like => exact (uses_keyword (by decide)).append (uses_digits _ c.value)
  case isIn => exact (uses_keyword (by decide)).append (uses_digits _ c.value)
  all_goals exact uses_digits _ c.value

theorem uses_orderKey (g : Gap) (k : OrderKey) :
    Uses ["asc", "desc", "nulls", "first", "last"] (k.pieces g) := by
  refine (uses_column _ g k.column).append (Uses.append ?_ ?_)
  · rcases k.descends? with _ | _ | _
    · exact uses_nil
    all_goals exact uses_keyword (by decide)
  · rcases k.nullsLast? with _ | _ | _
    · exact uses_nil
    all_goals exact (uses_keyword (by decide)).append (uses_keyword (by decide))

theorem uses_listed {own : List String} {α : Type} {f : Gap → α → List Piece}
    (h : ∀ g a, Uses own (f g a)) (as : List α) : Uses own (listed f as) := by
  cases as with
  | nil => exact uses_nil
  | cons a as => exact (h _ a).append (uses_flatMap (h .comma))

namespace Statement

variable (s : Statement)

theorem uses_fromBody : Uses joinWords s.fromBody :=
  (uses_listed (fun g a => (uses_source g a).mono (by decide)) _).append (uses_flatMap uses_join)

theorem uses_whereBody : Uses ["like", "in", "and", "or"] s.whereBody := by
  rw [whereBody]
  cases s.conditions? with
  | none => exact uses_nil
  | some c =>
      refine ((uses_condition c.1).mono (by decide)).append (uses_flatMap fun k => ?_)
      refine (?_ : Uses _ [k.1.piece]).append ((uses_condition k.2).mono (by decide))
      cases k.1 <;> exact uses_keyword (by decide)

theorem uses_groupByBody : Uses [] s.groupByBody := uses_listed (uses_column []) s.groupBy

theorem uses_orderByBody : Uses ["asc", "desc", "nulls", "first", "last"] s.orderByBody :=
  uses_listed uses_orderKey s.orderBy

theorem uses_limitBody : Uses [] s.limitBody := by
  rw [limitBody]
  cases s.limit? with
  | none => exact uses_nil
  | some n => exact uses_digits _ n

end Statement

/-! ## Where a clause ends -/

section UpTo

variable {ws : List String} (hws : ∀ k ∈ ws, k.toList ≠ [] ∧ ∀ c ∈ k.toList, isNameChar c = true)

include hws

/-- A word ahead is one of the words only if it is the whole word. -/
theorem anyWordAhead_word (w : Word) (ps : List Piece) :
    anyWordAhead ws (w.chars ++ spell ps) = true ↔ ∃ k ∈ ws, w.chars = k.toList := by
  rw [anyWordAhead, List.any_eq_true]
  refine exists_congr fun k => and_congr_right fun hk => ?_
  rw [exactly, letters_bind plain_id failsInWords_wordEnd (hws k hk).2 w.isNameChar_of_mem,
    wordEnd_spell]
  by_cases h : w.chars = k.toList
  · simp [h]
  · simp [h]

theorem anyWordAhead_sign {c : Char} (hc : isSign c = true) (cs : List Char) :
    anyWordAhead ws (c :: cs) = false := by
  rw [anyWordAhead, List.any_eq_false]
  intro k hk
  have hread : (letters id k.toList (c :: cs)).bind wordEnd = none :=
    (atWords_letters plain_id (hws k hk).1 (hws k hk).2 wordEnd).sign hc
  rw [exactly, hread]
  exact Bool.false_ne_true

/-- Behind some signs none of the words is ahead, if none begins the text behind them. -/
theorem anyWordAhead_signs {ss cs : List Char} (hss : ∀ c ∈ ss, isSign c = true)
    (hcs : cs.dropWhile isBlank = cs) (h : anyWordAhead ws cs = false) :
    anyWordAhead ws ((ss ++ cs).dropWhile isBlank) = false := by
  induction ss with
  | nil => rwa [List.nil_append, hcs]
  | cons c ss ih =>
      rw [List.cons_append, List.dropWhile_cons]
      split
      · exact ih fun d hd => hss d (List.mem_cons_of_mem c hd)
      · exact anyWordAhead_sign hws (hss c List.mem_cons_self) _

omit hws in
theorem dropWhile_isBlank_word (w : Word) (cs : List Char) :
    (w.chars ++ cs).dropWhile isBlank = w.chars ++ cs := by
  cases hw : w.chars with
  | nil => exact absurd hw w.ne_nil
  | cons c ds =>
      have hc := isBlank_of_isNameChar (w.isNameChar_of_mem c (hw ▸ List.mem_cons_self))
      rw [List.cons_append, List.dropWhile_cons_of_neg (by rw [hc]; exact Bool.false_ne_true)]

omit hws in
theorem upTo_word (w : Word) (cs : List Char) :
    upTo ws (w.chars ++ cs) = w.chars ++ upTo ws cs := by
  have hnames (ds : List Char) (hds : ∀ c ∈ ds, isNameChar c = true) :
      upTo ws (ds ++ cs) = ds ++ upTo ws cs := by
    induction ds with
    | nil => rfl
    | cons c ds ih =>
        have hc := isBlank_of_isNameChar (hds c List.mem_cons_self)
        rw [List.cons_append, upTo, hc, Bool.false_and, if_neg Bool.false_ne_true,
          ih fun d hd => hds d (List.mem_cons_of_mem c hd)]
        rfl
  exact hnames w.chars w.isNameChar_of_mem

theorem upTo_gap (g : Gap) {cs : List Char} (hcs : cs.dropWhile isBlank = cs)
    (h : anyWordAhead ws cs = false) : upTo ws (g.chars ++ cs) = g.chars ++ upTo ws cs := by
  have hsigns (ss : List Char) (hss : ∀ c ∈ ss, isSign c = true) :
      upTo ws (ss ++ cs) = ss ++ upTo ws cs := by
    induction ss with
    | nil => rfl
    | cons c ss ih =>
        have hrest : ∀ d ∈ ss, isSign d = true := fun d hd => hss d (List.mem_cons_of_mem c hd)
        rw [List.cons_append, upTo, anyWordAhead_signs hws hrest hcs h, Bool.and_false,
          if_neg Bool.false_ne_true, ih hrest]
        rfl
  exact hsigns g.chars isSign_of_mem_gap

/-- Words that close nothing are kept. -/
theorem upTo_append {ps : List Piece} (hps : ∀ p ∈ ps, ∀ k ∈ ws, p.word.chars ≠ k.toList)
    (qs : List Piece) : upTo ws (spell (ps ++ qs)) = spell ps ++ upTo ws (spell qs) := by
  induction ps with
  | nil => rfl
  | cons p ps ih =>
      have hahead : anyWordAhead ws (p.word.chars ++ spell (ps ++ qs)) = false := by
        rw [← Bool.not_eq_true, anyWordAhead_word hws]
        rintro ⟨k, hk, heq⟩
        exact hps p List.mem_cons_self k hk heq
      rw [List.cons_append, spell_cons, upTo_gap hws p.gap (dropWhile_isBlank_word p.word _) hahead,
        upTo_word, ih fun q hq => hps q (List.mem_cons_of_mem p hq), spell_cons, List.append_assoc,
        List.append_assoc]

/-- The text is empty or one of the words closes it at once. -/
def ClosedBy (ws : List String) (ps : List Piece) : Prop :=
  ∀ p ∈ ps.head?, p.gap = .blank ∧ ∃ k ∈ ws, p.word.chars = k.toList

theorem upTo_closed {ps : List Piece} (h : ClosedBy ws ps) : upTo ws (spell ps) = [] := by
  cases ps with
  | nil => rfl
  | cons p ps =>
      obtain ⟨hgap, hk⟩ := h p rfl
      rw [spell_cons, hgap]
      show upTo ws (' ' :: (p.word.chars ++ spell ps)) = []
      rw [upTo, dropWhile_isBlank_word, (anyWordAhead_word hws p.word ps).mpr hk]
      rfl

end UpTo

/-! ## Where a clause begins -/

section Keywords

variable {β : Type} {k : String} {ks : List String} {g : List Char → Option β}

/-- A keyword is not read at another word than its first one. -/
theorem keyword_bind_of_ne (hk : ∀ c ∈ k.toList, isNameChar c = true) (hg : FailsInWords g)
    {w : Word} (hw : w.chars ≠ k.toList) (ps : List Piece) :
    (keyword (k :: ks) (w.chars ++ spell ps)).bind g = none := by
  cases ks with
  | nil => exact (letters_bind plain_id hg hk w.isNameChar_of_mem ps).trans (if_neg hw)
  | cons l ls =>
      have hblanks : ((exactly k (w.chars ++ spell ps)).bind blanks) = none :=
        (letters_bind plain_id failsInWords_blanks hk w.isNameChar_of_mem ps).trans (if_neg hw)
      rw [keyword, hblanks]
      · rfl
      · exact fun h => List.cons_ne_nil l ls h

theorem atWords_keyword (hne : k.toList ≠ []) (hk : ∀ c ∈ k.toList, isNameChar c = true)
    (ks : List String) (g : List Char → Option β) :
    AtWords fun cs => (keyword (k :: ks) cs).bind g := by
  cases ks with
  | nil => exact atWords_letters plain_id hne hk g
  | cons l ls =>
      have hwords := atWords_letters plain_id hne hk fun cs =>
        ((blanks cs).bind (keyword (l :: ls))).bind g
      have heq : (fun cs => (keyword (k :: l :: ls) cs).bind g) = fun cs =>
          (letters id k.toList cs).bind fun cs => ((blanks cs).bind (keyword (l :: ls))).bind g := by
        funext cs
        simp only [keyword, exactly, Option.bind_assoc]
      rw [heq]
      exact hwords

theorem letters_self {w : List Char} (fold : Char → Char) (h : ∀ c ∈ w, fold c = c)
    (cs : List Char) : letters fold w (w ++ cs) = some cs := by
  induction w with
  | nil => rfl
  | cons c w ih =>
      rw [List.cons_append, letters, if_pos (h c List.mem_cons_self),
        ih fun d hd => h d (List.mem_cons_of_mem c hd)]

/-- The pieces of the words of a keyword. -/
def Spells : List String → List Piece → Prop
  | [], ps => ps = []
  | k :: ks, ps => ∃ w qs, ps = ⟨.blank, w⟩ :: qs ∧ w.chars = k.toList ∧ Spells ks qs

theorem spells_nil : Spells [] [] := rfl

/-- A keyword is read where its words stand. -/
theorem keyword_spell {w : Word} (hw : w.chars = k.toList) {ps : List Piece} (h : Spells ks ps)
    (qs : List Piece) : keyword (k :: ks) (w.chars ++ spell (ps ++ qs)) = some (spell qs) := by
  induction ks generalizing k w ps with
  | nil =>
      cases h
      rw [keyword, exactly, hw, letters_self id fun _ _ => rfl]
      rfl
  | cons l ls ih =>
      obtain ⟨v, rs, rfl, hv, hrs⟩ := h
      rw [keyword, exactly, hw, letters_self id fun _ _ => rfl, List.cons_append]
      · exact (congrArg (Option.bind · (keyword (l :: ls))) (blanks_spell_blank v (rs ++ qs))).trans
          (ih hv hrs)
      · exact fun h => List.cons_ne_nil l ls h

end Keywords

/-! ## Clauses and their keywords -/

section Clause

variable {k : String} {ks closing : List String}
  (hk : k.toList ≠ [] ∧ ∀ c ∈ k.toList, isNameChar c = true)

include hk

/-- A keyword that does not stand in the text is not found. -/
theorem firstAt_keyword_of_ne {β : Type} {g : List Char → Option β} (hg : FailsInWords g)
    {lead : Word} {ps : List Piece} (hlead : lead.chars ≠ k.toList)
    (hps : ∀ p ∈ ps, p.word.chars ≠ k.toList) :
    firstAt (fun cs => (keyword (k :: ks) cs).bind g) false (lead.chars ++ spell ps) = none := by
  have hwords := atWords_keyword hk.1 hk.2 ks g
  have hall := firstAt_append hwords false
    (fun p hp qs => keyword_bind_of_ne hk.2 hg (hps p hp) qs) []
  rw [List.append_nil] at hall
  rw [firstAt_word hwords, keyword_bind_of_ne hk.2 hg hlead, hall]
  rfl

theorem clause_of_ne {lead : Word} {ps : List Piece} (hlead : lead.chars ≠ k.toList)
    (hps : ∀ p ∈ ps, p.word.chars ≠ k.toList) :
    clause (k :: ks) closing (lead.chars ++ spell ps) = none := by
  have hclause : firstAt (fun cs => (keyword (k :: ks) cs).bind fun cs =>
      (blanks cs).bind (fragment closing)) false (lead.chars ++ spell ps) = none :=
    firstAt_keyword_of_ne hk (failsInWords_blanks.bind (fragment closing)) hlead hps
  simpa only [clause, Option.bind_assoc] using hclause

theorem mentions_of_ne {lead : Word} {ps : List Piece} (hlead : lead.chars ≠ k.toList)
    (hps : ∀ p ∈ ps, p.word.chars ≠ k.toList) :
    mentions (k :: ks) (lead.chars ++ spell ps) = false := by
  rw [mentions, firstAt_keyword_of_ne hk failsInWords_wordEnd hlead hps]
  rfl

/-- A keyword is found where it stands for the first time. -/
theorem firstAt_keyword {β : Type} {f : List Char → Option β} (hf : FailsInWords f) {b : β}
    {lead : Word} {before : List Piece} {g : Gap} {w : Word} {kp behind : List Piece}
    (hlead : lead.chars ≠ k.toList) (hbefore : ∀ p ∈ before, p.word.chars ≠ k.toList)
    (hw : w.chars = k.toList) (hkp : Spells ks kp) (hb : f (spell behind) = some b) :
    firstAt (fun cs => (keyword (k :: ks) cs).bind f) false
      (lead.chars ++ spell (before ++ ⟨g, w⟩ :: (kp ++ behind))) = some b := by
  have hwords := atWords_keyword hk.1 hk.2 ks f
  rw [firstAt_word hwords, keyword_bind_of_ne hk.2 hf hlead, Option.none_or,
    firstAt_append hwords false
      (fun p hp qs => keyword_bind_of_ne hk.2 hf (hbefore p hp) qs),
    firstAt_cons hwords, keyword_spell hw hkp behind, Option.bind_some, hb]
  rfl

/-- **A clause is found** at its keyword, and its text ends where something closes it. -/
theorem clause_of_keyword (hclosing : ∀ k ∈ closing, k.toList ≠ [] ∧
      ∀ c ∈ k.toList, isNameChar c = true)
    {lead : Word} {before : List Piece} {g : Gap} {w : Word} {kp : List Piece} {v : Word}
    {body post : List Piece} (hlead : lead.chars ≠ k.toList)
    (hbefore : ∀ p ∈ before, p.word.chars ≠ k.toList) (hw : w.chars = k.toList)
    (hkp : Spells ks kp) (hbody : ∀ p ∈ ⟨.blank, v⟩ :: body, ∀ k ∈ closing,
      p.word.chars ≠ k.toList) (hpost : ClosedBy closing post) :
    clause (k :: ks) closing (lead.chars ++
        spell (before ++ ⟨g, w⟩ :: (kp ++ (⟨.blank, v⟩ :: body ++ post)))) =
        some (v.chars ++ spell body) ∧
      mentions (k :: ks) (lead.chars ++
        spell (before ++ ⟨g, w⟩ :: (kp ++ (⟨.blank, v⟩ :: body ++ post)))) = true := by
  refine ⟨?_, ?_⟩
  · have hupTo : upTo closing (v.chars ++ spell (body ++ post)) = v.chars ++ spell body := by
      rw [upTo_word, upTo_append hclosing fun p hp => hbody p (List.mem_cons_of_mem _ hp),
        upTo_closed hclosing hpost, List.append_nil]
    have hbody : (blanks (spell (⟨.blank, v⟩ :: body ++ post))).bind (fragment closing) =
        some (v.chars ++ spell body) := by
      rw [List.cons_append, blanks_spell_blank, Option.bind_some, ← hupTo]
      cases hv : v.chars with
      | nil => exact absurd hv v.ne_nil
      | cons c cs => rfl
    have hclause := firstAt_keyword hk (failsInWords_blanks.bind (fragment closing)) (g := g)
      hlead hbefore hw hkp hbody
    simpa only [clause, Option.bind_assoc] using hclause
  · rw [mentions, firstAt_keyword hk failsInWords_wordEnd hlead hbefore hw hkp (wordEnd_spell _)]
    rfl

end Clause

/-! ## The clauses of a statement -/

theorem uses_clausePieces {own : List String} {kp body : List Piece} (hkp : Uses own kp)
    (hbody : Uses own body) : Uses own (clausePieces kp body) := by
  rw [clausePieces]
  split
  · exact uses_nil
  · exact hkp.append hbody

theorem ClosedBy.append {ws : List String} {ps qs : List Piece} (hps : ClosedBy ws ps)
    (hqs : ClosedBy ws qs) : ClosedBy ws (ps ++ qs) := by
  cases ps with
  | nil => exact hqs
  | cons p ps => exact hps

theorem closedBy_clausePieces {ws : List String} {k : String} {h} {kp : List Piece}
    (hk : k ∈ ws) (body : List Piece) :
    ClosedBy ws (clausePieces (keywordPiece k h :: kp) body) := by
  rw [clausePieces]
  split
  · exact fun p hp => absurd hp (by simp)
  · intro p hp
    cases hp
    exact ⟨rfl, k, hk, rfl⟩

/-- The body of a clause begins with a word behind a blank, unless the clause is not there. -/
def BeginsBlank (body : List Piece) : Prop := ∀ p ∈ body.head?, p.gap = .blank

/-- **The clause of a keyword** is the text behind it, if the clause is there, and the keyword
stands as a word in the statement just then. -/
theorem clause_clausePieces {k : String} {ks closing : List String} {h} {kp : List Piece}
    {lead : Word} {before body post : List Piece} {t : Option (List Char)}
    (hkp : Spells ks kp)
    (hclosing : ∀ k ∈ closing, k.toList ≠ [] ∧ ∀ c ∈ k.toList, isNameChar c = true)
    (hlead : lead.chars ≠ k.toList) (hbefore : ∀ p ∈ before, p.word.chars ≠ k.toList)
    (hbody : ∀ p ∈ body, ∀ k ∈ closing, p.word.chars ≠ k.toList)
    (hpost : ∀ p ∈ post, p.word.chars ≠ k.toList) (hclosed : ClosedBy closing post)
    (hblank : BeginsBlank body) (ht : spell body = behind " " t) :
    clause (k :: ks) closing
        (lead.chars ++ spell (before ++ (clausePieces (keywordPiece k h :: kp) body ++ post))) = t ∧
      mentions (k :: ks)
        (lead.chars ++ spell (before ++ (clausePieces (keywordPiece k h :: kp) body ++ post))) =
          t.isSome := by
  -- a clause without a body is not there, and its keyword stands nowhere
  cases body with
  | nil =>
      have hnone : t = none := by
        cases t with
        | none => rfl
        | some t => cases ht
      subst hnone
      have hnone : ∀ p ∈ before ++ post, p.word.chars ≠ k.toList := fun p hp =>
        (List.mem_append.mp hp).elim (hbefore p) (hpost p)
      exact ⟨clause_of_ne h hlead hnone, mentions_of_ne h hlead hnone⟩
  | cons p body =>
      obtain ⟨g, v⟩ := p
      obtain rfl : g = .blank := hblank _ rfl
      have hfound := clause_of_keyword (g := .blank) (w := .ofString k h) h hclosing hlead hbefore
        rfl hkp hbody hclosed
      have hsome : t = some (v.chars ++ spell body) := by
        rw [spell_cons] at ht
        cases t with
        | none => cases ht
        | some t => exact congrArg some (List.cons.inj ht).2.symm
      subst hsome
      have hpieces : clausePieces (keywordPiece k h :: kp) (⟨.blank, v⟩ :: body) ++ post =
          ⟨.blank, .ofString k h⟩ :: (kp ++ (⟨.blank, v⟩ :: body ++ post)) := by
        show (keywordPiece k h :: kp ++ ⟨.blank, v⟩ :: body) ++ post = _
        rw [List.append_assoc]
        rfl
      rw [hpieces]
      exact hfound

theorem beginsBlank_listed {α : Type} {f : Gap → α → List Piece}
    (hf : ∀ g a, ∃ w ps, f g a = ⟨g, w⟩ :: ps) (as : List α) : BeginsBlank (listed f as) := by
  cases as with
  | nil => exact fun p hp => absurd hp (by simp [listed])
  | cons a as =>
      obtain ⟨w, ps, h⟩ := hf .blank a
      intro p hp
      rw [listed, h] at hp
      cases hp
      rfl

theorem exists_column_pieces (g : Gap) (c : Column) : ∃ w ps, c.pieces g = ⟨g, w⟩ :: ps := by
  rcases c with ⟨_ | t, n⟩
  · exact ⟨_, _, rfl⟩
  · exact ⟨_, _, rfl⟩

theorem exists_orderKey_pieces (g : Gap) (k : OrderKey) : ∃ w ps, k.pieces g = ⟨g, w⟩ :: ps := by
  obtain ⟨w, ps, h⟩ := exists_column_pieces g k.column
  exact ⟨w, _, by rw [OrderKey.pieces, h, List.cons_append]⟩

/-- A keyword of one word is found if it is a word of the text. -/
theorem mentions_of_mem {k : String} (hk : k.toList ≠ [] ∧ ∀ c ∈ k.toList, isNameChar c = true)
    {lead : Word} {ps : List Piece} (hlead : lead.chars ≠ k.toList) {p : Piece} (hp : p ∈ ps)
    (hpk : p.word.chars = k.toList) : mentions [k] (lead.chars ++ spell ps) = true := by
  have hwords := atWords_keyword hk.1 hk.2 [] wordEnd
  have hsome : (firstAt (fun cs => (keyword [k] cs).bind wordEnd) false (spell ps)).isSome := by
    induction ps with
    | nil => cases hp
    | cons q ps ih =>
        rw [firstAt_cons hwords, Option.isSome_or]
        rcases List.mem_cons.mp hp with rfl | hp
        · have hread : keyword [k] (p.word.chars ++ spell ([] ++ ps)) = some (spell ps) :=
            keyword_spell hpk spells_nil ps
          rw [List.nil_append] at hread
          rw [hread, Option.bind_some, wordEnd_spell]
          rfl
        · rw [ih hp, Bool.or_true]
  rw [mentions, firstAt_word hwords, keyword_bind_of_ne hk.2 failsInWords_wordEnd hlead,
    Option.none_or]
  exact hsome

namespace Statement

variable (s : Statement)

/-- The text without what closes it, which is all that the readers see. -/
def normal : List Char := select.chars ++ spell s.pieces

theorem isName_from : "from".toList ≠ [] ∧ ∀ c ∈ "from".toList, isNameChar c = true := by decide

/-- The FROM clause with its keyword. -/
def fromPart : List Piece := ⟨.star, .ofString "from" isName_from⟩ :: s.fromBody

theorem uses_fromPart : Uses ("from" :: joinWords) s.fromPart :=
  (uses_word .star (by decide)).append (s.uses_fromBody.mono (by decide))

theorem uses_wherePart : Uses ["where", "like", "in", "and", "or"] s.wherePart :=
  uses_clausePieces (uses_keyword (by decide)) (s.uses_whereBody.mono (by decide))

theorem uses_groupByPart : Uses ["group", "by"] s.groupByPart :=
  uses_clausePieces ((uses_keyword (by decide)).append (uses_keyword (by decide)))
    (s.uses_groupByBody.mono (by decide))

theorem uses_orderByPart :
    Uses ["order", "by", "asc", "desc", "nulls", "first", "last"] s.orderByPart :=
  uses_clausePieces ((uses_keyword (by decide)).append (uses_keyword (by decide)))
    (s.uses_orderByBody.mono (by decide))

theorem uses_limitPart : Uses ["limit"] s.limitPart :=
  uses_clausePieces (uses_keyword (by decide)) (s.uses_limitBody.mono (by decide))

/-! ### Each clause -/

theorem select_ne : ∀ k ∈ reservedWords, select.chars ≠ k.toList := by decide

/-- The pieces behind the FROM clause. -/
def afterFrom : List Piece := s.wherePart ++ (s.groupByPart ++ (s.orderByPart ++ s.limitPart))

theorem closedBy_afterFrom : ClosedBy ["where", "group", "order", "limit"] s.afterFrom :=
  (closedBy_clausePieces (by decide) _).append <| (closedBy_clausePieces (by decide) _).append <|
    (closedBy_clausePieces (by decide) _).append (closedBy_clausePieces (by decide) _)

theorem fromClause_normal : fromClause s.normal = some s.fromText := by
  have hfree : ∀ p ∈ s.fromBody, ∀ k ∈ ["where", "group", "order", "limit"],
      p.word.chars ≠ k.toList := s.uses_fromBody.ne (by decide)
  have htext := s.spell_fromBody
  obtain ⟨v, ps, hbody⟩ : ∃ v ps, s.fromBody = ⟨.blank, v⟩ :: ps := ⟨_, _, rfl⟩
  rw [hbody] at hfree htext
  rw [spell_cons] at htext
  have hfound := (clause_of_keyword (k := "from") (g := .star) (w := .ofString "from" (by decide))
    (by decide) (by decide) (select_ne "from" (by decide))
    (fun p (hp : p ∈ []) => absurd hp List.not_mem_nil) rfl spells_nil hfree
    s.closedBy_afterFrom).1
  rw [fromClause, normal, pieces, hbody]
  exact hfound.trans (congrArg some (List.cons.inj htext).2)

theorem spells_by : Spells ["by"] [keywordPiece "by" (by decide)] := ⟨_, _, rfl, rfl, rfl⟩

theorem whereClause_normal : whereClause s.normal = s.whereText? ∧
    mentions ["where"] s.normal = s.whereText?.isSome := by
  have hbefore := s.uses_fromPart
  have hpost := s.uses_groupByPart.both (s.uses_orderByPart.both s.uses_limitPart)
  have hblank : BeginsBlank s.whereBody := by
    rw [whereBody]
    cases s.conditions? with
    | none => exact fun p hp => absurd hp (by simp)
    | some c =>
        obtain ⟨w, ps, h⟩ := exists_column_pieces .blank c.1.column
        intro p hp
        have hp : p ∈ (c.1.column.pieces .blank ++ c.1.operator.pieces c.1.value.word ++
          conditionsBehind c.2).head? := hp
        rw [h] at hp
        cases hp
        rfl
  have hpieces : s.pieces = s.fromPart ++ (s.wherePart ++
      (s.groupByPart ++ (s.orderByPart ++ s.limitPart))) := rfl
  rw [normal, hpieces]
  exact clause_clausePieces spells_nil (by decide) (select_ne "where" (by decide))
    (hbefore.free (by decide))
    (s.uses_whereBody.ne (by decide))
    (hpost.free (by decide))
    ((closedBy_clausePieces (by decide) _).append <|
      (closedBy_clausePieces (by decide) _).append (closedBy_clausePieces (by decide) _))
    hblank s.spell_whereBody

theorem groupByClause_normal : groupByClause s.normal = s.groupByText? ∧
    mentions ["group", "by"] s.normal = s.groupByText?.isSome := by
  have hbefore := s.uses_fromPart.both s.uses_wherePart
  have hpost := s.uses_orderByPart.both s.uses_limitPart
  have hpieces : s.pieces = s.fromPart ++ s.wherePart ++
      (s.groupByPart ++ (s.orderByPart ++ s.limitPart)) := by
    rw [List.append_assoc]
    rfl
  rw [normal, hpieces]
  exact clause_clausePieces spells_by (by decide) (select_ne "group" (by decide))
    (hbefore.free (by decide))
    (s.uses_groupByBody.ne (by decide))
    (hpost.free (by decide))
    ((closedBy_clausePieces (by decide) _).append (closedBy_clausePieces (by decide) _))
    (beginsBlank_listed exists_column_pieces s.groupBy) s.spell_groupByBody

theorem orderByClause_normal : orderByClause s.normal = s.orderByText? ∧
    mentions ["order", "by"] s.normal = s.orderByText?.isSome := by
  have hbefore := (s.uses_fromPart.both s.uses_wherePart).both s.uses_groupByPart
  have hpost := s.uses_limitPart
  have hpieces : s.pieces = s.fromPart ++ s.wherePart ++ s.groupByPart ++
      (s.orderByPart ++ s.limitPart) := by
    rw [List.append_assoc, List.append_assoc]
    rfl
  rw [normal, hpieces]
  exact clause_clausePieces spells_by (by decide) (select_ne "order" (by decide))
    (hbefore.free (by decide))
    (s.uses_orderByBody.ne (by decide))
    (hpost.free (by decide))
    (closedBy_clausePieces (by decide) _)
    (beginsBlank_listed exists_orderKey_pieces s.orderBy) s.spell_orderByBody

/-- The statement mentions a join if it has one. -/
theorem mentions_join_normal : mentions ["join"] s.normal = !s.joins.isEmpty := by
  cases hjoins : s.joins with
  | nil =>
      have hfrom : Uses ("from" :: ["as"]) s.fromPart := by
        have hsources : Uses ["as"] (listed Source.pieces (s.source :: s.sources)) :=
          uses_listed uses_source _
        have hbody : s.fromBody = listed Source.pieces (s.source :: s.sources) := by
          rw [fromBody, hjoins]
          exact List.append_nil _
        rw [fromPart, hbody]
        exact (uses_word .star (by decide)).append (hsources.mono (by decide))
      have hpieces := hfrom.both (s.uses_wherePart.both
        (s.uses_groupByPart.both (s.uses_orderByPart.both s.uses_limitPart)))
      exact mentions_of_ne (by decide) (select_ne "join" (by decide)) (hpieces.free (by decide))
  | cons j js =>
      refine mentions_of_mem (by decide) (select_ne "join" (by decide))
        (p := keywordPiece "join" (by decide)) ?_ rfl
      have hjoin : keywordPiece "join" (by decide) ∈ s.fromBody := by
        rw [fromBody, hjoins, List.flatMap_cons]
        exact List.mem_append_right _ <| List.mem_append_left _ <|
          List.mem_append_right _ List.mem_cons_self
      exact List.mem_cons_of_mem _ (List.mem_append_left _ hjoin)

end Statement

end IndexAdvisor.Sql
