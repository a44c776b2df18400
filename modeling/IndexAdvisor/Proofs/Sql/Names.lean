import IndexAdvisor.Index.Statement
import IndexAdvisor.Proofs.Sql.Layouts

/-!
# Names among the features

What the conditions, joins and orderings of a statement name is never empty and holds no point; only
a word of the FROM clause is taken as it stands. So each table that an alias stands for has all of
its parts if the tables of the FROM clause have them.
-/

set_option autoImplicit false

namespace IndexAdvisor.Sql

open IndexAdvisor.Text

/-! ## Parts of a table name -/

section Paths

variable {cs w : List Char} {p : Char → Bool}

/-- A name without points. -/
def Bare (w : List Char) : Prop := w ≠ [] ∧ '.' ∉ w

/-- A table name without a missing part. -/
def IsPath (cs : List Char) : Prop := [] ∉ Index.segments cs

instance (cs : List Char) : Decidable (IsPath cs) :=
  inferInstanceAs (Decidable ([] ∉ Index.segments cs))

/-- No part of the rest of a table name is missing; `inPart` tells whether the part at hand has
begun. -/
def goesOn : Bool → List Char → Bool
  | inPart, [] => inPart
  | inPart, c :: cs => if c = '.' then inPart && goesOn false cs else goesOn true cs

theorem goesOn_iff {e : List Char} {es : List (List Char)} (h : cs.splitOn '.' = e :: es)
    (inPart : Bool) : goesOn inPart cs = true ↔ (inPart = true ∨ e ≠ []) ∧ [] ∉ es := by
  -- letter by letter, with the first piece and whether it has begun kept general
  induction cs generalizing e es inPart with
  | nil =>
      rw [List.splitOn_nil, List.cons.injEq] at h
      obtain ⟨rfl, rfl⟩ := h
      simp [goesOn]
  | cons c cs ih =>
      obtain ⟨d, ds, hcs⟩ := List.exists_cons_of_ne_nil (List.splitOn_ne_nil '.' cs)
      rw [List.splitOn_cons_eq_if_modifyHead, hcs] at h
      by_cases hc : c = '.'
      · rw [if_pos (beq_iff_eq.mpr hc), List.cons.injEq] at h
        obtain ⟨rfl, rfl⟩ := h
        rw [goesOn, if_pos hc, Bool.and_eq_true, ih hcs]
        simp [eq_comm]
      · rw [if_neg (fun h => hc (beq_iff_eq.mp h)), List.modifyHead_cons, List.cons.injEq] at h
        obtain ⟨rfl, rfl⟩ := h
        rw [goesOn, if_neg hc, ih hcs]
        simp

theorem isPath_iff : IsPath cs ↔ goesOn false cs = true := by
  obtain ⟨e, es, hcs⟩ := List.exists_cons_of_ne_nil (List.splitOn_ne_nil '.' cs)
  have hsegments : Index.segments cs = e :: es := hcs
  rw [IsPath, hsegments, goesOn_iff hcs]
  simp [eq_comm]

theorem goesOn_true (h : goesOn false cs = true) : goesOn true cs = true := by
  cases cs with
  | nil => rfl
  | cons c cs =>
      rw [goesOn] at h ⊢
      split at h
      · cases h
      · rename_i hc
        rwa [if_neg hc]

/-- What is added at the front is no point and begins a part. -/
theorem goesOn_of_dropWhile (hp : p '.' = false) (h : goesOn false (cs.dropWhile p) = true) :
    goesOn false cs = true := by
  induction cs with
  | nil => exact h
  | cons c cs ih =>
      cases hc : p c with
      | false => rwa [List.dropWhile_cons_of_neg (by rw [hc]; exact Bool.false_ne_true)] at h
      | true =>
          have hne : c ≠ '.' := by
            rintro rfl
            rw [hp] at hc
            cases hc
          rw [List.dropWhile_cons_of_pos hc] at h
          rw [goesOn, if_neg hne]
          exact goesOn_true (ih h)

/-- What is added at the end is no point and belongs to the last part. -/
theorem goesOn_of_dropEndWhile (hp : p '.' = false) {inPart : Bool}
    (h : goesOn inPart (dropEndWhile p cs) = true) : goesOn inPart cs = true := by
  induction cs generalizing inPart with
  | nil => exact h
  | cons c cs ih =>
      rw [dropEndWhile_cons] at h
      split at h
      · rename_i hdropped
        rw [Bool.and_eq_true, List.isEmpty_iff] at hdropped
        have hne : c ≠ '.' := by
          rintro rfl
          rw [hp] at hdropped
          cases hdropped.1
        rw [goesOn, if_neg hne]
        exact ih (by rw [hdropped.2]; rfl)
      · rw [goesOn] at h ⊢
        split
        · rename_i hc
          rw [if_pos hc, Bool.and_eq_true] at h
          rw [h.1, Bool.true_and]
          exact ih h.2
        · rename_i hc
          rw [if_neg hc] at h
          exact ih h

theorem Bare.isPath (h : Bare w) : IsPath w := by
  obtain ⟨hne, hpoint⟩ := h
  have hbegun (cs : List Char) (hcs : '.' ∉ cs) : goesOn true cs = true := by
    induction cs with
    | nil => rfl
    | cons c cs ih =>
        rw [List.mem_cons, not_or] at hcs
        rw [goesOn, if_neg (Ne.symm hcs.1), ih hcs.2]
  cases w with
  | nil => exact absurd rfl hne
  | cons c cs =>
      rw [List.mem_cons, not_or] at hpoint
      rw [isPath_iff, goesOn, if_neg (Ne.symm hpoint.1)]
      exact hbegun cs hpoint.2

/-- Where nothing is left all characters have been dropped. -/
theorem forall_of_dropEndWhile_dropWhile (h : dropEndWhile p (cs.dropWhile p) = []) :
    ∀ c ∈ cs, p c = true := by
  have hend (ds : List Char) (hds : dropEndWhile p ds = []) : ∀ c ∈ ds, p c = true := by
    induction ds with
    | nil => exact fun c hc => absurd hc List.not_mem_nil
    | cons d ds ih =>
        rw [dropEndWhile_cons] at hds
        split at hds
        · rename_i hdropped
          rw [Bool.and_eq_true, List.isEmpty_iff] at hdropped
          exact List.forall_mem_cons.mpr ⟨hdropped.1, ih hdropped.2⟩
        · cases hds
  intro c hc
  rw [← List.takeWhile_append_dropWhile (p := p) (l := cs), List.mem_append] at hc
  exact hc.elim (List.all_eq_true.mp List.all_takeWhile c) (hend _ h c)

/-- The first word of an entry has all of its parts if the table of the entry has them. -/
theorem isPath_of_words {entry : List Char} {more : List (List Char)}
    (hwords : words entry = w :: more) (h : ∀ t, entryTable? entry = some t → IsPath t) :
    IsPath w := by
  have hpoint : (fun c => !isTableChar c) '.' = false := by decide
  have hne : w ≠ [] := by
    have hw : w ∈ words entry := hwords ▸ List.mem_cons_self
    have hkept := (List.mem_filter.mp hw).2
    rintro rfl
    cases hkept
  rw [entryTable?, hwords] at h
  -- an entry without a table is one whose first word has no letter, and so no point either
  cases htable : dropEndWhile (fun c => !isTableChar c) (w.dropWhile fun c => !isTableChar c) with
  | nil =>
      have hnone := forall_of_dropEndWhile_dropWhile htable
      refine Bare.isPath ⟨hne, fun hmem => ?_⟩
      exact absurd (hnone '.' hmem) (by decide)
  | cons d t =>
      have ht := isPath_iff.mp (h (d :: t) (by simp only [htable]))
      rw [← htable] at ht
      exact isPath_iff.mpr (goesOn_of_dropWhile hpoint (goesOn_of_dropEndWhile hpoint ht))

end Paths

/-! ## Answers of readers -/

section Answers

variable {α β γ : Type} {P : β → Prop} {Q : γ → Prop} {f : α → Option β}

/-- The answers of a reader have the property. -/
def Answers (P : β → Prop) (f : α → Option β) : Prop := ∀ ⦃a b⦄, f a = some b → P b

theorem Answers.orElse {g : α → Option β} (hf : Answers P f) (hg : Answers P g) :
    Answers P fun a => f a <|> g a := by
  intro a b h
  rcases (Option.orElse_eq_some (f a) (g a) b).mp h with h | ⟨-, h⟩
  · exact hf h
  · exact hg h

theorem Answers.behind {g : β → Option γ} (hg : Answers Q g) (f : α → Option β) :
    Answers Q fun a => (f a).bind g := by
  intro a c h
  obtain ⟨b, -, hb⟩ := Option.bind_eq_some_iff.mp h
  exact hg hb

theorem mem_everyAt {β : Type} {f : List Char → Option (β × List Char)} {b : β} {skip : Nat}
    {inWord : Bool} {cs : List Char} (h : b ∈ everyAt f skip inWord cs) :
    ∃ ds rest, f ds = some (b, rest) := by
  induction cs generalizing skip inWord with
  | nil =>
      cases skip <;> exact absurd h List.not_mem_nil
  | cons c cs ih =>
      cases skip with
      | succ skip => exact ih h
      | zero =>
          rw [everyAt] at h
          split at h
          · rename_i x rest hread
            rcases List.mem_cons.mp h with rfl | h
            · cases inWord with
              | true => cases hread
              | false => exact ⟨c :: cs, rest, hread⟩
            · exact ih h
          · exact ih h

/-- Only the long s and the Kelvin sign are compared as letters of a name that they are not. -/
theorem ascii_or_eq_of_isNameChar {c : Char} (hc : isNameChar (foldCase c) = true) :
    c.toNat < 128 ∨ c = Char.ofNat 0x17F ∨ c = Char.ofNat 0x212A := by
  rw [foldCase] at hc
  split at hc
  · rename_i h
    exact Or.inr (Or.inl (by rw [← h, Char.ofNat_toNat]))
  · split at hc
    · rename_i h
      exact Or.inr (Or.inr (by rw [← h, Char.ofNat_toNat]))
    · exact Or.inl (ascii_of_toLower (toNat_lt_of_isNameChar hc))

/-- A letter of a name stays one in lower case, but for the long s. -/
theorem lowerAt_name {c : Char} (hc : isNameChar (foldCase c) = true) (before after : List Char) :
    ∃ d, lowerAt before c after = [d] ∧ (isNameChar d = true ∨ d = Char.ofNat 0x17F) := by
  rcases ascii_or_eq_of_isNameChar hc with hascii | hspecial
  · have hat : lowerAt before c after = [c.toLower] := by
      rw [lowerAt, if_neg (by omega), if_neg (by omega), lowerChar, if_pos hascii]
    have hname : isNameChar (foldCase c) = true → isNameChar c.toLower = true :=
      forall_ascii (P := fun c => isNameChar (foldCase c) = true → isNameChar c.toLower = true)
        (by decide +kernel) hascii
    exact ⟨c.toLower, hat, Or.inl (hname hc)⟩
  · have hat : lowerAt before c after = [lowerChar c] := by
      rcases hspecial with rfl | rfl <;> rfl
    rw [hat]
    rcases hspecial with rfl | rfl
    · exact ⟨Char.ofNat 0x17F, by decide +kernel, Or.inr rfl⟩
    · exact ⟨'k', by decide +kernel, Or.inl (by decide)⟩

/-- No letter of a name becomes a point, and none is lost. -/
theorem bare_lowerAt {c : Char} (hc : isNameChar (foldCase c) = true) (before after : List Char) :
    Bare (lowerAt before c after) := by
  obtain ⟨d, hat, hd⟩ := lowerAt_name hc before after
  have hpoint : '.' ≠ d := by
    rintro rfl
    exact hd.elim (absurd · (by decide)) (absurd · (by decide))
  rw [hat]
  exact ⟨List.cons_ne_nil d [], fun hmem => hpoint (List.mem_singleton.mp hmem)⟩

theorem point_notMem_lowerAfter {n : List Char} (hn : ∀ c ∈ n, isNameChar (foldCase c) = true)
    (before : List Char) : '.' ∉ lowerAfter before n := by
  induction n generalizing before with
  | nil => exact List.not_mem_nil
  | cons c n ih =>
      rw [lowerAfter, List.mem_append, not_or]
      exact ⟨(bare_lowerAt (hn c List.mem_cons_self) before n).2,
        ih (fun d hd => hn d (List.mem_cons_of_mem c hd)) (c :: before)⟩

/-- A name in lower case is bare. -/
theorem bare_of_name {cs : List Char} {r : List Char × List Char}
    (h : name foldCase cs = some r) : Bare (lower r.1) := by
  have hn : ∀ c ∈ cs.takeWhile fun c => isNameChar (foldCase c), isNameChar (foldCase c) = true :=
    List.all_eq_true.mp List.all_takeWhile
  rw [name] at h
  split at h
  · cases h
  · rename_i hne
    rw [← Option.some.inj h]
    refine ⟨?_, point_notMem_lowerAfter hn []⟩
    cases htake : cs.takeWhile fun c => isNameChar (foldCase c) with
    | nil => exact absurd htake hne
    | cons c n =>
        rw [htake] at hn
        exact List.append_ne_nil_of_left_ne_nil (bare_lowerAt (hn c List.mem_cons_self) [] n).1 _

/-- What a condition names. -/
def Predicate.Named (p : Predicate) : Prop := Bare p.column.toList ∧ ∀ q ∈ p.table, Bare q.toList

theorem bare_of_qualified {cs n : List Char} (h : (qualified cs).1 = some n) : Bare (lower n) := by
  rw [qualified] at h
  split at h
  · rename_i m rest hread
    obtain ⟨ds, -, hname⟩ := Option.bind_eq_some_iff.mp hread
    obtain rfl : m = n := Option.some.inj h
    exact bare_of_name hname
  · cases h

theorem named_predicate? : Answers Predicate.Named predicate? := by
  intro cs p h
  rw [predicate?_eq] at h
  obtain ⟨r, hname, hrest⟩ := Option.bind_eq_some_iff.mp h
  obtain ⟨operator, -, hp⟩ := Option.bind_eq_some_iff.mp hrest
  have hfirst := bare_of_name hname
  split at hp
  · rename_i column hqualified
    rw [← Option.some.inj hp]
    refine ⟨by rw [String.toList_ofList]; exact bare_of_qualified hqualified, fun q hq => ?_⟩
    rw [← Option.some.inj hq, String.toList_ofList]
    exact hfirst
  · rw [← Option.some.inj hp]
    exact ⟨by rw [String.toList_ofList]; exact hfirst, fun q hq => by cases hq⟩

/-- What a join pair names. -/
structure JoinPair.Named (p : JoinPair) : Prop where
  leftTable : Bare p.leftTable.toList
  leftColumn : Bare p.leftColumn.toList
  rightTable : Bare p.rightTable.toList
  rightColumn : Bare p.rightColumn.toList

theorem bare_columnRef : Answers (fun r => Bare (lower r.1.1) ∧ Bare (lower r.1.2)) columnRef := by
  intro cs r h
  obtain ⟨table, htable, h⟩ := Option.bind_eq_some_iff.mp h
  obtain ⟨ds, -, h⟩ := Option.bind_eq_some_iff.mp h
  obtain ⟨column, hcolumn, h⟩ := Option.bind_eq_some_iff.mp h
  have htable := bare_of_name htable
  have hcolumn := bare_of_name hcolumn
  rw [← Option.some.inj h]
  exact ⟨htable, hcolumn⟩

theorem named_equality : Answers (fun r => JoinPair.Named r.1) equality := by
  intro cs r h
  rw [equality_eq] at h
  obtain ⟨ds, -, h⟩ := Option.bind_eq_some_iff.mp h
  obtain ⟨left, hleft, h⟩ := Option.bind_eq_some_iff.mp h
  obtain ⟨es, -, h⟩ := Option.bind_eq_some_iff.mp h
  obtain ⟨right, hright, h⟩ := Option.bind_eq_some_iff.mp h
  obtain ⟨hleftTable, hleftColumn⟩ := bare_columnRef hleft
  obtain ⟨hrightTable, hrightColumn⟩ := bare_columnRef hright
  rw [← Option.some.inj h]
  exact
    { leftTable := by rw [pairOf, String.toList_ofList]; exact hleftTable
      leftColumn := by rw [pairOf, String.toList_ofList]; exact hleftColumn
      rightTable := by rw [pairOf, String.toList_ofList]; exact hrightTable
      rightColumn := by rw [pairOf, String.toList_ofList]; exact hrightColumn }

theorem answers_pastAlias {P : β → Prop} {fold : Char → Char} {tail : List Char → Option β}
    (htail : Answers P tail) : Answers P (pastAlias fold tail) := by
  have hnamed : Answers P fun cs => (name fold cs).bind fun r => tail r.2 :=
    Answers.behind (fun _ _ h => htail h) _
  have has : Answers P fun cs => (blanks cs).bind fun cs =>
      (letters fold "as".toList cs).bind fun cs => (blanks cs).bind fun cs =>
        (name fold cs).bind fun r => tail r.2 :=
    ((hnamed.behind blanks).behind _).behind blanks
  exact has.orElse ((hnamed.behind blanks).orElse htail)

theorem named_joinPairs (cs : List Char) : ∀ p ∈ joinPairs cs, p.Named := by
  intro p hp
  obtain ⟨ds, rest, hread⟩ := mem_everyAt hp
  have hnamed : Answers (fun r => JoinPair.Named r.1) joinPair? :=
    Answers.behind (fun _ _ h => answers_pastAlias named_equality h) _
  exact hnamed hread

/-- A joined table is bare. -/
theorem bare_of_mem_joinTargets {cs : List Char} {target : List Char × Option (List Char)}
    (h : target ∈ joinTargets cs) : Bare target.1 := by
  obtain ⟨ds, rest, hread⟩ := mem_everyAt h
  rw [joinTarget?_eq] at hread
  obtain ⟨r, htable, hword⟩ := Option.bind_eq_some_iff.mp hread
  obtain ⟨es, -, htable⟩ := Option.bind_eq_some_iff.mp htable
  obtain ⟨fs, -, htable⟩ := Option.bind_eq_some_iff.mp htable
  have hbare := bare_of_name htable
  rw [targetWord] at hword
  split at hword
  · rw [← (Prod.mk.inj (Option.some.inj hword)).1]
    exact hbare
  · rw [← (Prod.mk.inj (Option.some.inj hword)).1]
    exact hbare

theorem targetBinding_snd (target : List Char × Option (List Char)) :
    (targetBinding target).2 = target.1 := by
  obtain ⟨table, _ | word⟩ := target
  · rfl
  · rw [targetBinding]
    split <;> rfl

/-- An entry binds a name to its first word. -/
theorem exists_words_of_entryBinding? {ws : List (List Char)} {b : List Char × List Char}
    (h : entryBinding? ws = some b) : ∃ more, ws = b.2 :: more := by
  match ws with
  | [] => cases h
  | [table] =>
      rw [← Option.some.inj h]
      exact ⟨[], rfl⟩
  | table :: second :: more =>
      rw [entryBinding?] at h
      refine ⟨second :: more, ?_⟩
      split at h
      · rw [← Option.some.inj h]
      · split at h <;> rw [← Option.some.inj h]

/-- Each table that is bound has its parts if the tables of the FROM text have theirs. -/
theorem isPath_of_mem_clauseBindings {fromText : Option (List Char)} {cs : List Char}
    (h : ∀ t ∈ (fromText.map entryTables).getD [], IsPath t) {b : List Char × List Char}
    (hb : b ∈ clauseBindings fromText cs) : IsPath b.2 := by
  rw [clauseBindings.eq_def, List.mem_append] at hb
  rcases hb with hb | hb
  · cases fromText with
    | none => exact absurd hb List.not_mem_nil
    | some text =>
        obtain ⟨entry, hentry, hbinding⟩ := List.mem_filterMap.mp hb
        obtain ⟨more, hwords⟩ := exists_words_of_entryBinding? hbinding
        refine isPath_of_words hwords fun t ht => h t ?_
        exact List.mem_filterMap.mpr ⟨entry, hentry, ht⟩
  · obtain ⟨target, htarget, rfl⟩ := List.mem_map.mp hb
    rw [targetBinding_snd]
    exact (bare_of_mem_joinTargets htarget).isPath

theorem mem_bindings_bind {m : Aliases} {bs : List (List Char × List Char)} {b : String × String}
    (h : b ∈ (m.bind bs).bindings) :
    b ∈ m.bindings ∨ ∃ c ∈ bs, b = (String.ofList c.1, String.ofList c.2) := by
  induction bs generalizing m with
  | nil => exact Or.inl h
  | cons c bs ih =>
      rcases ih h with h | ⟨d, hd, hbd⟩
      · rcases List.mem_cons.mp h with rfl | h
        · exact Or.inr ⟨c, List.mem_cons_self, rfl⟩
        · exact Or.inl h
      · exact Or.inr ⟨d, List.mem_cons_of_mem c hd, hbd⟩

/-- A name stands for itself or for a table it is bound to. -/
theorem Aliases.resolve_eq (m : Aliases) (n : String) :
    m.resolve n = n ∨ ∃ b ∈ m.bindings, m.resolve n = b.2 := by
  rw [Aliases.resolve]
  cases h : m.bindings.lookup n with
  | none => exact Or.inl rfl
  | some t =>
      obtain ⟨before, behind, hbindings, -⟩ := List.lookup_eq_some_iff.mp h
      exact Or.inr ⟨(n, t), hbindings ▸ List.mem_append_right before List.mem_cons_self, rfl⟩

end Answers

/-! ## Features -/

/-- What the features of a statement name. -/
structure Features.Named (f : Features) : Prop where
  tables_ne_nil : f.tables ≠ []
  predicates : ∀ p ∈ f.predicates, p.Named
  joinPairs : ∀ p ∈ f.joinPairs, p.Named
  orderColumns : ∀ column ∈ f.orderColumns, isColumnRef column.toList = true
  aliases : (∀ t ∈ f.tables, IsPath t.toList) → ∀ b ∈ f.aliases.bindings, IsPath b.2.toList

/-- What is read of a clause is read of a text that was found. -/
theorem exists_text_of_mem {β : Type} {text? : Option (List Char)} {read : List Char → List β} {x : β}
    (h : x ∈ (text?.map read).getD []) : ∃ text, text? = some text ∧ x ∈ read text := by
  cases text? with
  | none => exact absurd h List.not_mem_nil
  | some text => exact ⟨text, rfl, h⟩

theorem isColumnRef_of_orderColumn? {entry w : List Char} (h : orderColumn? entry = some w) :
    isColumnRef w = true := by
  rw [orderColumn?] at h
  split at h
  · cases h
  · split at h
    · rename_i hcolumn
      rw [Bool.and_eq_true] at hcolumn
      rw [← Option.some.inj h]
      exact hcolumn.1
    · cases h

/-- A table of the FROM text is listed, for the phrase that stands in for it is listed only where
there is none. -/
theorem mem_tables_of_mem_entryTables {sql : String} {t : List Char}
    (h : t ∈ ((fromClause (normalize sql.toList)).map entryTables).getD []) :
    String.ofList t ∈ (features sql).tables := by
  have hne : (((fromClause (normalize sql.toList)).map entryTables).getD []).isEmpty = false := by
    rw [← Bool.not_eq_true, List.isEmpty_iff]
    exact List.ne_nil_of_mem h
  show _ ∈ (if List.isEmpty _ then _ else _)
  rw [hne, if_neg Bool.false_ne_true]
  exact List.mem_map_of_mem h

/-- **What the features of a statement name** is bare, but for the tables of its FROM clause. -/
theorem features_named (sql : String) : (features sql).Named where
  tables_ne_nil := by
    show (if List.isEmpty _ then _ else _) ≠ []
    split
    · exact List.cons_ne_nil _ _
    · rename_i htables
      exact fun h => htables (List.isEmpty_iff.mpr (List.map_eq_nil_iff.mp h))
  predicates := by
    intro p hp
    obtain ⟨text, -, hp⟩ := exists_text_of_mem hp
    obtain ⟨condition, -, hread⟩ := List.mem_filterMap.mp hp
    exact named_predicate? hread
  joinPairs := named_joinPairs _
  orderColumns := by
    intro column hcolumn
    obtain ⟨w, hw, rfl⟩ := List.mem_map.mp hcolumn
    obtain ⟨text, -, hw⟩ := exists_text_of_mem hw
    obtain ⟨entry, -, hread⟩ := List.mem_filterMap.mp hw
    rw [String.toList_ofList]
    exact isColumnRef_of_orderColumn? hread
  aliases := by
    intro htables b hb
    have hentries : ∀ t ∈ ((fromClause (normalize sql.toList)).map entryTables).getD [],
        IsPath t := by
      intro t ht
      have hpath := htables _ (mem_tables_of_mem_entryTables ht)
      rwa [String.toList_ofList] at hpath
    rcases mem_bindings_bind hb with hb | ⟨c, hc, rfl⟩
    · exact absurd hb List.not_mem_nil
    · rw [String.toList_ofList]
      exact isPath_of_mem_clauseBindings hentries hc

end IndexAdvisor.Sql
