import IndexAdvisor.Proofs.Sql.Bindings
import IndexAdvisor.Proofs.Sql.Places

/-!
# Aliases of joined tables

A join binds the alias that it declares, unless the join read before covers it: where the word
`join` follows the word `join` of another one, or the table of a join without an alias, it is read
as a name, and what it would have declared is missed.
-/

set_option autoImplicit false

namespace IndexAdvisor.Sql

open IndexAdvisor.Text

/-! ## Words of a join -/

section Words

variable {cs rest : List Char} {o : Nat}

theorem isWordChar_of_foldCase {c : Char} (hc : isNameChar (foldCase c) = true) :
    isWordChar c = true := by
  rcases ascii_or_eq_of_isNameChar hc with hascii | rfl | rfl
  · exact forall_ascii (P := fun c => isNameChar (foldCase c) = true → isWordChar c = true)
      (by decide +kernel) hascii hc
  · decide +kernel
  · decide +kernel

theorem isWordChar_of_letters {k read : List Char} (hk : ∀ c ∈ k, isNameChar c = true)
    (hread : read.map foldCase = k) : ∀ c ∈ read, isWordChar c = true := fun _ hc =>
  isWordChar_of_foldCase (hk _ (hread ▸ List.mem_map_of_mem hc))

/-- At the place `o` of a text behind `before` stands the whole word `join`. -/
def JoinWordAt (before cs : List Char) (o : Nat) : Prop :=
  Free (before ++ cs.take o) ∧
    ∃ rest, cs.drop o = "join".toList ++ rest ∧ EndsName foldCase rest

/-- The word begins at the front of a piece of word characters or behind it. -/
theorem JoinWordAt.past_word {before w : List Char} (hne : w ≠ [])
    (hw : ∀ c ∈ w, isWordChar c = true) (h : JoinWordAt before (w ++ cs) o) (ho : 0 < o) :
    ∃ o', o = w.length + o' ∧ 0 < o' ∧ JoinWordAt (before ++ w) cs o' := by
  have hbeyond : w.length < o := by
    refine Nat.lt_of_not_le fun hle => ?_
    -- within the piece a word character stands before the place
    have hfree := h.1
    rw [List.take_append_of_le_length hle, Free] at hfree
    have htake : w.take o ≠ [] := fun hnil => by
      rcases List.take_eq_nil_iff.mp hnil with ho' | hw'
      · omega
      · exact hne hw'
    rw [List.getLast?_append_of_ne_nil _ htake] at hfree
    obtain ⟨c, hc⟩ := Option.isSome_iff_exists.mp (List.getLast?_isSome.mpr htake)
    rw [hc, Option.any_some, hw c (List.mem_of_mem_take (List.mem_of_getLast? hc))] at hfree
    cases hfree
  obtain ⟨o', rfl⟩ := Nat.exists_eq_add_of_le (Nat.le_of_lt hbeyond)
  refine ⟨o', rfl, by omega, ?_⟩
  rw [JoinWordAt, List.take_length_add_append, List.drop_length_add_append,
    ← List.append_assoc] at h
  exact h

/-- The word does not begin within a gap. -/
theorem JoinWordAt.past_gap {before g : List Char} (hg : ∀ c ∈ g, isBlank c = true)
    (h : JoinWordAt before (g ++ cs) o) :
    ∃ o', o = g.length + o' ∧ JoinWordAt (before ++ g) cs o' := by
  have hbeyond : g.length ≤ o := by
    refine Nat.le_of_not_lt fun hlt => ?_
    obtain ⟨rest, hrest, -⟩ := h.2
    rw [List.drop_append_of_le_length (Nat.le_of_lt hlt), List.drop_eq_getElem_cons hlt] at hrest
    have hj : g[o] = 'j' := (List.cons.inj hrest).1
    have hblank := hg g[o] (List.getElem_mem hlt)
    rw [hj] at hblank
    exact absurd hblank (by decide)
  obtain ⟨o', rfl⟩ := Nat.exists_eq_add_of_le hbeyond
  refine ⟨o', rfl, ?_⟩
  rw [JoinWordAt, List.take_length_add_append, List.drop_length_add_append,
    ← List.append_assoc] at h
  exact h

/-- A name at whose front the word stands is the word. -/
theorem JoinWordAt.eq_name {before n : List Char} (h : JoinWordAt before (n ++ cs) 0)
    (hn : ∀ c ∈ n, isNameChar (foldCase c) = true) (hcs : EndsName foldCase cs) :
    n = "join".toList := by
  obtain ⟨rest, hrest, hends⟩ := h.2
  rw [List.drop_zero] at hrest
  have hself := (span_append (p := fun c => isNameChar (foldCase c)) hn hcs).1
  rw [hrest, (span_append (p := fun c => isNameChar (foldCase c)) (by decide) hends).1] at hself
  exact hself.symm

end Words

/-! ## What a join reads -/

section Parts

variable {cs rest : List Char} {b : List Char × Option (List Char)}

/-- What is passed over behind a joined table: nothing, or a gap and the word `as`. -/
def SkippedAs (s : List Char) : Prop :=
  s = [] ∨ ∃ g a, IsGap g ∧ a.map foldCase = "as".toList ∧ s = g ++ a

/-- What is read as the word behind a joined table: nothing, or a gap and a name. -/
def ReadWord (w rest : List Char) (word : Option (List Char)) : Prop :=
  w = [] ∧ word = none ∨
    ∃ g n, IsGap g ∧ name foldCase (n ++ rest) = some (n, rest) ∧ w = g ++ n ∧
      word = some (lower n)

theorem exists_skipAs (cs : List Char) : ∃ s, SkippedAs s ∧ cs = s ++ skipAs cs := by
  rw [skipAs]
  split
  · rename_i rest h
    obtain ⟨mid, hmid, hend⟩ := Option.bind_eq_some_iff.mp h
    obtain ⟨start, hgap, has⟩ := Option.bind_eq_some_iff.mp hmid
    obtain rfl := eq_of_wordEnd hend
    obtain ⟨g, hg, rfl, -⟩ := blanks_eq_some_iff.mp hgap
    obtain ⟨a, ha, rfl⟩ := letters_iff.mp has
    exact ⟨g ++ a, Or.inr ⟨g, a, hg, ha, rfl⟩, by rw [List.append_assoc]⟩
  · exact ⟨[], Or.inl rfl, rfl⟩

theorem exists_readWord {table : List Char} {r : List Char × List Char} (hr : lower r.1 = table)
    (h : targetWord r = some (b, rest)) : b.1 = table ∧
      ∃ w, skipAs r.2 = w ++ rest ∧ ReadWord w rest b.2 := by
  rw [targetWord] at h
  split at h
  · rename_i n more hread
    obtain ⟨hb, rfl⟩ := Prod.mk.inj (Option.some.inj h)
    obtain ⟨start, hgap, hname⟩ := Option.bind_eq_some_iff.mp hread
    obtain ⟨g, hg, htext, -⟩ := blanks_eq_some_iff.mp hgap
    obtain rfl := (name_eq_some_iff.mp hname).1
    refine ⟨hb ▸ hr, g ++ n, by rw [htext, List.append_assoc], Or.inr ⟨g, n, hg, hname, rfl, ?_⟩⟩
    rw [← hb]
  · obtain ⟨hb, rfl⟩ := Prod.mk.inj (Option.some.inj h)
    exact ⟨hb ▸ hr, [], rfl, Or.inl ⟨rfl, by rw [← hb]⟩⟩

/-- **What is read of a join** is the keyword, a gap, the table, maybe `as` and maybe a word. -/
theorem exists_parts (h : joinTarget? cs = some (b, rest)) :
    ∃ k g t s w, k.map foldCase = "join".toList ∧ IsGap g ∧
      name foldCase (t ++ (s ++ (w ++ rest))) = some (t, s ++ (w ++ rest)) ∧ b.1 = lower t ∧
      SkippedAs s ∧ ReadWord w rest b.2 ∧ cs = k ++ (g ++ (t ++ (s ++ (w ++ rest)))) := by
  rw [joinTarget?_eq] at h
  obtain ⟨⟨t, behind⟩, htable, hword⟩ := Option.bind_eq_some_iff.mp h
  obtain ⟨cs₁, hjoin, htable⟩ := Option.bind_eq_some_iff.mp htable
  obtain ⟨cs₂, hgap, hname⟩ := Option.bind_eq_some_iff.mp htable
  obtain ⟨k, hk, rfl⟩ := letters_iff.mp hjoin
  obtain ⟨g, hg, rfl, -⟩ := blanks_eq_some_iff.mp hgap
  obtain rfl := (name_eq_some_iff.mp hname).1
  obtain ⟨hb, w, hw, hread⟩ := exists_readWord rfl hword
  obtain ⟨s, hs, hskip⟩ := exists_skipAs behind
  obtain rfl : behind = s ++ (w ++ rest) := by rw [← hw]; exact hskip
  exact ⟨k, g, t, s, w, hk, hg, hname, hb, hs, hread, rfl⟩

theorem lower_join : lower "join".toList = "join".toList := by decide +kernel

/-- The word does not begin within a gap and the word `as`. -/
theorem JoinWordAt.past_skippedAs {before s : List Char} {o : Nat} (hs : SkippedAs s)
    (h : JoinWordAt before (s ++ cs) o) :
    ∃ o', o = s.length + o' ∧ JoinWordAt (before ++ s) cs o' := by
  rcases hs with rfl | ⟨g, a, hg, ha, rfl⟩
  · exact ⟨o, (Nat.zero_add o).symm, by rwa [List.append_nil]⟩
  · rw [List.append_assoc g a] at h
    obtain ⟨o', rfl, has⟩ := h.past_gap hg.2
    have hne : a ≠ [] := by
      rintro rfl
      cases ha
    rcases Nat.eq_zero_or_pos o' with rfl | ho'
    · -- `as` does not begin like `join`
      obtain ⟨c, a, rfl⟩ := List.exists_cons_of_ne_nil hne
      obtain ⟨more, hmore, -⟩ := has.2
      obtain rfl : c = 'j' := (List.cons.inj hmore).1
      exact absurd (List.cons.inj ha).1 (by decide)
    · obtain ⟨o₂, rfl, -, hrest⟩ :=
        has.past_word hne (isWordChar_of_letters (by decide) ha) ho'
      exact ⟨o₂, by rw [List.length_append, Nat.add_assoc], by rwa [← List.append_assoc]⟩

/-- The word that is read behind a table is the one that begins within. -/
theorem JoinWordAt.eq_readWord {before w : List Char} {o : Nat} {word : Option (List Char)}
    (hw : ReadWord w rest word) (h : JoinWordAt before (w ++ rest) o) (ho : o < w.length) :
    word = some "join".toList := by
  rcases hw with ⟨rfl, -⟩ | ⟨g, n, hg, hn, rfl, hword⟩
  · exact absurd ho (Nat.not_lt_zero o)
  · obtain ⟨-, hne, hname, hends⟩ := name_eq_some_iff.mp hn
    rw [List.append_assoc g n] at h
    obtain ⟨o', rfl, hlast⟩ := h.past_gap hg.2
    rcases Nat.eq_zero_or_pos o' with rfl | ho'
    · rw [hword, hlast.eq_name hname hends, lower_join]
    · obtain ⟨o₂, rfl, -, -⟩ :=
        hlast.past_word hne (fun c hc => isWordChar_of_foldCase (hname c hc)) ho'
      rw [List.length_append] at ho
      omega

/-- **A join within what another one reads** is its table or the word behind it. -/
theorem eq_join_of_within (h : joinTarget? cs = some (b, rest)) {before : List Char} {o : Nat}
    (hjoin : JoinWordAt before cs o) (ho : 0 < o) (hwithin : o < cs.length - rest.length) :
    b.1 = "join".toList ∨ b.2 = some "join".toList := by
  obtain ⟨k, g, t, s, w, hk, hg, hname, hb, hs, hw, rfl⟩ := exists_parts h
  obtain ⟨-, ht, htname, htends⟩ := name_eq_some_iff.mp hname
  have hkne : k ≠ [] := by
    rintro rfl
    cases hk
  obtain ⟨o₁, rfl, -, hfront⟩ :=
    hjoin.past_word hkne (isWordChar_of_letters (by decide) hk) ho
  obtain ⟨o₂, rfl, htable⟩ := hfront.past_gap hg.2
  rcases Nat.eq_zero_or_pos o₂ with rfl | ho₂
  · rw [htable.eq_name htname htends, lower_join] at hb
    exact Or.inl hb
  · obtain ⟨o₃, rfl, -, hbehind⟩ :=
      htable.past_word ht (fun c hc => isWordChar_of_foldCase (htname c hc)) ho₂
    obtain ⟨o₄, rfl, hword⟩ := hbehind.past_skippedAs hs
    simp only [List.length_append] at hwithin
    exact Or.inr (hword.eq_readWord hw (by omega))

end Parts

/-! ## Joins and their places -/

/-- What the joins of a text name, with the places where they are read. -/
def joinsOf (q : List Char) : List (Match (List Char × Option (List Char))) :=
  allMatches joinTarget? q

/-- The pairs of a text, with the places of their joins. -/
def pairsOf (q : List Char) : List (Match JoinPair) := allMatches joinPair? q

/-- At the place `i` the word `join` stands, and behind it a table and an alias `n`, with `as`
between them or without. -/
def DeclaresAt (q : List Char) (i : Nat) (table n : Word) : Prop :=
  ∃ body rest, OpensAt ["join"] q i body ∧ EndsName foldCase rest ∧
    ((n.chars ≠ "as".toList ∧ ∃ g, IsGap g ∧ body = table.chars ++ (g ++ (n.chars ++ rest))) ∨
      ∃ g g', IsGap g ∧ IsGap g' ∧
        body = table.chars ++ (g ++ ("as".toList ++ (g' ++ (n.chars ++ rest)))))

/-- A join that is read before covers the place: it takes the word `join` for its table, or for the
word behind it. -/
def Taken (q : List Char) (i : Nat) : Prop :=
  ∃ m ∈ joinsOf q, m.start < i ∧ i < m.stop ∧
    (m.answer.1 = "join".toList ∨ m.answer.2 = some "join".toList)

instance (q : List Char) (i : Nat) : Decidable (Taken q i) :=
  inferInstanceAs (Decidable (∃ m ∈ joinsOf q, _))

section Joins

variable {q : List Char} {i : Nat} {table n : Word}

theorem joinTargets_eq (q : List Char) : joinTargets q = (joinsOf q).map Match.answer :=
  map_answer_allMatches.symm

theorem joinPairs_eq (q : List Char) : joinPairs q = (pairsOf q).map Match.answer :=
  map_answer_allMatches.symm

theorem advances_joinTarget? : Advances Prod.snd joinTarget? :=
  advances_joinedTable.bind leaves_targetWord

/-- A keyword is not read where another word stands. -/
theorem keyword_of_ne {k : String} (hk : ∀ a ∈ k.toList, isNameChar a = true)
    (hn : n.chars ≠ k.toList) {rest : List Char} (hrest : EndsName foldCase rest) :
    (anyCase k (n.chars ++ rest)).bind wordEnd = none := by
  rw [Option.eq_none_iff_forall_ne_some]
  intro behind h
  obtain ⟨mid, hread, hend⟩ := Option.bind_eq_some_iff.mp h
  obtain ⟨a, ha, htext⟩ := letters_iff.mp hread
  have hmid := wordEnd_isSome mid
  rw [hend] at hmid
  rcases List.append_eq_append_iff.mp htext with ⟨z, rfl, rfl⟩ | ⟨z, hz, rfl⟩
  · cases z with
    | nil =>
        rw [List.append_nil] at ha
        exact hn ((map_foldCase_word n).symm.trans ha)
    | cons c z =>
        -- the rest would go on with a letter of the keyword
        have hc := hrest c rfl
        have hmem : foldCase c ∈ k.toList :=
          ha ▸ List.mem_map_of_mem (List.mem_append_right _ List.mem_cons_self)
        rw [hk _ hmem] at hc
        cases hc
  · cases z with
    | nil =>
        rw [List.append_nil] at hz
        rw [← map_foldCase_word n, hz] at hn
        exact hn ha
    | cons c z =>
        -- the keyword would end within the word
        have hc : isNameChar c = true :=
          n.isNameChar_of_mem c (hz ▸ List.mem_append_right _ List.mem_cons_self)
        rw [List.cons_append, List.head?_cons, Option.any_some,
          isWordChar_of_isNameChar hc] at hmid
        cases hmid

/-- An alias that is not `as` is not passed over. -/
theorem skipAs_word {g rest : List Char} (hg : IsGap g) (hn : n.chars ≠ "as".toList)
    (hrest : EndsName foldCase rest) :
    skipAs (g ++ (n.chars ++ rest)) = g ++ (n.chars ++ rest) := by
  have hblanks : blanks (g ++ (n.chars ++ rest)) = some (n.chars ++ rest) :=
    blanks_eq_some_iff.mpr ⟨g, hg, rfl, not_blankAhead_word n rest⟩
  rw [skipAs, hblanks, Option.bind_some, keyword_of_ne (by decide) hn hrest]

theorem skipAs_as_gap {g g' : List Char} (hg : IsGap g) (hg' : IsGap g') (cs : List Char) :
    skipAs (g ++ ("as".toList ++ (g' ++ cs))) = g' ++ cs := by
  have hblanks : blanks (g ++ ("as".toList ++ (g' ++ cs))) = some ("as".toList ++ (g' ++ cs)) :=
    blanks_eq_some_iff.mpr ⟨g, hg, rfl, rfl⟩
  have has : anyCase "as" ("as".toList ++ (g' ++ cs)) = some (g' ++ cs) :=
    letters_iff.mpr ⟨"as".toList, by decide, rfl⟩
  have hend : wordEnd (g' ++ cs) = some (g' ++ cs) := by
    obtain ⟨c, g', rfl⟩ := List.exists_cons_of_ne_nil hg'.1
    rw [List.cons_append, wordEnd, isWordChar_of_isBlank (hg'.2 c List.mem_cons_self),
      if_neg Bool.false_ne_true]
  rw [skipAs, hblanks, Option.bind_some, has, Option.bind_some, hend]

/-- Behind a table the alias is read. -/
theorem targetWord_word (table n : Word) {g rest cs : List Char} (hg : IsGap g)
    (hrest : EndsName foldCase rest) (hskip : skipAs cs = g ++ (n.chars ++ rest)) :
    targetWord (table.chars, cs) = some ((table.chars, some n.chars), rest) := by
  have hblanks : blanks (g ++ (n.chars ++ rest)) = some (n.chars ++ rest) :=
    blanks_eq_some_iff.mpr ⟨g, hg, rfl, not_blankAhead_word n rest⟩
  rw [targetWord, hskip, hblanks, Option.bind_some, name_word_append n hrest]
  simp only [lower_word]

/-- **A join that stands at a place** can be read there, with its table and its alias. -/
theorem DeclaresAt.exists_answerAt (h : DeclaresAt q i table n) :
    ∃ rest, answerAt joinTarget? [] q i = some ((table.chars, some n.chars), rest) := by
  obtain ⟨body, rest, hopens, hrest, hform⟩ := h
  -- the table is read up to a gap, and behind it the alias
  obtain ⟨behind, rfl, hends, hword⟩ : ∃ behind, body = table.chars ++ behind ∧
      EndsName foldCase behind ∧
      targetWord (table.chars, behind) = some ((table.chars, some n.chars), rest) := by
    rcases hform with ⟨hn, g, hg, hbody⟩ | ⟨g, g', hg, hg', hbody⟩
    · exact ⟨_, hbody, hg.endsName _, targetWord_word table n hg hrest (skipAs_word hg hn hrest)⟩
    · exact ⟨_, hbody, hg.endsName _, targetWord_word table n hg' hrest (skipAs_as_gap hg hg' _)⟩
  have hahead : blankAhead (table.chars ++ behind) = false := not_blankAhead_word table behind
  obtain ⟨hfree, hkeyword⟩ := (opensAt_iff (by decide) (by decide)).mp ⟨hopens, hahead⟩
  obtain ⟨mid, hjoin, hgap⟩ := Option.bind_eq_some_iff.mp hkeyword
  have hletters : letters foldCase "join".toList (q.drop i) = some mid :=
    letters_iff.mpr ⟨"join".toList, by decide, exactly_eq_some_iff.mp hjoin⟩
  refine ⟨rest, answerAt_eq_some_iff.mpr ⟨hfree, ?_⟩⟩
  have htable : joinedTable foldCase (q.drop i) = some (table.chars, behind) := by
    show (letters foldCase "join".toList (q.drop i)).bind _ = _
    rw [hletters, Option.bind_some]
    show (blanks mid).bind _ = _
    rw [hgap, Option.bind_some]
    exact name_word_append table hends
  rw [joinTarget?_eq, htable, Option.bind_some, hword]

/-- The word `join` of a join stands at its place. -/
theorem DeclaresAt.joinWordAt (h : DeclaresAt q i table n) {start : Nat} (hstart : start ≤ i) :
    JoinWordAt (q.take start) (q.drop start) (i - start) := by
  obtain ⟨body, rest, hopens, -, -⟩ := h
  obtain ⟨hboundary, k, g, hk, hg, hplace⟩ := hopens
  have hplaces : start + (i - start) = i := by omega
  have hfree : Free (q.take i) := by
    rw [hplace, List.append_assoc] at hboundary
    exact (boundary_keyword_iff (by decide) hk).mp hboundary
  obtain rfl : k = "join".toList := by
    cases hk
    rfl
  rw [JoinWordAt, ← List.take_add, List.drop_drop, hplaces]
  exact ⟨hfree, g ++ body, by rw [hplace, List.append_assoc], hg.endsName body⟩

/-- A join that stands within what another one reads is taken. -/
theorem DeclaresAt.taken_of_within (h : DeclaresAt q i table n)
    {m : Match (List Char × Option (List Char))} (hm : m ∈ joinsOf q) (hstart : m.start < i)
    (hstop : i < m.stop) : Taken q i := by
  refine ⟨m, hm, hstart, hstop, ?_⟩
  have hread := readIn_of_mem advances_joinTarget? hm
  refine eq_join_of_within (answerAt_eq_some_iff.mp hread.answer).2
    (h.joinWordAt (Nat.le_of_lt hstart)) (by omega) ?_
  have hle := hread.stop_le
  rw [List.length_drop, List.length_drop]
  omega

/-- **A join that stands at a place** is read there, unless it is taken. -/
theorem DeclaresAt.taken_or_exists (h : DeclaresAt q i table n) :
    Taken q i ∨ ∃ m ∈ joinsOf q, m.start = i ∧ m.answer = (table.chars, some n.chars) := by
  obtain ⟨rest, hanswer⟩ := h.exists_answerAt
  obtain ⟨m, hm, hstart, hstop⟩ := exists_match (f := joinTarget?) rfl hanswer
  rcases Nat.lt_or_eq_of_le hstart with hlt | rfl
  · exact Or.inl (h.taken_of_within hm hlt hstop)
  · refine Or.inr ⟨m, hm, rfl, ?_⟩
    have hread := (readIn_of_mem advances_joinTarget? hm).answer
    rw [hanswer] at hread
    exact (Prod.mk.inj (Option.some.inj hread)).1.symm

/-- Nothing is read at a place that is taken. -/
theorem Taken.start_ne (h : Taken q i) {m : Match (List Char × Option (List Char))}
    (hm : m ∈ joinsOf q) : m.start ≠ i := by
  obtain ⟨m', hm', hstart, hstop, -⟩ := h
  rintro rfl
  have hle := stop_le_start advances_joinTarget? hm' hm hstart
  omega

end Joins

/-! ## What an alias of a join stands for -/

/-- The binding of a join that is read. -/
def bindingOf (m : Match (List Char × Option (List Char))) : List Char × List Char :=
  targetBinding m.answer

/-- The bindings of the FROM entries, and of the joins that are read before the place `i`. -/
def bindingsBefore (q : List Char) (i : Nat) : List (List Char × List Char) :=
  fromBindings q ++ ((joinsOf q).filter fun m => m.start < i).map bindingOf

section Resolve

variable {q : List Char} {i : Nat} {table n : Word}

theorem bindingsOf_eq (q : List Char) :
    bindingsOf q = fromBindings q ++ (joinsOf q).map bindingOf := by
  rw [bindingsOf, joinTargets_eq, List.map_map]
  rfl

/-- The last binding of an alias that no join behind the place binds. -/
theorem lastBound_bindingsOf
    (hlater : ∀ m ∈ joinsOf q, i < m.start → (bindingOf m).1 ≠ n.chars)
    (h : DeclaresAt q i table n) (hmay : mayBeAlias n.chars = true) :
    lastBound n.chars (bindingsOf q) =
      if Taken q i then lastBound n.chars (bindingsBefore q i) else some table.chars := by
  rw [bindingsOf_eq, bindingsBefore, lastBound_append, lastBound_append]
  split
  · rename_i htaken
    rw [lastBound_map_filter fun m hm hnot => hlater m hm ?_]
    have hne := htaken.start_ne hm
    have hnot := of_decide_eq_false hnot
    omega
  · rename_i hfree
    obtain ⟨m, hm, rfl, hanswer⟩ := h.taken_or_exists.resolve_left hfree
    obtain ⟨before, behind, hsplit⟩ := List.append_of_mem hm
    have hbinding : bindingOf m = (n.chars, table.chars) := by
      rw [bindingOf, hanswer, targetBinding, if_pos hmay]
    have hbehind : lastBound n.chars (behind.map bindingOf) = none := by
      rw [lastBound_map_filter (p := fun _ => false)]
      · rw [List.filter_false]
        rfl
      · intro m' hm' _
        -- what is read behind the join begins behind it
        have hordered := pairwise_allMatches advances_joinTarget? q
        rw [show allMatches joinTarget? q = before ++ m :: behind from hsplit,
          List.pairwise_append] at hordered
        have hstop := (List.pairwise_cons.mp hordered.2.1).1 m' hm'
        have hstart := (readIn_of_mem advances_joinTarget? hm).start_lt
        refine hlater m' ?_ (by omega)
        rw [hsplit]
        exact List.mem_append_right _ (List.mem_cons_of_mem m hm')
    rw [hsplit, List.map_append, lastBound_append, List.map_cons, lastBound_cons, hbehind, hbinding,
      if_pos rfl]
    rfl

/-- **The alias of a join.** For every statement and every place of its normalized text where the
word `join` stands with a table and an alias that no later join binds again: the alias stands for
the table, unless a join that is read before takes the word `join` for its table or for the word
behind it. Then the alias stands for what was bound to it before, or for itself. The qualifiers of
the pair that is extracted for the join stand for the same. -/
theorem resolveTable_joined (sql : String)
    (h : DeclaresAt (normalize sql.toList) i table n) (hmay : mayBeAlias n.chars = true)
    (hlater : ∀ m ∈ joinsOf (normalize sql.toList), i < m.start → (bindingOf m).1 ≠ n.chars) :
    (features sql).resolveTable (String.ofList n.chars) =
      (if Taken (normalize sql.toList) i then
        ((lastBound n.chars (bindingsBefore (normalize sql.toList) i)).map String.ofList).getD
          (String.ofList n.chars)
      else String.ofList table.chars) ∧
    (features sql).joinPairs = (pairsOf (normalize sql.toList)).map Match.answer ∧
    ∀ m ∈ pairsOf (normalize sql.toList), m.start = i →
      ∀ qualifier ∈ [m.answer.leftTable, m.answer.rightTable],
        qualifier = String.ofList n.chars → ¬Taken (normalize sql.toList) i →
        (features sql).resolveTable qualifier = String.ofList table.chars := by
  have hresolve := resolveTable_eq sql n.chars
  rw [lastBound_bindingsOf hlater h hmay] at hresolve
  refine ⟨?_, joinPairs_eq _, ?_⟩
  · rw [hresolve]
    split <;> rfl
  · rintro m - - qualifier - rfl hfree
    rw [hresolve, if_neg hfree]
    rfl

/-- Two joins with conditions. -/
theorem resolveTable_joined_customers :
    let sql := "SELECT * FROM orders o JOIN customers AS c ON o.cid = c.id JOIN items i ON i.oid = o.x"
    (features sql).resolveTable "c" = "customers" := by
  intro sql
  have hdeclares : DeclaresAt (normalize sql.toList) 23
      (.ofString "customers" (by decide)) (.ofString "c" (by decide)) :=
    ⟨"customers as c on o.cid = c.id join items i on i.oid = o.x".toList,
      " on o.cid = c.id join items i on i.oid = o.x".toList,
      ⟨by decide +kernel, _, [' '], .word "join", by decide, by decide +kernel⟩,
      by decide, Or.inr ⟨[' '], [' '], by decide, by decide, by decide⟩⟩
  have hlater : ∀ m ∈ joinsOf (normalize sql.toList), 23 < m.start →
      (bindingOf m).1 ≠ "c".toList := by decide +kernel
  have hfree : ¬Taken (normalize sql.toList) 23 := by decide +kernel
  have hresolve := (resolveTable_joined sql hdeclares (by decide) hlater).1
  rwa [if_neg hfree] at hresolve

/-- The word behind the table of a join without an alias is taken for it, also where it is the next
`join`, and what that one declares is missed. -/
theorem resolveTable_joined_cross :
    let sql := "SELECT * FROM a CROSS JOIN b JOIN c d ON d.x = a.y"
    DeclaresAt (normalize sql.toList) 29 (.ofString "c" (by decide)) (.ofString "d" (by decide)) ∧
      mayBeAlias "d".toList = true ∧
      (∀ m ∈ joinsOf (normalize sql.toList), (bindingOf m).1 ≠ "d".toList) ∧
      Taken (normalize sql.toList) 29 ∧ (features sql).resolveTable "d" = "d" := by
  intro sql
  have hdeclares : DeclaresAt (normalize sql.toList) 29
      (.ofString "c" (by decide)) (.ofString "d" (by decide)) :=
    ⟨"c d on d.x = a.y".toList, " on d.x = a.y".toList,
      ⟨by decide +kernel, _, [' '], .word "join", by decide, by decide +kernel⟩,
      by decide, Or.inl ⟨by decide, [' '], by decide, by decide⟩⟩
  exact ⟨hdeclares, by decide, by decide +kernel, by decide +kernel, by decide +kernel⟩

end Resolve

end IndexAdvisor.Sql
