import IndexAdvisor.Proofs.Sql.Layouts
import Mathlib.Data.List.Basic

/-!
# What a plain scanner finds

A clause opens at the first place where its keyword stands at a word boundary with a gap behind it,
and its text goes on to the first gap that a closing word stands behind, or to the end of the
statement. The readers find just that.
-/

set_option autoImplicit false

namespace IndexAdvisor.Sql

open IndexAdvisor.Text

/-! ## Places -/

/-- Blanks, at least one. -/
def IsGap (g : List Char) : Prop := g ≠ [] ∧ ∀ c ∈ g, isBlank c = true

instance (g : List Char) : Decidable (IsGap g) := inferInstanceAs (Decidable (_ ∧ ∀ c ∈ g, _))

/-- A word begins or ends between two texts: a word character stands on one side only. -/
def Boundary (before after : List Char) : Prop :=
  before.getLast?.any isWordChar ≠ after.head?.any isWordChar

instance (before after : List Char) : Decidable (Boundary before after) :=
  inferInstanceAs (Decidable (_ ≠ _))

/-- A keyword is spelled out, with gaps between its words. -/
inductive KeywordText : List String → List Char → Prop
  | word (w : String) : KeywordText [w] w.toList
  | words {w v : String} {ws : List String} {g k : List Char} (hg : IsGap g)
      (hk : KeywordText (v :: ws) k) : KeywordText (w :: v :: ws) (w.toList ++ g ++ k)

/-- At the place `i` of `q` the keyword stands, behind a word boundary and in front of a gap, and
behind the gap stands `body`. -/
def OpensAt (kw : List String) (q : List Char) (i : Nat) (body : List Char) : Prop :=
  Boundary (q.take i) (q.drop i) ∧
    ∃ k g, KeywordText kw k ∧ IsGap g ∧ q.drop i = k ++ g ++ body

/-- At the place `j` of `body` a gap stands, in front of a closing word that ends there. -/
def ClosesAt (closing : List String) (body : List Char) (j : Nat) : Prop :=
  ∃ g w rest, IsGap g ∧ w ∈ closing ∧ body.drop j = g ++ w.toList ++ rest ∧
    Boundary w.toList rest

/-- At the place `i` of `q` the keyword stands as a word of its own, in front of `rest`. -/
def StandsAt (kw : List String) (q : List Char) (i : Nat) (rest : List Char) : Prop :=
  Boundary (q.take i) (q.drop i) ∧ ∃ k, KeywordText kw k ∧ q.drop i = k ++ rest ∧ Boundary k rest

/-- The text up to the first place where it closes, or all of it. -/
def FragmentOf (closing : List String) (body t : List Char) : Prop :=
  (∃ j, ClosesAt closing body j ∧ (∀ i < j, ¬ClosesAt closing body i) ∧ t = body.take j) ∨
    (∀ j, ¬ClosesAt closing body j) ∧ t = body

/-- What a plain scanner finds of a clause: nothing if the keyword opens it nowhere, and otherwise
the text from the first character that is no blank behind the first keyword that does. -/
def Scanned (kw closing : List String) (q : List Char) : Option (List Char) → Prop
  | none => ∀ i body, ¬OpensAt kw q i body
  | some t => ∃ i body, OpensAt kw q i body ∧ (∀ j < i, ∀ more, ¬OpensAt kw q j more) ∧
      body ≠ [] ∧ blankAhead body = false ∧ FragmentOf closing body t

/-! ## Words and gaps -/

/-- A word of word characters, at least one. -/
def IsWord (w : String) : Prop := w.toList ≠ [] ∧ ∀ c ∈ w.toList, isWordChar c = true

instance (w : String) : Decidable (IsWord w) := inferInstanceAs (Decidable (_ ∧ _))

section Words

variable {w : String} {cs rest : List Char}

theorem isBlank_of_isWordChar {c : Char} (h : isWordChar c = true) : isBlank c = false := by
  cases hc : isBlank c with
  | false => rfl
  | true => exact absurd h (by rw [isWordChar_of_isBlank hc]; exact Bool.false_ne_true)

theorem letters_eq_some_iff {w : List Char} :
    letters id w cs = some rest ↔ cs = w ++ rest := by
  induction w generalizing cs with
  | nil => exact ⟨fun h => Option.some.inj h, fun h => congrArg some h⟩
  | cons a w ih =>
      cases cs with
      | nil => exact iff_of_false nofun nofun
      | cons c cs =>
          rw [letters, List.cons_append, List.cons.injEq, ← ih]
          by_cases hc : c = a
          · simp [hc]
          · simp [hc]

theorem exactly_eq_some_iff : exactly w cs = some rest ↔ cs = w.toList ++ rest :=
  letters_eq_some_iff

theorem blanks_eq_some_iff :
    blanks cs = some rest ↔ ∃ g, IsGap g ∧ cs = g ++ rest ∧ blankAhead rest = false := by
  constructor
  · intro h
    cases cs with
    | nil => cases h
    | cons c cs =>
        rw [blanks] at h
        split at h
        · rename_i hc
          cases h
          refine ⟨c :: cs.takeWhile isBlank, ⟨List.cons_ne_nil _ _, ?_⟩, ?_,
            not_blankAhead_dropWhile cs⟩
          · exact List.forall_mem_cons.mpr ⟨hc, List.all_eq_true.mp List.all_takeWhile⟩
          · rw [List.cons_append, List.takeWhile_append_dropWhile]
        · cases h
  · rintro ⟨g, ⟨hne, hblank⟩, rfl, hrest⟩
    obtain ⟨c, g, rfl⟩ := List.exists_cons_of_ne_nil hne
    have hg := List.forall_mem_cons.mp hblank
    rw [List.cons_append, blanks, if_pos hg.1, List.dropWhile_append_of_pos hg.2,
      dropWhile_of_not_blankAhead hrest]

theorem wordEnd_isSome (cs : List Char) : (wordEnd cs).isSome = !cs.head?.any isWordChar := by
  cases cs with
  | nil => rfl
  | cons c cs =>
      rw [wordEnd, List.head?_cons, Option.any_some]
      cases isWordChar c <;> rfl

theorem eq_of_wordEnd (h : wordEnd cs = some rest) : rest = cs := by
  cases cs with
  | nil => exact (Option.some.inj h).symm
  | cons c cs =>
      rw [wordEnd] at h
      split at h
      · cases h
      · exact (Option.some.inj h).symm

theorem wordEnd_eq_of_isSome (h : (wordEnd cs).isSome) : wordEnd cs = some cs := by
  obtain ⟨rest, hrest⟩ := Option.isSome_iff_exists.mp h
  rw [hrest, eq_of_wordEnd hrest]

theorem IsWord.getLast? (h : IsWord w) : w.toList.getLast?.any isWordChar = true := by
  obtain ⟨c, hc⟩ := Option.isSome_iff_exists.mp (List.getLast?_isSome.mpr h.1)
  rw [hc, Option.any_some]
  exact h.2 c (List.mem_of_getLast? hc)

/-- A word ends where no word character follows. -/
theorem IsWord.boundary_iff (h : IsWord w) : Boundary w.toList rest ↔ (wordEnd rest).isSome := by
  rw [Boundary, h.getLast?, wordEnd_isSome]
  cases rest.head?.any isWordChar <;> simp

end Words

/-! ## Keywords -/

section Keywords

variable {kw : List String} {cs rest k : List Char}

/-- A keyword begins with a word character and ends in one. -/
theorem KeywordText.ends (hkw : ∀ w ∈ kw, IsWord w) (h : KeywordText kw k) :
    k.head?.any isWordChar = true ∧ k.getLast?.any isWordChar = true := by
  induction h with
  | word w =>
      have hw := hkw w List.mem_cons_self
      obtain ⟨c, cs, hcs⟩ := List.exists_cons_of_ne_nil hw.1
      refine ⟨?_, hw.getLast?⟩
      rw [hcs, List.head?_cons, Option.any_some]
      exact hw.2 c (hcs ▸ List.mem_cons_self)
  | words hg hk ih =>
      rename_i w v ws g k
      have hw := hkw w List.mem_cons_self
      obtain ⟨c, cs, hcs⟩ := List.exists_cons_of_ne_nil hw.1
      have hmore := ih fun u hu => hkw u (List.mem_cons_of_mem w hu)
      have hne : k ≠ [] := by
        rintro rfl
        cases hmore.1
      refine ⟨?_, ?_⟩
      · rw [hcs, List.append_assoc, List.cons_append, List.head?_cons, Option.any_some]
        exact hw.2 c (hcs ▸ List.mem_cons_self)
      · rw [List.getLast?_append_of_ne_nil _ hne]
        exact hmore.2

theorem KeywordText.not_blankAhead (hkw : ∀ w ∈ kw, IsWord w) (h : KeywordText kw k)
    (rest : List Char) : blankAhead (k ++ rest) = false := by
  have hhead := (h.ends hkw).1
  cases k with
  | nil => cases hhead
  | cons c k =>
      exact isBlank_of_isWordChar hhead

/-- **A keyword is read where it is spelled out.** -/
theorem keyword_eq_some_iff (hne : kw ≠ []) (hkw : ∀ w ∈ kw, IsWord w) :
    keyword kw cs = some rest ↔ ∃ k, KeywordText kw k ∧ cs = k ++ rest := by
  constructor
  · intro h
    induction kw generalizing cs with
    | nil => exact absurd rfl hne
    | cons w ws ih =>
        cases ws with
        | nil => exact ⟨w.toList, .word w, exactly_eq_some_iff.mp h⟩
        | cons v ws =>
            obtain ⟨cs₂, hgap, hmore⟩ := Option.bind_eq_some_iff.mp h
            obtain ⟨cs₁, hword, hblanks⟩ := Option.bind_eq_some_iff.mp hgap
            obtain rfl := exactly_eq_some_iff.mp hword
            obtain ⟨g, hg, rfl, -⟩ := blanks_eq_some_iff.mp hblanks
            obtain ⟨k, hk, rfl⟩ := ih (List.cons_ne_nil v ws)
              (fun u hu => hkw u (List.mem_cons_of_mem w hu)) hmore
            exact ⟨w.toList ++ g ++ k, .words hg hk, by simp only [List.append_assoc]⟩
  · rintro ⟨k, hk, rfl⟩
    induction hk with
    | word w => exact exactly_eq_some_iff.mpr rfl
    | words hg hk ih =>
        rename_i w v ws g k
        have hmore : ∀ u ∈ v :: ws, IsWord u := fun u hu => hkw u (List.mem_cons_of_mem w hu)
        have hword : exactly w (w.toList ++ g ++ k ++ rest) = some (g ++ (k ++ rest)) :=
          exactly_eq_some_iff.mpr (by simp only [List.append_assoc])
        have hgap : blanks (g ++ (k ++ rest)) = some (k ++ rest) :=
          blanks_eq_some_iff.mpr ⟨g, hg, rfl, hk.not_blankAhead hmore rest⟩
        show ((exactly w _).bind blanks).bind (keyword (v :: ws)) = some rest
        rw [hword, Option.bind_some, hgap, Option.bind_some]
        exact ih (List.cons_ne_nil v ws) hmore

/-- No keyword is read of nothing. -/
theorem keyword_nil (hne : kw ≠ []) (hkw : ∀ w ∈ kw, IsWord w) : keyword kw [] = none := by
  rw [Option.eq_none_iff_forall_ne_some]
  intro rest hrest
  obtain ⟨k, hk, hnil⟩ := (keyword_eq_some_iff hne hkw).mp hrest
  obtain ⟨rfl, -⟩ := List.append_eq_nil_iff.mp hnil.symm
  cases (hk.ends hkw).1

end Keywords

/-! ## First places -/

section Places

variable {β : Type}

/-- An answer is that of the first place with one. -/
def FirstOf (answer : Nat → Option β) (b : β) : Prop :=
  ∃ i, answer i = some b ∧ ∀ j < i, answer j = none

theorem firstOf_of_some {answer : Nat → Option β} {b c : β} (h : answer 0 = some c) :
    FirstOf answer b ↔ c = b := by
  constructor
  · rintro ⟨i, hi, hbefore⟩
    cases i with
    | zero => exact Option.some.inj (h.symm.trans hi)
    | succ i =>
        rw [hbefore 0 (Nat.succ_pos i)] at h
        cases h
  · rintro rfl
    exact ⟨0, h, nofun⟩

theorem firstOf_of_none {answer : Nat → Option β} {b : β} (h : answer 0 = none) :
    FirstOf answer b ↔ FirstOf (fun i => answer (i + 1)) b := by
  constructor
  · rintro ⟨i, hi, hbefore⟩
    cases i with
    | zero =>
        rw [h] at hi
        cases hi
    | succ i => exact ⟨i, hi, fun j hj => hbefore (j + 1) (Nat.succ_lt_succ hj)⟩
  · rintro ⟨i, hi, hbefore⟩
    refine ⟨i + 1, hi, fun j hj => ?_⟩
    cases j with
    | zero => exact h
    | succ j => exact hbefore j (Nat.lt_of_succ_lt_succ hj)

/-- No word character stands at the end of a text. -/
def Free (before : List Char) : Prop := before.getLast?.any isWordChar = false

instance (before : List Char) : Decidable (Free before) := inferInstanceAs (Decidable (_ = _))

variable {f : List Char → Option β} {b : β}

/-- What `f` answers at a place of a text behind `before`, if the place is free. -/
def answerAt (f : List Char → Option β) (before cs : List Char) (i : Nat) : Option β :=
  if Free (before ++ cs.take i) then f (cs.drop i) else none

theorem answerAt_eq_some_iff {before cs : List Char} {i : Nat} :
    answerAt f before cs i = some b ↔ Free (before ++ cs.take i) ∧ f (cs.drop i) = some b := by
  rw [answerAt]
  split <;> simp [*]

theorem answerAt_zero (before cs : List Char) : answerAt f before cs 0 =
    if before.getLast?.any isWordChar then none else f cs := by
  rw [answerAt, List.take_zero, List.append_nil, List.drop_zero]
  cases hbefore : before.getLast?.any isWordChar with
  | false => exact if_pos hbefore
  | true => exact if_neg fun hfree => Bool.false_ne_true (hfree.symm.trans hbefore)

theorem answerAt_succ (before : List Char) (c : Char) (cs : List Char) (i : Nat) :
    answerAt f before (c :: cs) (i + 1) = answerAt f (before ++ [c]) cs i := by
  rw [answerAt, answerAt, List.take_succ_cons, List.drop_succ_cons, List.append_assoc,
    List.singleton_append]

theorem firstAt_cons_eq (before : List Char) (c : Char) (cs : List Char) :
    firstAt f (before.getLast?.any isWordChar) (c :: cs) =
      (answerAt f before (c :: cs) 0).or
        (firstAt f ((before ++ [c]).getLast?.any isWordChar) cs) := by
  rw [firstAt, answerAt_zero, List.getLast?_concat, Option.any_some]
  split <;> simp_all

/-- **The first answer** is that of the first place that is free and has one. -/
theorem firstAt_eq_some_iff (hnil : f [] = none) (before cs : List Char) :
    firstAt f (before.getLast?.any isWordChar) cs = some b ↔ FirstOf (answerAt f before cs) b := by
  induction cs generalizing before with
  | nil =>
      refine iff_of_false nofun ?_
      rintro ⟨i, hi, -⟩
      rw [answerAt_eq_some_iff, List.drop_nil, hnil] at hi
      cases hi.2
  | cons c cs ih =>
      rw [firstAt_cons_eq]
      cases hzero : answerAt f before (c :: cs) 0 with
      | some b' => rw [firstOf_of_some hzero, Option.some_or, Option.some.injEq]
      | none =>
          rw [firstOf_of_none hzero, Option.none_or, ih]
          simp only [answerAt_succ]

/-- There is none if no free place has an answer. -/
theorem firstAt_eq_none_iff (hnil : f [] = none) (before cs : List Char) :
    firstAt f (before.getLast?.any isWordChar) cs = none ↔ ∀ i, answerAt f before cs i = none := by
  induction cs generalizing before with
  | nil =>
      refine iff_of_true rfl fun i => ?_
      rw [answerAt, List.drop_nil, hnil]
      exact ite_self none
  | cons c cs ih =>
      rw [firstAt_cons_eq, Option.or_eq_none_iff, ih]
      constructor
      · rintro ⟨hzero, hmore⟩ (_ | i)
        · exact hzero
        · rw [answerAt_succ]
          exact hmore i
      · intro h
        refine ⟨h 0, fun i => ?_⟩
        rw [← answerAt_succ]
        exact h (i + 1)

end Places

/-! ## Fragments -/

section Fragments

variable {closing : List String} {cs body t : List Char}

theorem anyWordAhead_iff (hclosing : ∀ w ∈ closing, IsWord w) : anyWordAhead closing cs = true ↔
    ∃ w ∈ closing, ∃ rest, cs = w.toList ++ rest ∧ Boundary w.toList rest := by
  rw [anyWordAhead, List.any_eq_true]
  refine exists_congr fun w => and_congr_right fun hw => ?_
  rw [Option.isSome_bind, Option.any_eq_true]
  refine exists_congr fun rest => ?_
  rw [exactly_eq_some_iff, (hclosing w hw).boundary_iff]

/-- A text closes where a gap is read and a closing word is ahead. -/
theorem closesAt_iff (hclosing : ∀ w ∈ closing, IsWord w) {j : Nat} : ClosesAt closing body j ↔
    ∃ rest, blanks (body.drop j) = some rest ∧ anyWordAhead closing rest = true := by
  simp only [anyWordAhead_iff hclosing]
  constructor
  · rintro ⟨g, w, rest, hg, hw, hbody, hend⟩
    have hword := (KeywordText.word w).not_blankAhead (List.forall_mem_singleton.mpr (hclosing w hw))
    rw [List.append_assoc] at hbody
    exact ⟨w.toList ++ rest, blanks_eq_some_iff.mpr ⟨g, hg, hbody, hword rest⟩, w, hw, rest, rfl,
      hend⟩
  · rintro ⟨more, hblanks, w, hw, rest, rfl, hend⟩
    obtain ⟨g, hg, hbody, -⟩ := blanks_eq_some_iff.mp hblanks
    exact ⟨g, w, rest, hg, hw, by rw [hbody, List.append_assoc], hend⟩

theorem closesAt_cons_zero (hclosing : ∀ w ∈ closing, IsWord w) (c : Char) (cs : List Char) :
    ClosesAt closing (c :: cs) 0 ↔
      (isBlank c && anyWordAhead closing (cs.dropWhile isBlank)) = true := by
  rw [closesAt_iff hclosing, List.drop_zero, blanks]
  cases isBlank c <;> simp

theorem closesAt_cons_succ (c : Char) (cs : List Char) (j : Nat) :
    ClosesAt closing (c :: cs) (j + 1) ↔ ClosesAt closing cs j := by
  rw [ClosesAt, List.drop_succ_cons, ClosesAt]

/-- A text that does not close with its first character goes on with it. -/
theorem fragmentOf_cons {c : Char} (h : ¬ClosesAt closing (c :: cs) 0) :
    FragmentOf closing (c :: cs) t ↔ ∃ more, FragmentOf closing cs more ∧ t = c :: more := by
  constructor
  · rintro (⟨j, hj, hbefore, rfl⟩ | ⟨hnone, rfl⟩)
    · cases j with
      | zero => exact absurd hj h
      | succ j =>
          refine ⟨cs.take j, Or.inl ⟨j, (closesAt_cons_succ c cs j).mp hj, fun i hi => ?_, rfl⟩, rfl⟩
          rw [← closesAt_cons_succ c]
          exact hbefore (i + 1) (Nat.succ_lt_succ hi)
    · refine ⟨cs, Or.inr ⟨fun j => ?_, rfl⟩, rfl⟩
      rw [← closesAt_cons_succ c]
      exact hnone (j + 1)
  · rintro ⟨more, ⟨j, hj, hbefore, rfl⟩ | ⟨hnone, rfl⟩, rfl⟩
    · refine Or.inl ⟨j + 1, (closesAt_cons_succ c cs j).mpr hj, fun i hi => ?_, rfl⟩
      cases i with
      | zero => exact h
      | succ i =>
          rw [closesAt_cons_succ]
          exact hbefore i (Nat.lt_of_succ_lt_succ hi)
    · refine Or.inr ⟨fun j => ?_, rfl⟩
      cases j with
      | zero => exact h
      | succ j =>
          rw [closesAt_cons_succ]
          exact hnone j

/-- **The text up to a closing word** is the fragment. -/
theorem fragmentOf_iff (hclosing : ∀ w ∈ closing, IsWord w) :
    FragmentOf closing body t ↔ upTo closing body = t := by
  induction body generalizing t with
  | nil =>
      have hnone (j : Nat) : ¬ClosesAt closing [] j := by
        rw [closesAt_iff hclosing, List.drop_nil]
        rintro ⟨rest, hrest, -⟩
        cases hrest
      constructor
      · rintro (⟨j, hj, -⟩ | ⟨-, rfl⟩)
        · exact absurd hj (hnone j)
        · rfl
      · rintro rfl
        exact Or.inr ⟨hnone, rfl⟩
  | cons c cs ih =>
      have hzero := closesAt_cons_zero hclosing c cs
      by_cases hclose : ClosesAt closing (c :: cs) 0
      · rw [upTo, if_pos (hzero.mp hclose)]
        constructor
        · rintro (⟨j, -, hbefore, rfl⟩ | ⟨hnone, -⟩)
          · cases j with
            | zero => rfl
            | succ j => exact absurd hclose (hbefore 0 (Nat.succ_pos j))
          · exact absurd hclose (hnone 0)
        · rintro rfl
          exact Or.inl ⟨0, hclose, fun i hi => absurd hi (Nat.not_lt_zero i), rfl⟩
      · rw [upTo, if_neg fun h => hclose (hzero.mpr h), fragmentOf_cons hclose]
        constructor
        · rintro ⟨more, hmore, rfl⟩
          rw [ih.mp hmore]
        · rintro rfl
          exact ⟨upTo closing cs, ih.mpr rfl, rfl⟩

end Fragments

/-! ## Clauses -/

section Clauses

variable {kw closing : List String} {q body t : List Char} {i : Nat}

/-- The place of a keyword is at a word boundary exactly if it is free. -/
theorem boundary_keyword_iff (hkw : ∀ w ∈ kw, IsWord w) {k rest : List Char}
    (hk : KeywordText kw k) : Boundary (q.take i) (k ++ rest) ↔ Free (q.take i) := by
  have hhead := (hk.ends hkw).1
  cases k with
  | nil => cases hhead
  | cons c k =>
      rw [List.head?_cons] at hhead
      rw [Boundary, List.cons_append, List.head?_cons, hhead, Free]
      cases (q.take i).getLast?.any isWordChar <;> simp

/-- A clause opens where its keyword is read and a gap behind it. -/
theorem opensAt_iff (hne : kw ≠ []) (hkw : ∀ w ∈ kw, IsWord w) :
    (OpensAt kw q i body ∧ blankAhead body = false) ↔
      Free (q.take i) ∧ (keyword kw (q.drop i)).bind blanks = some body := by
  constructor
  · rintro ⟨⟨hboundary, k, g, hk, hg, hplace⟩, hbody⟩
    rw [hplace, List.append_assoc] at hboundary ⊢
    refine ⟨(boundary_keyword_iff hkw hk).mp hboundary, ?_⟩
    rw [(keyword_eq_some_iff hne hkw).mpr ⟨k, hk, rfl⟩, Option.bind_some]
    exact blanks_eq_some_iff.mpr ⟨g, hg, rfl, hbody⟩
  · rintro ⟨hfree, h⟩
    obtain ⟨more, hkeyword, hblanks⟩ := Option.bind_eq_some_iff.mp h
    obtain ⟨k, hk, hplace⟩ := (keyword_eq_some_iff hne hkw).mp hkeyword
    obtain ⟨g, hg, rfl, hbody⟩ := blanks_eq_some_iff.mp hblanks
    refine ⟨⟨?_, k, g, hk, hg, by rw [hplace, List.append_assoc]⟩, hbody⟩
    rw [hplace]
    exact (boundary_keyword_iff hkw hk).mpr hfree

/-- A gap can be taken as far as it goes, and something stands behind it if the statement does not
end in a blank. -/
theorem OpensAt.dropWhile (hq : ∀ c ∈ q.getLast?, isBlank c = false) (h : OpensAt kw q i body) :
    OpensAt kw q i (body.dropWhile isBlank) ∧ body.dropWhile isBlank ≠ [] := by
  obtain ⟨hboundary, k, g, hk, hg, hplace⟩ := h
  have hgap : IsGap (g ++ body.takeWhile isBlank) :=
    ⟨fun hnil => hg.1 (List.append_eq_nil_iff.mp hnil).1,
      List.forall_mem_append.mpr ⟨hg.2, List.all_eq_true.mp List.all_takeWhile⟩⟩
  have hwhole : q.drop i = k ++ (g ++ body.takeWhile isBlank) ++ body.dropWhile isBlank := by
    rw [hplace, List.append_assoc, List.append_assoc, List.append_assoc,
      List.takeWhile_append_dropWhile]
  refine ⟨⟨hboundary, k, _, hk, hgap, hwhole⟩, fun hnil => ?_⟩
  -- otherwise the gap would end the statement
  rw [hnil, List.append_nil] at hwhole
  obtain ⟨c, hc⟩ := Option.isSome_iff_exists.mp (List.getLast?_isSome.mpr hgap.1)
  have hlast : q.getLast? = some c := by
    rw [← List.take_append_drop i q, hwhole, ← List.append_assoc,
      List.getLast?_append_of_ne_nil _ hgap.1, hc]
  have hblank := hgap.2 c (List.mem_of_getLast? hc)
  rw [hq c hlast] at hblank
  cases hblank

/-- What reads a clause where it opens. -/
def clauseReader (kw closing : List String) (cs : List Char) : Option (List Char) :=
  ((keyword kw cs).bind blanks).bind (fragment closing)

/-- What reads a keyword that stands as a word of its own. -/
def keywordReader (kw : List String) (cs : List Char) : Option (List Char) :=
  (keyword kw cs).bind wordEnd

theorem clauseReader_nil (hne : kw ≠ []) (hkw : ∀ w ∈ kw, IsWord w) :
    clauseReader kw closing [] = none := by
  rw [clauseReader, keyword_nil hne hkw]
  rfl

theorem keywordReader_nil (hne : kw ≠ []) (hkw : ∀ w ∈ kw, IsWord w) :
    keywordReader kw [] = none := by
  rw [keywordReader, keyword_nil hne hkw]
  rfl

/-- What is read of a clause at a place. -/
theorem answerAt_clause_iff (hne : kw ≠ []) (hkw : ∀ w ∈ kw, IsWord w)
    (hclosing : ∀ w ∈ closing, IsWord w) :
    answerAt (clauseReader kw closing) [] q i = some t ↔
      ∃ body, OpensAt kw q i body ∧ body ≠ [] ∧ blankAhead body = false ∧
        FragmentOf closing body t := by
  rw [answerAt_eq_some_iff, List.nil_append, clauseReader, Option.bind_eq_some_iff]
  constructor
  · rintro ⟨hfree, body, hbody, hfragment⟩
    obtain ⟨hopens, hblank⟩ := (opensAt_iff hne hkw).mpr ⟨hfree, hbody⟩
    cases body with
    | nil => cases hfragment
    | cons c cs =>
        exact ⟨c :: cs, hopens, List.cons_ne_nil c cs, hblank,
          (fragmentOf_iff hclosing).mpr (Option.some.inj hfragment)⟩
  · rintro ⟨body, hopens, hbodyNe, hblank, hfragment⟩
    obtain ⟨hfree, hbody⟩ := (opensAt_iff hne hkw).mp ⟨hopens, hblank⟩
    obtain ⟨c, cs, rfl⟩ := List.exists_cons_of_ne_nil hbodyNe
    exact ⟨hfree, c :: cs, hbody, congrArg some ((fragmentOf_iff hclosing).mp hfragment)⟩

/-- Nothing is read at a place at which the clause does not open. -/
theorem answerAt_clause_eq_none_iff (hne : kw ≠ []) (hkw : ∀ w ∈ kw, IsWord w)
    (hclosing : ∀ w ∈ closing, IsWord w) (hq : ∀ c ∈ q.getLast?, isBlank c = false) :
    answerAt (clauseReader kw closing) [] q i = none ↔ ∀ body, ¬OpensAt kw q i body := by
  rw [Option.eq_none_iff_forall_ne_some]
  constructor
  · intro h body hopens
    obtain ⟨hwhole, hbodyNe⟩ := hopens.dropWhile hq
    exact h _ ((answerAt_clause_iff hne hkw hclosing).mpr ⟨_, hwhole, hbodyNe,
      not_blankAhead_dropWhile body, (fragmentOf_iff hclosing).mpr rfl⟩)
  · intro h t ht
    obtain ⟨body, hopens, -⟩ := (answerAt_clause_iff hne hkw hclosing).mp ht
    exact h body hopens

/-- **A clause is what a plain scanner finds** in a statement that does not end in a blank. -/
theorem scanned_iff (hne : kw ≠ []) (hkw : ∀ w ∈ kw, IsWord w)
    (hclosing : ∀ w ∈ closing, IsWord w) (hq : ∀ c ∈ q.getLast?, isBlank c = false)
    (r : Option (List Char)) : Scanned kw closing q r ↔ r = clause kw closing q := by
  cases r with
  | none =>
      rw [eq_comm, clause]
      refine Iff.trans ?_ (firstAt_eq_none_iff (clauseReader_nil hne hkw) [] q).symm
      exact forall_congr' fun i => (answerAt_clause_eq_none_iff hne hkw hclosing hq).symm
  | some t =>
      rw [eq_comm, clause]
      refine Iff.trans ?_ (firstAt_eq_some_iff (clauseReader_nil hne hkw) [] q).symm
      refine exists_congr fun i => ?_
      simp only [answerAt_clause_iff hne hkw hclosing,
        answerAt_clause_eq_none_iff hne hkw hclosing hq]
      constructor
      · rintro ⟨body, hopens, hbefore, hbody⟩
        exact ⟨⟨body, hopens, hbody⟩, hbefore⟩
      · rintro ⟨⟨body, hopens, hbody⟩, hbefore⟩
        exact ⟨body, hopens, hbefore, hbody⟩

/-- A keyword ends where no word character follows. -/
theorem keyword_boundary_iff (hkw : ∀ w ∈ kw, IsWord w) {k rest : List Char}
    (hk : KeywordText kw k) : Boundary k rest ↔ (wordEnd rest).isSome := by
  rw [Boundary, (hk.ends hkw).2, wordEnd_isSome]
  cases rest.head?.any isWordChar <;> simp

/-- A clause opens where its keyword stands with a gap behind it. -/
theorem opensAt_iff_standsAt (hkw : ∀ w ∈ kw, IsWord w) :
    OpensAt kw q i body ↔ ∃ g, IsGap g ∧ StandsAt kw q i (g ++ body) := by
  constructor
  · rintro ⟨hboundary, k, g, hk, hg, hplace⟩
    refine ⟨g, hg, hboundary, k, hk, by rw [hplace, List.append_assoc], ?_⟩
    obtain ⟨c, g, rfl⟩ := List.exists_cons_of_ne_nil hg.1
    rw [keyword_boundary_iff hkw hk, wordEnd_isSome, List.cons_append, List.head?_cons,
      Option.any_some, isWordChar_of_isBlank (hg.2 c List.mem_cons_self)]
    rfl
  · rintro ⟨g, hg, hboundary, k, hk, hplace, -⟩
    exact ⟨hboundary, k, g, hk, hg, by rw [hplace, List.append_assoc]⟩

/-- A keyword that stands at a place is read there. -/
theorem standsAt_iff (hne : kw ≠ []) (hkw : ∀ w ∈ kw, IsWord w) :
    StandsAt kw q i body ↔ answerAt (keywordReader kw) [] q i = some body := by
  simp only [answerAt_eq_some_iff, List.nil_append, keywordReader, Option.bind_eq_some_iff,
    keyword_eq_some_iff hne hkw]
  constructor
  · rintro ⟨hboundary, k, hk, hplace, hend⟩
    rw [hplace] at hboundary
    rw [keyword_boundary_iff hkw hk] at hend
    exact ⟨(boundary_keyword_iff hkw hk).mp hboundary, body, ⟨k, hk, hplace⟩,
      wordEnd_eq_of_isSome hend⟩
  · rintro ⟨hfree, rest, ⟨k, hk, hplace⟩, hend⟩
    obtain rfl := eq_of_wordEnd hend
    refine ⟨?_, k, hk, hplace, ?_⟩
    · rw [hplace]
      exact (boundary_keyword_iff hkw hk).mpr hfree
    · rw [keyword_boundary_iff hkw hk, hend]
      rfl

/-- **A statement mentions a keyword** that stands somewhere. -/
theorem mentions_iff (hne : kw ≠ []) (hkw : ∀ w ∈ kw, IsWord w) :
    mentions kw q = true ↔ ∃ i rest, StandsAt kw q i rest := by
  rw [mentions, Option.isSome_iff_ne_none, Ne]
  refine (not_congr (firstAt_eq_none_iff (keywordReader_nil hne hkw) [] q)).trans ?_
  rw [not_forall]
  refine exists_congr fun i => ?_
  rw [← Ne, Option.ne_none_iff_exists']
  exact exists_congr fun rest => (standsAt_iff hne hkw).symm

end Clauses

end IndexAdvisor.Sql
