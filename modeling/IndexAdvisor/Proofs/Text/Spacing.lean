import IndexAdvisor.Proofs.Sql.Extraction
import IndexAdvisor.Proofs.Text.Utf8

/-!
# Spacing

Texts that differ in nothing but their runs of blanks are the same text once each run is written as
one space. Cutting a text at its ends, at commas or into words, and lower-casing it, can be done
before or after: no blank counts as a letter, and no letter becomes a blank.
-/

set_option autoImplicit false

namespace IndexAdvisor.Text

/-- The text goes on with a blank. -/
def blankAhead (cs : List Char) : Bool := cs.head?.any isBlank

/-- A text with each run of blanks written as one space. -/
def collapse : List Char → List Char
  | [] => []
  | c :: cs =>
    if isBlank c then if blankAhead cs then collapse cs else ' ' :: collapse cs
    else c :: collapse cs

/-! ## Runs of blanks -/

section Runs

variable {c : Char} {cs : List Char}

theorem not_blankAhead_cons (hc : isBlank c = false) (cs : List Char) :
    ¬blankAhead (c :: cs) = true := by
  rw [blankAhead, List.head?_cons, Option.any_some, hc]
  exact Bool.false_ne_true

theorem collapse_cons (hc : isBlank c = false) (cs : List Char) :
    collapse (c :: cs) = c :: collapse cs := by
  rw [collapse, hc, if_neg Bool.false_ne_true]

theorem collapse_within (hc : isBlank c = true) (hcs : blankAhead cs = true) :
    collapse (c :: cs) = collapse cs := by
  rw [collapse, if_pos hc, if_pos hcs]

theorem collapse_last (hc : isBlank c = true) (hcs : blankAhead cs = false) :
    collapse (c :: cs) = ' ' :: collapse cs := by
  rw [collapse, if_pos hc, hcs, if_neg Bool.false_ne_true]

theorem dropWhile_of_not_blankAhead (hcs : blankAhead cs = false) : cs.dropWhile isBlank = cs := by
  cases cs with
  | nil => rfl
  | cons d ds =>
      have hd : isBlank d = false := hcs
      rw [List.dropWhile_cons_of_neg (by rw [hd]; exact Bool.false_ne_true)]

/-- A run of blanks is one space. -/
theorem collapse_blank (hc : isBlank c = true) (cs : List Char) :
    collapse (c :: cs) = ' ' :: collapse (cs.dropWhile isBlank) := by
  induction cs generalizing c with
  | nil => exact collapse_last hc rfl
  | cons d ds ih =>
      cases hd : isBlank d with
      | true =>
          have hahead : blankAhead (d :: ds) = true := hd
          rw [collapse_within hc hahead, ih hd, List.dropWhile_cons_of_pos hd]
      | false =>
          have hahead : blankAhead (d :: ds) = false := hd
          rw [collapse_last hc hahead, dropWhile_of_not_blankAhead hahead]

theorem blankAhead_collapse (cs : List Char) : blankAhead (collapse cs) = blankAhead cs := by
  cases cs with
  | nil => rfl
  | cons c cs =>
      cases hc : isBlank c with
      | true =>
          rw [collapse_blank hc]
          exact (hc : isBlank c = true).symm
      | false => rw [collapse_cons hc]; rfl

theorem isEmpty_collapse (cs : List Char) : (collapse cs).isEmpty = cs.isEmpty := by
  cases cs with
  | nil => rfl
  | cons c cs =>
      cases hc : isBlank c with
      | true => rw [collapse_blank hc]; rfl
      | false => rw [collapse_cons hc]; rfl

/-- What holds no blank stays as it is. -/
theorem collapse_append {w : List Char} (hw : ∀ c ∈ w, isBlank c = false) (cs : List Char) :
    collapse (w ++ cs) = w ++ collapse cs := by
  induction w with
  | nil => rfl
  | cons c w ih =>
      rw [List.cons_append, collapse_cons (hw c List.mem_cons_self),
        ih fun d hd => hw d (List.mem_cons_of_mem c hd)]
      rfl

end Runs

/-! ## Cutting -/

theorem not_blankAhead_dropWhile (cs : List Char) : blankAhead (cs.dropWhile isBlank) = false := by
  cases hcs : cs.dropWhile isBlank with
  | nil => rfl
  | cons d ds =>
      have hd := List.head?_dropWhile_not isBlank cs
      rw [hcs] at hd
      exact hd

theorem dropWhile_collapse (cs : List Char) :
    (collapse cs).dropWhile isBlank = collapse (cs.dropWhile isBlank) := by
  cases cs with
  | nil => rfl
  | cons c cs =>
      cases hc : isBlank c with
      | true =>
          rw [collapse_blank hc, List.dropWhile_cons_of_pos hc, List.dropWhile_cons_of_pos rfl,
            dropWhile_of_not_blankAhead (by rw [blankAhead_collapse, not_blankAhead_dropWhile])]
      | false =>
          have hc' : ¬isBlank c = true := by rw [hc]; exact Bool.false_ne_true
          rw [collapse_cons hc, List.dropWhile_cons_of_neg hc', List.dropWhile_cons_of_neg hc',
            collapse_cons hc]

/-- What is taken from the front of a text without a blank is taken however it is spaced. -/
theorem span_collapse {p : Char → Bool} (hp : ∀ c, isBlank c = true → p c = false)
    (cs : List Char) : (collapse cs).takeWhile p = cs.takeWhile p ∧
    (collapse cs).dropWhile p = collapse (cs.dropWhile p) := by
  induction cs with
  | nil => exact ⟨rfl, rfl⟩
  | cons c cs ih =>
      cases hc : isBlank c with
      | true =>
          have hnot : ¬p c = true := by rw [hp c hc]; exact Bool.false_ne_true
          have hspace : ¬p ' ' = true := by rw [hp ' ' rfl]; exact Bool.false_ne_true
          rw [collapse_blank hc, List.takeWhile_cons_of_neg hnot, List.takeWhile_cons_of_neg hspace,
            List.dropWhile_cons_of_neg hnot, List.dropWhile_cons_of_neg hspace]
          exact ⟨rfl, (collapse_blank hc cs).symm⟩
      | false =>
          rw [collapse_cons hc]
          cases hpc : p c with
          | true =>
              rw [List.takeWhile_cons_of_pos hpc, List.takeWhile_cons_of_pos hpc,
                List.dropWhile_cons_of_pos hpc, List.dropWhile_cons_of_pos hpc, ih.1, ih.2]
              exact ⟨rfl, rfl⟩
          | false =>
              have hnot : ¬p c = true := by rw [hpc]; exact Bool.false_ne_true
              rw [List.takeWhile_cons_of_neg hnot, List.takeWhile_cons_of_neg hnot,
                List.dropWhile_cons_of_neg hnot, List.dropWhile_cons_of_neg hnot]
              exact ⟨rfl, (collapse_cons hc cs).symm⟩

/-- What is left of a text is left of it however it is spaced. -/
theorem collapse_suffix {rest cs : List Char} (h : rest <:+ cs) :
    collapse rest <:+ collapse cs := by
  induction cs with
  | nil => exact List.suffix_nil.mp h ▸ List.suffix_rfl
  | cons c cs ih =>
      rcases List.suffix_cons_iff.mp h with rfl | h
      · exact List.suffix_rfl
      · cases hc : isBlank c with
        | false =>
            rw [collapse_cons hc]
            exact (ih h).trans (List.suffix_cons _ _)
        | true =>
            cases hcs : blankAhead cs with
            | true => rw [collapse_within hc hcs]; exact ih h
            | false =>
                rw [collapse_last hc hcs]
                exact (ih h).trans (List.suffix_cons _ _)

theorem dropEndWhile_cons (p : Char → Bool) (c : Char) (cs : List Char) :
    dropEndWhile p (c :: cs) =
      if p c && (dropEndWhile p cs).isEmpty then [] else c :: dropEndWhile p cs := by
  rw [dropEndWhile]
  cases dropEndWhile p cs with
  | nil => cases p c <;> rfl
  | cons d ds => cases p c <;> rfl

/-- What is left of a text begins as the text does. -/
theorem blankAhead_dropEndWhile {p : Char → Bool} {cs : List Char}
    (h : (dropEndWhile p cs).isEmpty = false) : blankAhead (dropEndWhile p cs) = blankAhead cs := by
  cases cs with
  | nil => cases h
  | cons c cs =>
      rw [dropEndWhile_cons] at h ⊢
      split at h
      · cases h
      · rename_i hc
        rw [if_neg hc]
        rfl

/-- What is dropped from the end of a text, blanks among it, is dropped however it is spaced. -/
theorem dropEndWhile_collapse {p : Char → Bool} (hp : ∀ c, isBlank c = true → p c = true)
    (cs : List Char) : dropEndWhile p (collapse cs) = collapse (dropEndWhile p cs) := by
  induction cs with
  | nil => rfl
  | cons c cs ih =>
      rw [dropEndWhile_cons]
      cases hc : isBlank c with
      | false =>
          rw [collapse_cons hc, dropEndWhile_cons, ih, isEmpty_collapse]
          split
          · rfl
          · exact (collapse_cons hc _).symm
      | true =>
          rw [hp c hc, Bool.true_and]
          -- a blank goes only if all behind it goes; otherwise the run that it belongs to stays as
          -- a whole
          cases hrest : (dropEndWhile p cs).isEmpty with
          | true =>
              rw [if_pos rfl]
              rw [List.isEmpty_iff.mp hrest] at ih
              cases hcs : blankAhead cs with
              | true => rw [collapse_within hc hcs, ih]
              | false =>
                  rw [collapse_last hc hcs, dropEndWhile_cons, ih, hp ' ' (by decide)]
                  rfl
          | false =>
              have hahead := blankAhead_dropEndWhile hrest
              rw [if_neg Bool.false_ne_true]
              cases hcs : blankAhead cs with
              | true => rw [collapse_within hc hcs, collapse_within hc (hahead.trans hcs), ih]
              | false =>
                  rw [collapse_last hc hcs, collapse_last hc (hahead.trans hcs), dropEndWhile_cons, ih,
                    isEmpty_collapse, hrest, Bool.and_false, if_neg Bool.false_ne_true]

/-- A piece that is no separator begins as the text does. -/
theorem blankAhead_of_splitOn {sep : Char} (hsep : isBlank sep = false) {cs e : List Char}
    {es : List (List Char)} (h : cs.splitOn sep = e :: es) : blankAhead e = blankAhead cs := by
  cases cs with
  | nil =>
      rw [List.splitOn_nil, List.cons.injEq] at h
      rw [← h.1]
  | cons c cs =>
      rw [List.splitOn_cons_eq_if_modifyHead] at h
      split at h
      · rename_i hc
        obtain rfl : c = sep := beq_iff_eq.mp hc
        obtain rfl := (List.cons.inj h).1
        exact hsep.symm
      · cases hcs : cs.splitOn sep with
        | nil => exact absurd hcs (List.splitOn_ne_nil sep cs)
        | cons d ds =>
            rw [hcs, List.modifyHead_cons] at h
            obtain rfl := (List.cons.inj h).1
            rfl

/-- A text is cut at the same places however it is spaced. -/
theorem splitOn_collapse {sep : Char} (hsep : isBlank sep = false) (cs : List Char) :
    (collapse cs).splitOn sep = (cs.splitOn sep).map collapse := by
  induction cs with
  | nil => rfl
  | cons c cs ih =>
      have hnot {d : Char} (hd : isBlank d = true) : ¬(d == sep) = true := by
        intro h
        rw [beq_iff_eq.mp h, hsep] at hd
        cases hd
      -- the first piece begins as the text does, so a run of blanks is cut nowhere
      obtain ⟨e, es, hcs⟩ := List.exists_cons_of_ne_nil (List.splitOn_ne_nil sep cs)
      have hahead := blankAhead_of_splitOn hsep hcs
      rw [hcs] at ih
      rw [List.splitOn_cons_eq_if_modifyHead, hcs]
      cases hc : isBlank c with
      | false =>
          rw [collapse_cons hc, List.splitOn_cons_eq_if_modifyHead, ih]
          split
          · rfl
          · rw [List.map_cons, List.modifyHead_cons, List.modifyHead_cons, List.map_cons,
              collapse_cons hc]
      | true =>
          rw [if_neg (hnot hc), List.modifyHead_cons, List.map_cons]
          cases hb : blankAhead cs with
          | true => rw [collapse_within hc hb, collapse_within hc (hahead.trans hb), ih, List.map_cons]
          | false =>
              rw [collapse_last hc hb, collapse_last hc (hahead.trans hb),
                List.splitOn_cons_eq_if_modifyHead, if_neg (hnot (by decide)), ih, List.map_cons,
                List.modifyHead_cons]

/-- A letter is a word, or begins the one behind it. -/
theorem words_letter {c : Char} (hc : isBlank c = false) (cs : List Char) : words (c :: cs) =
    if cs.isEmpty || blankAhead cs then [c] :: words cs else (words cs).modifyHead (c :: ·) := by
  rw [words, List.splitOnP_cons_eq_if_modifyHead, hc, if_neg Bool.false_ne_true]
  cases cs with
  | nil => rfl
  | cons d ds =>
      rw [words, List.splitOnP_cons_eq_if_modifyHead]
      show _ = if isBlank d then _ else _
      cases hd : isBlank d with
      | true => rfl
      | false =>
          obtain ⟨e, es, hds⟩ := List.exists_cons_of_ne_nil (List.splitOnP_ne_nil isBlank ds)
          rw [hds]
          rfl

/-- The words of a text are the same however it is spaced. -/
theorem words_collapse (cs : List Char) : words (collapse cs) = words cs := by
  induction cs with
  | nil => rfl
  | cons c cs ih =>
      cases hc : isBlank c with
      | false =>
          rw [collapse_cons hc, words_letter hc, words_letter hc, isEmpty_collapse,
            blankAhead_collapse, ih]
      | true =>
          cases hcs : blankAhead cs with
          | true => rw [collapse_within hc hcs, ih, words_blank hc]
          | false => rw [collapse_last hc hcs, words_blank (by decide), ih, words_blank hc]

/-! ## Letter case -/

/-- The code points of the blanks. -/
def blankPoints : List Nat :=
  [9, 10, 11, 12, 13, 0x20, 0x85, 0xA0, 0x1680, 0x2000, 0x2001, 0x2002, 0x2003, 0x2004, 0x2005,
   0x2006, 0x2007, 0x2008, 0x2009, 0x200A, 0x2028, 0x2029, 0x202F, 0x205F, 0x3000]

theorem isBlank_iff {c : Char} : isBlank c = true ↔ c.toNat ∈ blankPoints := by
  simp only [isBlank, blankPoints, List.mem_cons, List.not_mem_nil, Bool.or_eq_true,
    Bool.and_eq_true, decide_eq_true_eq, beq_iff_eq, or_false]
  omega

/-- What holds of each blank. -/
theorem forall_isBlank {P : Char → Prop} (h : ∀ n ∈ blankPoints, P (Char.ofNat n)) {c : Char}
    (hc : isBlank c = true) : P c := by
  have hP := h c.toNat (isBlank_iff.mp hc)
  rwa [Char.ofNat_toNat] at hP

theorem isWordChar_of_isBlank {c : Char} (hc : isBlank c = true) : isWordChar c = false :=
  forall_isBlank (P := fun c => isWordChar c = false) (by decide +kernel) hc

/-- A blank ends the letters that are looked at for the case of a sigma. -/
theorem not_cased_of_isBlank {c : Char} (hc : isBlank c = true) :
    isCased c = false ∧ isCaseIgnorable c = false :=
  forall_isBlank (P := fun c => isCased c = false ∧ isCaseIgnorable c = false)
    (by decide +kernel) hc

theorem lowerAt_of_isBlank {c : Char} (hc : isBlank c = true) (before after : List Char) :
    lowerAt before c after = [c] := by
  have hfixed : c.toNat ≠ 0x3A3 ∧ c.toNat ≠ 0x130 ∧ lowerChar c = c :=
    forall_isBlank (P := fun c => c.toNat ≠ 0x3A3 ∧ c.toNat ≠ 0x130 ∧ lowerChar c = c)
      (by decide +kernel) hc
  rw [lowerAt, if_neg hfixed.1, if_neg hfixed.2.1, hfixed.2.2]

/-- No letter becomes a blank. -/
theorem isBlank_lowerChar {c : Char} (hc : isBlank c = false) : isBlank (lowerChar c) = false := by
  unfold lowerChar
  split
  · rw [(isBlank_toLower c).1, hc]
  · split
    · rename_i r hr
      -- the lower-case letters of a run of code points lie on one side of each blank
      have htable : ∀ r ∈ caseRuns, ∀ n ∈ blankPoints,
          n < r.lower ∨ r.lower + (r.last - r.first) < n := by decide +kernel
      have hmem := List.mem_of_find?_eq_some hr
      have hrange := List.find?_some hr
      simp only [Bool.and_eq_true, decide_eq_true_eq] at hrange
      rw [← Bool.not_eq_true, isBlank_iff]
      intro hblank
      by_cases hvalid : (r.lower + (c.toNat - r.first)).isValidChar
      · have hpoint : (Char.ofNat (r.lower + (c.toNat - r.first))).toNat =
            r.lower + (c.toNat - r.first) := Utf8.toNat_val_ofNat hvalid
        rw [hpoint] at hblank
        have := htable r hmem _ hblank
        omega
      · rw [Char.ofNat, dif_neg hvalid] at hblank
        exact absurd hblank (by decide)
    · exact hc

theorem exists_lowerAt {c : Char} (hc : isBlank c = false) (before after : List Char) :
    ∃ d ds, lowerAt before c after = d :: ds ∧ ∀ e ∈ d :: ds, isBlank e = false := by
  unfold lowerAt
  split
  · split
    · exact ⟨_, _, rfl, by decide⟩
    · exact ⟨_, _, rfl, by decide⟩
  · split
    · exact ⟨_, _, rfl, by decide⟩
    · refine ⟨_, _, rfl, fun e he => ?_⟩
      rw [List.mem_singleton.mp he]
      exact isBlank_lowerChar hc

theorem blankAhead_lowerAfter (before cs : List Char) :
    blankAhead (lowerAfter before cs) = blankAhead cs := by
  cases cs with
  | nil => rfl
  | cons c cs =>
      rw [lowerAfter]
      cases hc : isBlank c with
      | true => rw [lowerAt_of_isBlank hc]; rfl
      | false =>
          obtain ⟨d, ds, hlower, hletters⟩ := exists_lowerAt hc before cs
          rw [hlower]
          exact (hletters d List.mem_cons_self).trans hc.symm

theorem meetsCased_cons (c : Char) (cs : List Char) :
    meetsCased (c :: cs) = if isCaseIgnorable c then meetsCased cs else isCased c := by
  rw [meetsCased, List.dropWhile_cons]
  cases isCaseIgnorable c <;> rfl

theorem meetsCased_blank {c : Char} (hc : isBlank c = true) (cs : List Char) :
    meetsCased (c :: cs) = false := by
  rw [meetsCased_cons, (not_cased_of_isBlank hc).1, (not_cased_of_isBlank hc).2,
    if_neg Bool.false_ne_true]

theorem meetsCased_collapse (cs : List Char) : meetsCased (collapse cs) = meetsCased cs := by
  induction cs with
  | nil => rfl
  | cons c cs ih =>
      cases hc : isBlank c with
      | true => rw [collapse_blank hc, meetsCased_blank hc, meetsCased_blank rfl]
      | false => rw [collapse_cons hc, meetsCased_cons, meetsCased_cons, ih]

/-- What stands before a text matters to it only as far as the next blank. -/
theorem lowerAfter_collapse {cs before before' : List Char}
    (h : blankAhead cs = true ∨ meetsCased before = meetsCased before') :
    lowerAfter before' (collapse cs) = collapse (lowerAfter before cs) := by
  -- what stands before differs in its spacing, and a sigma looks at it only as far as a blank
  induction cs generalizing before before' with
  | nil => rfl
  | cons c cs ih =>
      cases hc : isBlank c with
      | true =>
          have hlower : lowerAfter before (c :: cs) = c :: lowerAfter (c :: before) cs := by
            rw [lowerAfter, lowerAt_of_isBlank hc]
            rfl
          have hahead := blankAhead_lowerAfter (c :: before) cs
          cases hcs : blankAhead cs with
          | true =>
              rw [collapse_within hc hcs, hlower, collapse_within hc (hahead.trans hcs)]
              exact ih (Or.inl hcs)
          | false =>
              have htail : lowerAfter (' ' :: before') (collapse cs) =
                  collapse (lowerAfter (c :: before) cs) :=
                ih (Or.inr (by rw [meetsCased_blank hc, meetsCased_blank rfl]))
              rw [collapse_last hc hcs, hlower, collapse_last hc (hahead.trans hcs), lowerAfter,
                lowerAt_of_isBlank rfl, htail]
              rfl
      | false =>
          have hbefore : meetsCased before = meetsCased before' :=
            h.resolve_left (not_blankAhead_cons hc cs)
          obtain ⟨d, ds, hlower, hletters⟩ := exists_lowerAt hc before cs
          have hsame : lowerAt before' c (collapse cs) = d :: ds := by
            rw [← hlower, lowerAt, lowerAt, meetsCased_collapse, hbefore]
          have htail : lowerAfter (c :: before') (collapse cs) =
              collapse (lowerAfter (c :: before) cs) :=
            ih (Or.inr (by rw [meetsCased_cons, meetsCased_cons, hbefore]))
          rw [collapse_cons hc, lowerAfter, lowerAfter, hsame, hlower, collapse_append hletters, htail]

/-- **Lower-casing** does not depend on the spacing. -/
theorem lower_collapse (cs : List Char) : lower (collapse cs) = collapse (lower cs) :=
  lowerAfter_collapse (Or.inr rfl)

/-- ASCII letters count the same in either case. -/
theorem cased_toLower (c : Char) : isCased c.toLower = isCased c ∧
    isCaseIgnorable c.toLower = isCaseIgnorable c ∧ lowerChar c.toLower = lowerChar c ∧
    (c.toLower.toNat = 0x3A3 ↔ c.toNat = 0x3A3) ∧ (c.toLower.toNat = 0x130 ↔ c.toNat = 0x130) := by
  by_cases hc : c.toNat < 128
  · exact forall_ascii (P := fun c => isCased c.toLower = isCased c ∧
      isCaseIgnorable c.toLower = isCaseIgnorable c ∧ lowerChar c.toLower = lowerChar c ∧
      (c.toLower.toNat = 0x3A3 ↔ c.toNat = 0x3A3) ∧ (c.toLower.toNat = 0x130 ↔ c.toNat = 0x130))
      (by decide +kernel) hc
  · rw [toLower_of_not_ascii (by omega)]
    exact ⟨rfl, rfl, rfl, Iff.rfl, Iff.rfl⟩

theorem meetsCased_map_toLower (cs : List Char) :
    meetsCased (cs.map Char.toLower) = meetsCased cs := by
  induction cs with
  | nil => rfl
  | cons c cs ih =>
      rw [List.map_cons, meetsCased_cons, meetsCased_cons, ih, (cased_toLower c).1,
        (cased_toLower c).2.1]

theorem lowerAfter_map_toLower (before cs : List Char) :
    lowerAfter (before.map Char.toLower) (cs.map Char.toLower) = lowerAfter before cs := by
  induction cs generalizing before with
  | nil => rfl
  | cons c cs ih =>
      obtain ⟨-, -, hlower, hsigma, hdotted⟩ := cased_toLower c
      have hhead : lowerAt (before.map Char.toLower) c.toLower (cs.map Char.toLower) =
          lowerAt before c cs := by
        simp only [lowerAt, meetsCased_map_toLower, hlower, hsigma, hdotted]
      rw [List.map_cons, lowerAfter, lowerAfter, hhead, ← List.map_cons, ih]

/-- **Lower-casing** does not depend on the case of ASCII letters. -/
theorem lower_map_toLower (cs : List Char) : lower (cs.map Char.toLower) = lower cs :=
  lowerAfter_map_toLower [] cs

end IndexAdvisor.Text
