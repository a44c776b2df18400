import IndexAdvisor.Proofs.Json.Passage

/-!
# Values that are kept

A value that is passed over may be kept as well, and ends where it is passed over to, unless it
holds what is refused only where it is kept: a number that is too large, a surrogate without its
other half, or arrays and objects that are nested too deeply.
-/

set_option autoImplicit false

namespace IndexAdvisor.Json

/-! ## Refusals -/

/-- The flaws of a value that may be passed over, but not kept. -/
def Flaw.isUnkept : Flaw → Bool
  | .tooLarge => true
  | .loneSurrogate => true
  | .halfPair => true
  | .tooDeep => true
  | _ => false

/-- So are the reasons with these flaws. -/
def Reason.isUnkept : Reason → Bool
  | .flaw f => f.isUnkept
  | _ => false

/-- Reading stopped at what may be passed over. -/
def Unkept (s : Stop) : Prop := s.reason.isUnkept = true

section UpTo

variable {ε β γ : Type} {R : ε → Prop} {P : β → Prop} {Q : γ → Prop} {x : Except ε β}

/-- What an operation gives is as it should be, up to some refusals. -/
def UpTo (R : ε → Prop) (P : β → Prop) : Except ε β → Prop
  | .ok b => P b
  | .error fault => R fault

theorem UpTo.bind {f : β → Except ε γ} (h : UpTo R P x)
    (hf : ∀ b, x = .ok b → P b → UpTo R Q (f b)) : UpTo R Q (x >>= f) := by
  cases x with
  | ok b => exact hf b rfl h
  | error fault => exact h

theorem UpTo.map {f : β → γ} (h : UpTo R P x) (hf : ∀ b, x = .ok b → P b → Q (f b)) :
    UpTo R Q (x.map f) := by
  cases x with
  | ok b => exact hf b rfl h
  | error fault => exact h

theorem UpTo.imp {R' : ε → Prop} (h : UpTo R P x) (hR : ∀ fault, R fault → R' fault) :
    UpTo R' P x := by
  cases x with
  | ok b => exact h
  | error fault => exact hR fault h

end UpTo

/-! ## Lengths -/

section Lengths

variable {cs ds rest : List Char}

theorem length_lt_of_skipSpace {c : Char} (h : skipSpace cs = c :: rest) :
    rest.length < cs.length := by
  have hle : (skipSpace cs).length ≤ cs.length := (List.dropWhile_suffix _).length_le
  rw [h] at hle
  exact hle

theorem length_lt_of_skipQuotedWithin {bound : List Char}
    (h : skipQuotedWithin bound cs = .ok rest) : rest.length < cs.length := by
  induction bound generalizing cs with
  | nil => cases h
  | cons b bound ih =>
      obtain ⟨⟨isClosed, ds⟩, hcharacter, h⟩ := bind_eq_ok_iff.mp h
      have hlt : ds.length < cs.length := length_skipCharacter_lt hcharacter
      cases isClosed with
      | true =>
          cases h
          exact hlt
      | false => exact (ih h).trans hlt

theorem length_le_of_readWord {ws : List Char} (h : readWord ws cs = .ok rest) :
    rest.length ≤ cs.length := by
  induction ws generalizing cs with
  | nil =>
      cases h
      exact Nat.le_refl _
  | cons w ws ih =>
      cases cs with
      | nil => cases h
      | cons c cs =>
          rw [readWord] at h
          split at h
          · exact (ih h).trans (Nat.le_succ _)
          · cases h

theorem length_lt_of_readDigits {atEnd : Flaw} {r : List Char × List Char}
    (h : readDigits atEnd cs = .ok r) : r.2.length < cs.length := by
  cases cs with
  | nil => cases h
  | cons c cs =>
      rw [readDigits] at h
      split at h
      · cases h
        exact Nat.lt_succ_of_le (List.dropWhile_suffix _).length_le
      · cases h

theorem length_lt_of_readWholePart {atEnd : Flaw} {r : List Char × List Char}
    (h : readWholePart atEnd cs = .ok r) : r.2.length < cs.length := by
  obtain ⟨⟨ds, rest⟩, hdigits, h⟩ := bind_eq_ok_iff.mp h
  have hlt : rest.length < cs.length := length_lt_of_readDigits hdigits
  dsimp only at h
  split at h
  · cases h
  · cases h
    exact hlt

theorem length_le_of_readFractionPart {atEnd : Flaw} {r : List Char × List Char}
    (h : readFractionPart atEnd cs = .ok r) : r.2.length ≤ cs.length := by
  unfold readFractionPart at h
  split at h
  · exact Nat.le_succ_of_le (length_lt_of_readDigits h).le
  · cases h
    exact Nat.le_refl _

theorem length_readSign_le (cs : List Char) : (readSign cs).2.length ≤ cs.length := by
  unfold readSign
  split
  · exact Nat.le_succ _
  · exact Nat.le_succ _
  · exact Nat.le_refl _

theorem length_le_of_readExponent {atEnd : Flaw} {r : Option (Bool × List Char) × List Char}
    (h : readExponent atEnd cs = .ok r) : r.2.length ≤ cs.length := by
  cases cs with
  | nil =>
      cases h
      exact Nat.le_refl _
  | cons c cs =>
      simp only [readExponent] at h
      split at h
      · obtain ⟨ds, hds, h⟩ := bind_eq_ok_iff.mp h
        cases h
        have hlt := length_lt_of_readDigits hds
        have hle := length_readSign_le cs
        exact (hlt.trans_le hle).le.trans (Nat.le_succ _)
      · cases h
        exact Nat.le_refl _

theorem length_lt_of_readNumeral {atEnd : Flaw} {r : Numeral × List Char}
    (h : readNumeral atEnd cs = .ok r) : r.2.length < cs.length := by
  obtain ⟨whole, hwhole, h⟩ := bind_eq_ok_iff.mp h
  obtain ⟨fraction, hfraction, h⟩ := bind_eq_ok_iff.mp h
  obtain ⟨exponent, hexponent, h⟩ := bind_eq_ok_iff.mp h
  cases h
  refine (length_le_of_readExponent hexponent).trans_lt <|
    (length_le_of_readFractionPart hfraction).trans_lt <|
      (length_lt_of_readWholePart hwhole).trans_le ?_
  -- what is left of a sign
  split
  · exact Nat.le_succ _
  · exact Nat.le_refl _

theorem length_lt_of_skipScalar (h : skipScalar cs = .ok rest) : rest.length < cs.length := by
  unfold skipScalar at h
  split at h
  · cases h
  · exact Nat.lt_succ_of_le (length_le_of_readWord h)
  · exact Nat.lt_succ_of_le (length_le_of_readWord h)
  · exact Nat.lt_succ_of_le (length_le_of_readWord h)
  · exact (length_lt_of_skipQuotedWithin h).trans (Nat.lt_succ_self _)
  · split at h
    · obtain ⟨r, hnumeral, rfl⟩ := map_eq_ok_iff.mp h
      exact length_lt_of_readNumeral hnumeral
    · cases h

theorem length_lt_of_readColon (h : readColon cs = .ok rest) : rest.length < cs.length := by
  rw [readColon] at h
  split at h
  · cases h
  · rename_i c ds hcs
    split at h
    · cases h
      exact length_lt_of_skipSpace hcs
    · cases h

theorem length_lt_of_skipName (h : skipName cs = .ok rest) : rest.length < cs.length := by
  rw [skipName] at h
  split at h
  · cases h
  · rename_i c ds hcs
    split at h
    · exact (length_lt_of_skipQuotedWithin h).trans (length_lt_of_skipSpace hcs)
    · cases h

theorem length_le_of_skipFront {o : Opened} (h : skipFront o cs = .ok rest) :
    rest.length ≤ cs.length := by
  cases o with
  | array =>
      cases h
      exact Nat.le_refl _
  | object =>
      obtain ⟨ds, hname, hcolon⟩ := bind_eq_ok_iff.mp h
      exact ((length_lt_of_readColon hcolon).trans (length_lt_of_skipName hname)).le

theorem length_le_of_skipOpening {close : Char} {atEnd : Flaw} {r : Bool × List Char}
    (h : skipOpening close atEnd cs = .ok r) : r.2.length ≤ cs.length := by
  rw [skipOpening] at h
  split at h
  · cases h
  · rename_i c ds hcs
    have hlt := length_lt_of_skipSpace hcs
    split at h
    · cases h
      exact hlt.le
    · cases h
      exact hlt

theorem length_lt_of_skipSeparator {close : Char} {atEnd other : Flaw} {r : Bool × List Char}
    (h : skipSeparator close atEnd other cs = .ok r) : r.2.length < cs.length := by
  rw [skipSeparator] at h
  split at h
  · cases h
  · rename_i c ds hcs
    have hlt := length_lt_of_skipSpace hcs
    split at h
    · cases h
      exact hlt
    · split at h
      · cases h
        exact hlt
      · cases h

theorem length_lt_of_skipBehind {o : Opened} {r : Bool × List Char}
    (h : skipBehind o cs = .ok r) : r.2.length < cs.length := by
  cases o <;> exact length_lt_of_skipSeparator h

/-- Passing over a value takes a part of the text, and going on behind one does not give any
back. -/
theorem length_skip (bound : List Char) :
    (∀ opened cs rest, skipWithin bound opened cs = .ok rest → rest.length < cs.length) ∧
      ∀ opened cs rest, skipOn bound opened cs = .ok rest → rest.length ≤ cs.length := by
  have hdone {cs rest : List Char} (h : (.ok cs : Except Stop _) = .ok rest) :
      rest.length ≤ cs.length := by
    cases h
    exact Nat.le_refl _
  -- both at once, as each of them calls the other with less of the bound
  induction bound with
  | nil =>
      refine ⟨fun _ _ _ h => (by cases h), fun opened cs rest h => ?_⟩
      cases opened with
      | nil => exact hdone h
      | cons o opened => cases o <;> cases h
  | cons b bound ih =>
      obtain ⟨hwithin, hon⟩ := ih
      have hpart {o : Opened} {opened : List Opened} {ahead : Bool × List Char} {rest : List Char}
          (h : skipPart bound o opened ahead = .ok rest) : rest.length ≤ ahead.2.length := by
        obtain ⟨isClosed, es⟩ := ahead
        cases isClosed with
        | true => exact hon _ _ _ h
        | false =>
            obtain ⟨fs, hfront, h⟩ := bind_eq_ok_iff.mp h
            exact (hwithin _ _ _ h).le.trans (length_le_of_skipFront hfront)
      constructor
      · intro opened cs rest h
        rw [← skipWithin_skipSpace] at h
        rcases skipSpace_eq_nil_or cs with hcs | ⟨d, ds, hd, -, hcs, -⟩
        · rw [hcs] at h
          cases h
        rw [hcs] at h
        have hlt := length_lt_of_skipSpace hcs
        rcases exists_mark_or d with ⟨o, rfl⟩ | hmark
        · rw [skipWithin_mark] at h
          obtain ⟨ahead, hahead, h⟩ := bind_eq_ok_iff.mp h
          exact ((hpart h).trans (length_le_of_skipOpening hahead)).trans_lt hlt
        · rw [skipWithin_scalar _ _ _ hd hmark] at h
          obtain ⟨es, hscalar, h⟩ := bind_eq_ok_iff.mp h
          have hes : es.length ≤ ds.length := Nat.le_of_lt_succ (length_lt_of_skipScalar hscalar)
          exact ((hon _ _ _ h).trans hes).trans_lt hlt
      · intro opened cs rest h
        cases opened with
        | nil => exact hdone h
        | cons o opened =>
            obtain ⟨ahead, hahead, h⟩ := bind_eq_ok_iff.mp h
            exact (hpart h).trans (length_lt_of_skipBehind hahead).le

/-- A value takes a part of the text. -/
theorem Passed.length_lt (h : Passed cs rest) : rest.length < cs.length := by
  have hdone : skipOn [] [] rest = .ok rest := rfl
  obtain ⟨bound, hbound⟩ := h hdone
  exact (length_skip bound).1 _ _ _ hbound

end Lengths

/-! ## Quoted texts -/

section Quoted

variable {cs ds final bound : List Char}

/-- Unless it is refused, a mark is read in front of the text. -/
theorem upTo_readMark {mark : Char} {P : List Char → Prop} (hnil : cs ≠ [])
    (h : ∀ ds, cs = mark :: ds → P ds) : UpTo Unkept P (readMark mark cs) := by
  cases cs with
  | nil => exact absurd rfl hnil
  | cons c cs =>
      rw [readMark]
      by_cases hc : c = mark
      · rw [if_pos hc]
        exact h cs (by rw [hc])
      · rw [if_neg hc]
        rfl

/-- What is passed over up to a quote goes on with a character or with the quote. -/
theorem skipQuotedWithin_eq_ok (h : skipQuotedWithin bound cs = .ok final) : ∃ r further,
    skipCharacter cs = .ok r ∧
      (if r.1 then .ok r.2 else skipQuotedWithin further r.2) = .ok final := by
  cases bound with
  | nil => cases h
  | cons b bound =>
      obtain ⟨r, hcharacter, h⟩ := bind_eq_ok_iff.mp h
      exact ⟨r, bound, hcharacter, h⟩

/-- A unit is half of a pair that is there, or of none. -/
theorem upTo_readPair (n : Nat) (h : skipQuotedWithin bound cs = .ok final) :
    UpTo Unkept (fun r => ∃ further, skipQuotedWithin further r.2 = .ok final)
      (readPair n cs) := by
  have hnil {ds bound : List Char} (h : skipQuotedWithin bound ds = .ok final) : ds ≠ [] := by
    rintro rfl
    obtain ⟨r, further, hcharacter, -⟩ := skipQuotedWithin_eq_ok h
    cases hcharacter
  rw [readPair]
  split
  · rfl
  split
  · -- the other half is an escape of its own to whoever passes over the text
    obtain ⟨⟨isClosed, ds⟩, further, hcharacter, hrest⟩ := skipQuotedWithin_eq_ok h
    refine (upTo_readMark (hnil h) fun ds hds => hds).bind fun es _ hes => ?_
    rw [hes] at hcharacter
    obtain ⟨⟨e, fs⟩, hescape, hr⟩ := map_eq_ok_iff.mp hcharacter
    cases hr
    have hes' : es ≠ [] := by
      rintro rfl
      cases hescape
    refine (upTo_readMark hes' fun fs hfs => hfs).bind fun gs _ hgs => ?_
    rw [hgs] at hescape
    obtain ⟨⟨low, hs⟩, hunit, hr⟩ := map_eq_ok_iff.mp hescape
    cases hr
    rw [hunit]
    show UpTo _ _ (if _ then _ else _)
    split
    · exact ⟨further, hrest⟩
    · rfl
  · exact ⟨bound, h⟩

/-- A character that is passed over is kept, with the other half of its pair. -/
theorem upTo_readCharacter (h : skipQuotedWithin bound cs = .ok final) :
    UpTo Unkept (fun r => r.1.elim (r.2 = final) fun _ =>
        ∃ further, skipQuotedWithin further r.2 = .ok final) (readCharacter cs) := by
  obtain ⟨⟨isClosed, ds⟩, further, hcharacter, hrest⟩ := skipQuotedWithin_eq_ok h
  cases cs with
  | nil => cases hcharacter
  | cons c cs =>
      rw [skipCharacter] at hcharacter
      rw [readCharacter]
      by_cases hquote : c = '"'
      · rw [if_pos hquote] at hcharacter ⊢
        cases hcharacter
        exact Except.ok.inj hrest
      rw [if_neg hquote] at hcharacter ⊢
      by_cases hslash : c = '\\'
      -- an escape is kept alike, but a unit takes the other half of its pair with it
      · rw [if_pos hslash] at hcharacter ⊢
        obtain ⟨⟨e, es⟩, hescape, hr⟩ := map_eq_ok_iff.mp hcharacter
        cases hr
        rw [hescape]
        cases e with
        | char e => exact ⟨further, hrest⟩
        | unit n => exact (upTo_readPair n hrest).bind fun r _ hr => hr
      rw [if_neg hslash] at hcharacter ⊢
      split at hcharacter
      · cases hcharacter
      · rename_i hcontrol
        cases hcharacter
        rw [if_neg hcontrol]
        exact ⟨further, hrest⟩

theorem length_lt_of_readCharacter {c : Char} (h : readCharacter cs = .ok (some c, ds)) :
    ds.length < cs.length := by
  rcases skipCharacter_of_readCharacter h with hone | ⟨es, hfirst, hsecond⟩
  · exact length_skipCharacter_lt hone
  · exact (length_skipCharacter_lt hsecond).trans (length_skipCharacter_lt hfirst)

theorem upTo_readQuotedWithin {kept : List Char} (hkept : cs.length ≤ kept.length)
    (h : skipQuotedWithin bound cs = .ok final) :
    UpTo Unkept (fun r => r.2 = final) (readQuotedWithin kept cs) := by
  -- who keeps the text takes a pair of surrogates as one character, so both bounds go down by steps
  -- of their own
  induction kept generalizing bound cs with
  | nil =>
      obtain ⟨r, further, hcharacter, -⟩ := skipQuotedWithin_eq_ok h
      have hlt := length_skipCharacter_lt hcharacter
      exact absurd (hlt.trans_le hkept) (Nat.not_lt_zero _)
  | cons k kept ih =>
      refine (upTo_readCharacter h).bind ?_
      rintro ⟨c?, ds⟩ hread hahead
      cases c? with
      | none => exact hahead
      | some c =>
          obtain ⟨further, hrest⟩ := hahead
          have hlt := length_lt_of_readCharacter hread
          have hds : ds.length ≤ kept.length := Nat.le_of_lt_succ (hlt.trans_le hkept)
          exact (ih hds hrest).bind fun r _ hr => hr

/-- **A text that is passed over is kept** if its surrogates are in pairs. -/
theorem upTo_readQuoted (h : skipQuoted cs = .ok final) :
    UpTo Unkept (fun r => r.2 = final) (readQuoted cs) :=
  upTo_readQuotedWithin (Nat.le_refl _) h

end Quoted

/-! ## Scalars -/

section Scalars

variable {cs final : List Char}

/-- A number that is passed over is kept if it is not too large. -/
theorem upTo_readNumber (h : skipNumber cs = .ok final) :
    UpTo Unkept (fun r => r.2 = final) (readNumber cs) := by
  obtain ⟨⟨numeral, rest⟩, hnumeral, hrest⟩ := map_eq_ok_iff.mp h
  rw [readNumber, readNumeral_of_ok hnumeral]
  dsimp only [bind, Except.bind]
  split
  · exact hrest
  · split <;> rfl

/-- **A scalar that is passed over is kept**, up to what is too large or no text. -/
theorem upTo_readScalar (h : skipScalar cs = .ok final) :
    UpTo Unkept (fun r => r.2 = final) (readScalar cs) := by
  have hword {ws ds : List Char} {x : Scalar} (h : readWord ws ds = .ok final) :
      UpTo Unkept (fun r => r.2 = final) ((readWord ws ds).map fun cs => (x, cs)) := by
    rw [h]
    rfl
  unfold skipScalar at h
  split at h
  · cases h
  · exact hword h
  · exact hword h
  · exact hword h
  · exact (upTo_readQuoted h).map fun r _ hr => hr
  · split at h
    · rename_i hahead
      rw [readScalar_of_isNumberAhead hahead]
      exact (upTo_readNumber h).map fun r _ hr => hr
    · cases h

end Scalars

/-! ## Items and members -/

/-- Whoever passes over what follows in what is open comes to `final`. -/
def Onward (opened : List Opened) (final rest : List Char) : Prop :=
  ∃ bound, skipOn bound opened rest = .ok final

/-- What stands ahead in what is open: in front of its first part, or behind a part. -/
def skipAhead (o : Opened) (first : Bool) (cs : List Char) : Except Stop (Bool × List Char) :=
  if first then skipOpening o.close o.unfinished cs else skipBehind o cs

/-- Whoever passes over what is left of what is open, and over what follows it, comes to
`final`. -/
def Within (o : Opened) (first : Bool) (opened : List Opened) (final cs : List Char) : Prop :=
  ∃ bound, (skipAhead o first cs >>= skipPart bound o opened) = .ok final

/-- A value that is passed over is kept by the reader, up to refusals, and ends there. -/
def Keeps {α : Type} (read : List Char → Except Stop (α × List Char)) : Prop :=
  ∀ ⦃bound opened cs final⦄, skipWithin bound opened cs = .ok final →
    UpTo Unkept (fun r => Onward opened final r.2) (read cs)

/-- The same for the value of a member, behind its name. -/
def KeepsMember {σ : Type} (read : List Char → σ → List Char → Except Stop (σ × List Char)) :
    Prop :=
  ∀ ⦃name s bound opened cs value final⦄, readColon cs = .ok value →
    skipWithin bound opened value = .ok final →
      UpTo Unkept (fun r => Onward opened final r.2) (read name s cs)

section Parts

variable {o : Opened} {first : Bool} {opened : List Opened} {bound cs more final : List Char}

theorem within_of_onward (h : Onward (o :: opened) final cs) : Within o false opened final cs := by
  obtain ⟨bound, h⟩ := h
  cases bound with
  | nil => cases o <;> cases h
  | cons b bound =>
      rw [skipOn_cons] at h
      exact ⟨bound, h⟩

/-- What is found ahead: the end of what is open, its first part, or a comma and another. -/
theorem skipAhead_cases {r : Bool × List Char} (h : skipAhead o first cs = .ok r) :
    (∃ more, skipSpace cs = o.close :: more ∧ r = (true, more)) ∨
      (first = true ∧ ∃ c more, skipSpace cs = c :: more ∧ c ≠ o.close ∧ r = (false, c :: more)) ∨
        (first = false ∧ ∃ more, skipSpace cs = ',' :: more ∧ r = (false, more)) := by
  have hbehind (atEnd other : Flaw) (h : skipSeparator o.close atEnd other cs = .ok r) :
      (∃ more, skipSpace cs = o.close :: more ∧ r = (true, more)) ∨
        ∃ more, skipSpace cs = ',' :: more ∧ r = (false, more) := by
    rw [skipSeparator] at h
    split at h
    · cases h
    rename_i c more hcs
    split at h
    · rename_i hclose
      cases h
      exact Or.inl ⟨more, by rw [hcs, hclose], rfl⟩
    split at h
    · rename_i hcomma
      cases h
      exact Or.inr ⟨more, by rw [hcs, hcomma], rfl⟩
    · cases h
  cases first with
  | true =>
      change skipOpening o.close o.unfinished cs = .ok r at h
      rw [skipOpening] at h
      split at h
      · cases h
      rename_i c more hcs
      split at h
      · rename_i hclose
        cases h
        exact Or.inl ⟨more, by rw [hcs, hclose], rfl⟩
      · rename_i hne
        cases h
        exact Or.inr (Or.inl ⟨rfl, c, more, hcs, hne, rfl⟩)
  | false =>
      cases o with
      | array => exact (hbehind _ _ h).imp_right fun hcomma => Or.inr ⟨rfl, hcomma⟩
      | object => exact (hbehind _ _ h).imp_right fun hcomma => Or.inr ⟨rfl, hcomma⟩

/-- What is closed ends with its mark. -/
theorem skipSpace_of_skipAhead (h : skipAhead o first cs = .ok (true, more)) :
    skipSpace cs = o.close :: more := by
  rcases skipAhead_cases h with ⟨more', hcs, heq⟩ | ⟨-, c, more', -, -, heq⟩ | ⟨-, more', -, heq⟩
  · cases heq
    exact hcs
  · cases heq
  · cases heq

theorem length_le_of_skipAhead {r : Bool × List Char} (h : skipAhead o first cs = .ok r) :
    r.2.length ≤ cs.length := by
  cases first with
  | true => exact length_le_of_skipOpening h
  | false => exact (length_lt_of_skipBehind h).le

/-- No value begins with the end of an array. -/
theorem exists_of_skipWithin (h : skipWithin bound opened cs = .ok final) :
    ∃ d ds, skipSpace cs = d :: ds ∧ d ≠ ']' := by
  rw [← skipWithin_skipSpace] at h
  cases bound with
  | nil => cases h
  | cons b bound =>
      rcases skipSpace_eq_nil_or cs with hcs | ⟨d, ds, -, -, hcs, -⟩
      · rw [hcs] at h
        cases h
      · refine ⟨d, ds, hcs, ?_⟩
        rintro rfl
        rw [hcs] at h
        cases h

/-! ### Items -/

theorem nextItem_of_close (h : skipSpace cs = ']' :: more) :
    nextItem first cs = .ok (false, more) := by
  rw [nextItem, h]
  rfl

/-- An item that is passed over is the next one for a reader. -/
theorem nextItem_of_skipAhead (h : skipAhead .array first cs = .ok (false, more))
    (hvalue : skipWithin bound opened more = .ok final) :
    nextItem first cs = .ok (true, skipSpace more) := by
  rcases skipAhead_cases h with ⟨more', -, heq⟩ | ⟨rfl, c, more', hcs, hc, heq⟩ |
    ⟨rfl, more', hcs, heq⟩
  · cases heq
  · cases heq
    have hspace : skipSpace (c :: more') = c :: more' := by rw [← hcs, skipSpace_skipSpace]
    rw [nextItem, hcs, hspace]
    exact if_neg hc
  · cases heq
    obtain ⟨d, ds, hmore, hd⟩ := exists_of_skipWithin hvalue
    simp only [nextItem, hcs, hmore]
    exact if_neg hd

/-- **The items of an array that is passed over are kept** if each of them is. -/
theorem upTo_readItemsWithin {α : Type} {read : List Char → Except Stop (α × List Char)}
    (hread : Keeps read) (hlength : ∀ cs r, read cs = .ok r → r.2.length < cs.length)
    {kept : List Char} (hkept : cs.length ≤ kept.length)
    (h : Within .array first opened final cs) :
    UpTo Unkept (fun r => Onward opened final r.2) (readItemsWithin read kept first cs) := by
  -- that the rest of the array can be passed over is what each item leaves to the next
  induction kept generalizing first cs with
  | nil =>
      obtain rfl := List.eq_nil_of_length_eq_zero (Nat.le_zero.mp hkept)
      obtain ⟨bound, h⟩ := h
      cases first <;> cases h
  | cons k kept ih =>
      obtain ⟨bound, h⟩ := h
      obtain ⟨⟨isClosed, more⟩, hahead, hpart⟩ := bind_eq_ok_iff.mp h
      have hmore : more.length ≤ cs.length := length_le_of_skipAhead hahead
      cases isClosed with
      | true =>
          rw [readItemsWithin, nextItem_of_close (skipSpace_of_skipAhead hahead)]
          exact ⟨bound, hpart⟩
      | false =>
          obtain ⟨value, hfront, hvalue⟩ := bind_eq_ok_iff.mp hpart
          cases hfront
          rw [readItemsWithin, nextItem_of_skipAhead hahead hvalue]
          rw [← skipWithin_skipSpace] at hvalue
          show UpTo _ _ (read (skipSpace more) >>= _)
          refine (hread hvalue).bind ?_
          rintro ⟨v, es⟩ hv hes
          have hlt : es.length < (skipSpace more).length := hlength _ _ hv
          have hspace : (skipSpace more).length ≤ more.length :=
            (List.dropWhile_suffix _).length_le
          have hes' : es.length ≤ kept.length := by
            rw [List.length_cons] at hkept
            omega
          exact (ih hes' (within_of_onward hes)).bind fun r _ hr => hr

/-! ### Members -/

theorem nextMember_of_close (h : skipSpace cs = '}' :: more) :
    nextMember first cs = .ok (none, more) := by
  rw [nextMember, h]
  rfl

/-- A member that is passed over is the next one for a reader. -/
theorem upTo_nextMember (h : skipAhead .object first cs = .ok (false, more)) {value : List Char}
    (hfront : skipFront .object more = .ok value) :
    UpTo Unkept (fun r => r.1.isSome ∧ readColon r.2 = .ok value) (nextMember first cs) := by
  obtain ⟨ds, hname, hcolon⟩ := bind_eq_ok_iff.mp hfront
  rw [skipName] at hname
  split at hname
  · cases hname
  rename_i c quoted hmore
  split at hname
  case isFalse => cases hname
  rename_i hquote
  rw [hquote] at hmore
  have hread : UpTo Unkept (fun r => r.1.isSome ∧ readColon r.2 = .ok value)
      ((readQuoted quoted).map fun r => (some r.1, r.2)) :=
    (upTo_readQuoted hname).map fun r _ hr => ⟨rfl, hr ▸ hcolon⟩
  -- the name stands behind the brace for the first member, behind a comma for another
  rcases skipAhead_cases h with ⟨more', -, heq⟩ | ⟨rfl, d, more', hcs, hd, heq⟩ |
    ⟨rfl, more', hcs, heq⟩
  · cases heq
  · cases heq
    have hspace : skipSpace (d :: more') = d :: more' := by rw [← hcs, skipSpace_skipSpace]
    obtain ⟨rfl, rfl⟩ := List.cons.inj (hspace.symm.trans hmore)
    rw [nextMember, hcs]
    exact hread
  · cases heq
    have hnext : nextMember false cs = (readQuoted quoted).map fun r => (some r.1, r.2) := by
      simp only [nextMember, hcs, hmore]
      rfl
    rw [hnext]
    exact hread

theorem length_lt_of_nextMember {name ds : List Char}
    (h : nextMember first cs = .ok (some name, ds)) : ds.length < cs.length := by
  rcases nextMember_cases h with ⟨more, -, heq⟩ | ⟨quoted, name', ds', hname, heq, hahead⟩
  · cases heq
  cases heq
  have hds : ds.length < quoted.length :=
    length_lt_of_skipQuotedWithin (skipQuoted_of_readQuoted hname)
  rcases hahead with ⟨-, hcs⟩ | ⟨-, more, hcs, hmore⟩
  · exact hds.trans (length_lt_of_skipSpace hcs)
  · exact hds.trans ((length_lt_of_skipSpace hmore).trans (length_lt_of_skipSpace hcs))

/-- **The members of an object that is passed over are kept** if each of them is. -/
theorem upTo_readMembersWithin {σ : Type}
    {read : List Char → σ → List Char → Except Stop (σ × List Char)} (hread : KeepsMember read)
    (hlength : ∀ name s cs r, read name s cs = .ok r → r.2.length < cs.length)
    {kept : List Char} (hkept : cs.length ≤ kept.length) {s : σ}
    (h : Within .object first opened final cs) :
    UpTo Unkept (fun r => Onward opened final r.2) (readMembersWithin read kept first s cs) := by
  induction kept generalizing first cs s with
  | nil =>
      obtain rfl := List.eq_nil_of_length_eq_zero (Nat.le_zero.mp hkept)
      obtain ⟨bound, h⟩ := h
      cases first <;> cases h
  | cons k kept ih =>
      obtain ⟨bound, h⟩ := h
      obtain ⟨⟨isClosed, more⟩, hahead, hpart⟩ := bind_eq_ok_iff.mp h
      cases isClosed with
      | true =>
          rw [readMembersWithin, nextMember_of_close (skipSpace_of_skipAhead hahead)]
          exact ⟨bound, hpart⟩
      | false =>
          obtain ⟨value, hfront, hvalue⟩ := bind_eq_ok_iff.mp hpart
          refine (upTo_nextMember hahead hfront).bind ?_
          rintro ⟨name?, ds⟩ hnext ⟨hname, hcolon⟩
          cases name? with
          | none => cases hname
          | some name =>
              -- a member takes up characters, so what bounds the reader lasts for what is left
              have hds : ds.length < cs.length := length_lt_of_nextMember hnext
              refine (hread hcolon hvalue).bind ?_
              rintro ⟨t, es⟩ ht hes
              have hlt : es.length < ds.length := hlength _ _ _ _ ht
              have hes' : es.length ≤ kept.length := by
                rw [List.length_cons] at hkept
                omega
              exact ih hes' (within_of_onward hes)

end Parts

/-! ## Values of any form -/

theorem keepsMember_addMember {read : List Char → Except Stop (Json × List Char)}
    (hread : Keeps read) : KeepsMember (addMember read) := by
  intro name members bound opened cs value final hcolon hvalue
  rw [addMember, hcolon]
  show UpTo _ _ (read value >>= _)
  exact (hread hvalue).bind fun r _ hr => hr

theorem length_lt_of_readValue (room : Nat) (cs : List Char) (r : Json × List Char)
    (h : readValue room cs = .ok r) : r.2.length < cs.length :=
  (passes_readValue room h).length_lt

theorem length_lt_of_addMember (room : Nat) (name : List Char) (members : List (String × Json))
    (cs : List Char) (r : List (String × Json) × List Char)
    (h : addMember (readValue room) name members cs = .ok r) : r.2.length < cs.length := by
  obtain ⟨ds, hcolon, hds⟩ := passes_addMember (passes_readValue room) h
  exact hds.length_lt.trans (length_lt_of_readColon hcolon)

/-- Scalars are kept, so a value is if it is where it is an array or an object. -/
theorem keeps_of_mark {room : Nat} (hmark : ∀ (o : Opened) (opened : List Opened)
    (ds final : List Char), Within o true opened final ds →
      UpTo Unkept (fun r => Onward opened final r.2) (readValue room (o.mark :: ds))) :
    Keeps (readValue room) := by
  intro bound opened cs final h
  rw [← skipWithin_skipSpace] at h
  rw [← readValue_skipSpace]
  cases bound with
  | nil => cases h
  | cons b bound =>
      rcases skipSpace_eq_nil_or cs with hcs | ⟨d, ds, hd, -, hcs, -⟩
      · rw [hcs] at h
        cases h
      rw [hcs] at h ⊢
      rcases exists_mark_or d with ⟨o, rfl⟩ | hne
      · rw [skipWithin_mark] at h
        exact hmark o opened ds final ⟨bound, h⟩
      · rw [skipWithin_scalar _ _ _ hd hne] at h
        obtain ⟨rest, hskip, hon⟩ := bind_eq_ok_iff.mp h
        rw [readValue_of_scalar room hd hne.1 hne.2]
        exact (upTo_readScalar hskip).map fun r _ hr => ⟨bound, hr ▸ hon⟩

/-- **A value that is passed over is kept**, but for what only those refuse who keep it. -/
theorem keeps_readValue (room : Nat) : Keeps (readValue room) := by
  induction room with
  | zero =>
      -- without room for what is nested, an array or object is too deep
      refine keeps_of_mark fun o opened ds final _ => ?_
      cases o <;> rfl
  | succ room ih =>
      refine keeps_of_mark fun o opened ds final h => ?_
      cases o with
      | array =>
          show UpTo _ _ (readAll (readValue room) ds >>= _)
          exact (upTo_readItemsWithin ih (length_lt_of_readValue room) (Nat.le_refl _) h).bind
            fun r _ hr => hr
      | object =>
          show UpTo _ _ (readInto (addMember (readValue room)) [] ds >>= _)
          exact (upTo_readMembersWithin (keepsMember_addMember ih) (length_lt_of_addMember room)
            (Nat.le_refl _) h).bind fun r _ hr => hr

/-- A value ends for whoever keeps it where it ends for others. -/
theorem Passed.upTo_readValue {cs rest : List Char} (h : Passed cs rest) (room : Nat) :
    UpTo Unkept (fun r => r.2 = rest) (readValue room cs) := by
  have hdone : skipOn [] [] rest = .ok rest := rfl
  obtain ⟨bound, hbound⟩ := h hdone
  have hkept := keeps_readValue room hbound
  cases hread : readValue room cs with
  | error s =>
      rw [hread] at hkept
      exact hkept
  | ok r =>
      rw [hread] at hkept
      obtain ⟨further, hfurther⟩ := hkept
      cases further <;> exact Except.ok.inj hfurther

end IndexAdvisor.Json
