import IndexAdvisor.Json.Scalar
import IndexAdvisor.Proofs.Fallible

/-!
# Scalars that are kept and passed over

A scalar that is kept ends where one that is passed over does. Less is asked of the latter: its
surrogates need not be in pairs and its numbers may be of any size.
-/

set_option autoImplicit false

namespace IndexAdvisor.Json

/-! ## Quoted texts -/

/-- An escape leaves no more than what stands in front of it. -/
theorem length_readEscape_le {cs : List Char} {r : Escaped × List Char}
    (h : readEscape cs = .ok r) : r.2.length ≤ cs.length := by
  cases cs with
  | nil => cases h
  | cons c cs =>
      rw [readEscape] at h
      split at h
      · obtain ⟨u, hunit, h⟩ := map_eq_ok_iff.mp h
        cases h
        rw [readUnit] at hunit
        split at hunit
        · split at hunit
          · cases hunit
            simp only [List.length_drop, List.length_cons]
            omega
          · cases hunit
        · split at hunit <;> cases hunit
      · split at h
        · cases h
          exact Nat.le_succ _
        · cases h

/-- Each character that is passed over takes at least one of the text. -/
theorem length_skipCharacter_lt {cs : List Char} {r : Bool × List Char}
    (h : skipCharacter cs = .ok r) : r.2.length < cs.length := by
  cases cs with
  | nil => cases h
  | cons c cs =>
      rw [skipCharacter] at h
      split at h
      · cases h
        exact Nat.lt_succ_self _
      split at h
      · obtain ⟨e, hescape, h⟩ := map_eq_ok_iff.mp h
        cases h
        exact Nat.lt_succ_of_le (length_readEscape_le hescape)
      split at h
      · cases h
      · cases h
        exact Nat.lt_succ_self _

/-- A mark that is read stands in front of the text. -/
theorem eq_cons_of_readMark {mark : Char} {cs rest : List Char}
    (h : readMark mark cs = .ok rest) : cs = mark :: rest := by
  cases cs with
  | nil => cases h
  | cons c cs =>
      rw [readMark] at h
      split at h
      · rename_i hc
        cases h
        rw [hc]
      · cases h

/-- The second half of a pair of surrogates is an escape of its own. -/
theorem skipCharacter_of_readPair {n : Nat} {cs rest : List Char} {c : Char}
    (h : readPair n cs = .ok (c, rest)) : cs = rest ∨ skipCharacter cs = .ok (false, rest) := by
  rw [readPair] at h
  split at h
  · cases h
  split at h
  · obtain ⟨cs₁, hslash, h⟩ := bind_eq_ok_iff.mp h
    obtain ⟨cs₂, hu, h⟩ := bind_eq_ok_iff.mp h
    obtain ⟨⟨low, cs₃⟩, hunit, h⟩ := bind_eq_ok_iff.mp h
    have hrest : cs₃ = rest := by
      dsimp only at h
      split at h
      · exact (Prod.mk.inj (Except.ok.inj h)).2
      · cases h
    obtain rfl := eq_cons_of_readMark hslash
    obtain rfl := eq_cons_of_readMark hu
    have hescape : readEscape ('u' :: cs₂) = .ok (.unit low, rest) := by
      rw [readEscape, if_pos rfl, hunit, hrest]
      rfl
    refine Or.inr ?_
    show (readEscape ('u' :: cs₂)).map (fun r => (false, r.2)) = _
    rw [hescape]
    rfl
  · cases h
    exact Or.inl rfl

/-- A character that is kept is passed over, in two parts if it is a pair of surrogates. -/
theorem skipCharacter_of_readCharacter {cs rest : List Char} {c : Char}
    (h : readCharacter cs = .ok (some c, rest)) : skipCharacter cs = .ok (false, rest) ∨
      ∃ ds, skipCharacter cs = .ok (false, ds) ∧ skipCharacter ds = .ok (false, rest) := by
  cases cs with
  | nil => cases h
  | cons d ds =>
      rw [readCharacter] at h
      rw [skipCharacter]
      by_cases hquote : d = '"'
      · rw [if_pos hquote] at h
        cases h
      rw [if_neg hquote] at h ⊢
      by_cases hslash : d = '\\'
      · rw [if_pos hslash] at h ⊢
        obtain ⟨⟨e, es⟩, hescape, h⟩ := bind_eq_ok_iff.mp h
        rw [hescape]
        cases e with
        | char e =>
            cases h
            exact Or.inl rfl
        | unit n =>
            obtain ⟨⟨e, fs⟩, hpair, h⟩ := bind_eq_ok_iff.mp h
            cases h
            rcases skipCharacter_of_readPair hpair with rfl | hsecond
            · exact Or.inl rfl
            · exact Or.inr ⟨es, rfl, hsecond⟩
      rw [if_neg hslash] at h ⊢
      split at h
      · cases h
      · rename_i hcontrol
        cases h
        exact Or.inl (if_neg hcontrol)

/-- The quote that ends a text that is kept ends it for whoever passes over it. -/
theorem skipCharacter_of_readCharacter_none {cs rest : List Char}
    (h : readCharacter cs = .ok (none, rest)) : skipCharacter cs = .ok (true, rest) := by
  cases cs with
  | nil => cases h
  | cons d ds =>
      rw [readCharacter] at h
      rw [skipCharacter]
      split at h
      · rename_i hquote
        cases h
        exact if_pos hquote
      split at h
      · obtain ⟨⟨e, es⟩, -, h⟩ := bind_eq_ok_iff.mp h
        cases e with
        | char e => cases h
        | unit n =>
            obtain ⟨r, -, h⟩ := bind_eq_ok_iff.mp h
            cases h
      split at h <;> cases h

/-- One character is passed over, and then the others. -/
theorem skipQuotedWithin_of_skipCharacter {bound cs ds rest : List Char}
    (hbound : cs.length ≤ bound.length) (h : skipCharacter cs = .ok (false, ds))
    (hds : ∀ bound : List Char, ds.length ≤ bound.length →
      skipQuotedWithin bound ds = .ok rest) : skipQuotedWithin bound cs = .ok rest := by
  have hlength : ds.length < cs.length := length_skipCharacter_lt h
  cases bound with
  | nil =>
      rw [List.length_nil] at hbound
      omega
  | cons b bound =>
      rw [List.length_cons] at hbound
      exact bind_eq_ok_iff.mpr ⟨_, h, hds bound (by omega)⟩

theorem skipQuotedWithin_of_readQuotedWithin {kept bound cs text rest : List Char}
    (hbound : cs.length ≤ bound.length) (h : readQuotedWithin kept cs = .ok (text, rest)) :
    skipQuotedWithin bound cs = .ok rest := by
  induction kept generalizing bound cs text with
  | nil => cases h
  | cons k kept ih =>
      obtain ⟨⟨c?, ds⟩, hcharacter, h⟩ := bind_eq_ok_iff.mp h
      cases c? with
      | none =>
          cases h
          have hend := skipCharacter_of_readCharacter_none hcharacter
          have hlength := length_skipCharacter_lt hend
          cases bound with
          | nil =>
              rw [List.length_nil] at hbound
              omega
          | cons b bound => exact bind_eq_ok_iff.mpr ⟨_, hend, rfl⟩
      | some c =>
          obtain ⟨⟨text', es⟩, htext, h⟩ := bind_eq_ok_iff.mp h
          cases h
          have hrest (bound : List Char) (hbound : ds.length ≤ bound.length) :
              skipQuotedWithin bound ds = .ok rest := ih hbound htext
          -- a pair of surrogates takes two steps where it is passed over
          rcases skipCharacter_of_readCharacter hcharacter with hone | ⟨fs, hfirst, hsecond⟩
          · exact skipQuotedWithin_of_skipCharacter hbound hone hrest
          · exact skipQuotedWithin_of_skipCharacter hbound hfirst fun bound hbound =>
              skipQuotedWithin_of_skipCharacter hbound hsecond hrest

/-- A text that is kept is passed over. -/
theorem skipQuoted_of_readQuoted {cs text rest : List Char}
    (h : readQuoted cs = .ok (text, rest)) : skipQuoted cs = .ok rest :=
  skipQuotedWithin_of_readQuotedWithin (Nat.le_refl _) h

/-! ## Numbers -/

section Numerals

variable {atEnd other : Flaw} {cs : List Char}

/-! What a text that ends too early is told does not matter to one that goes on. -/

theorem readDigits_of_ok {r : List Char × List Char} (h : readDigits atEnd cs = .ok r) :
    readDigits other cs = .ok r := by
  cases cs with
  | nil => cases h
  | cons c cs => exact h

theorem readWholePart_of_ok {r : List Char × List Char} (h : readWholePart atEnd cs = .ok r) :
    readWholePart other cs = .ok r := by
  obtain ⟨ds, hds, h⟩ := bind_eq_ok_iff.mp h
  exact bind_eq_ok_iff.mpr ⟨ds, readDigits_of_ok hds, h⟩

theorem readFractionPart_of_ok {r : List Char × List Char}
    (h : readFractionPart atEnd cs = .ok r) : readFractionPart other cs = .ok r := by
  unfold readFractionPart at h ⊢
  split at h
  · exact readDigits_of_ok h
  · exact h

theorem readExponent_of_ok {r : Option (Bool × List Char) × List Char}
    (h : readExponent atEnd cs = .ok r) : readExponent other cs = .ok r := by
  cases cs with
  | nil => exact h
  | cons c cs =>
      simp only [readExponent] at h ⊢
      split at h
      · rename_i hc
        rw [if_pos hc]
        obtain ⟨ds, hds, h⟩ := bind_eq_ok_iff.mp h
        exact bind_eq_ok_iff.mpr ⟨ds, readDigits_of_ok hds, h⟩
      · rename_i hc
        rw [if_neg hc]
        exact h

theorem readNumeral_of_ok {r : Numeral × List Char} (h : readNumeral atEnd cs = .ok r) :
    readNumeral other cs = .ok r := by
  obtain ⟨whole, hwhole, h⟩ := bind_eq_ok_iff.mp h
  obtain ⟨fraction, hfraction, h⟩ := bind_eq_ok_iff.mp h
  obtain ⟨exponent, hexponent, h⟩ := bind_eq_ok_iff.mp h
  exact bind_eq_ok_iff.mpr ⟨whole, readWholePart_of_ok hwhole, bind_eq_ok_iff.mpr
    ⟨fraction, readFractionPart_of_ok hfraction, bind_eq_ok_iff.mpr
      ⟨exponent, readExponent_of_ok hexponent, h⟩⟩⟩

end Numerals

/-- A number that is kept is passed over. -/
theorem skipNumber_of_readNumber {cs rest : List Char} {n : Number}
    (h : readNumber cs = .ok (n, rest)) : skipNumber cs = .ok rest := by
  obtain ⟨⟨numeral, ds⟩, hnumeral, h⟩ := bind_eq_ok_iff.mp h
  dsimp only at h
  split at h
  · cases h
    rw [skipNumber, readNumeral_of_ok hnumeral]
    rfl
  · split at h <;> cases h

/-! ## Scalars -/

theorem skipScalar_of_isNumberAhead {cs : List Char} (h : isNumberAhead cs = true) :
    skipScalar cs = skipNumber cs := by
  unfold skipScalar
  split
  · cases h
  · exact absurd h Bool.false_ne_true
  · exact absurd h Bool.false_ne_true
  · exact absurd h Bool.false_ne_true
  · exact absurd h Bool.false_ne_true
  · exact if_pos h

theorem readScalar_of_isNumberAhead {cs : List Char} (h : isNumberAhead cs = true) :
    readScalar cs = (readNumber cs).map fun r => (.number r.1, r.2) := by
  unfold readScalar
  split
  · cases h
  · exact absurd h Bool.false_ne_true
  · exact absurd h Bool.false_ne_true
  · exact absurd h Bool.false_ne_true
  · exact absurd h Bool.false_ne_true
  · exact if_pos h

/-- A scalar that is kept is passed over. -/
theorem skipScalar_of_readScalar {cs rest : List Char} {x : Scalar}
    (h : readScalar cs = .ok (x, rest)) : skipScalar cs = .ok rest := by
  unfold readScalar at h
  split at h
  · cases h
  · obtain ⟨ds, hword, h⟩ := map_eq_ok_iff.mp h
    cases h
    exact hword
  · obtain ⟨ds, hword, h⟩ := map_eq_ok_iff.mp h
    cases h
    exact hword
  · obtain ⟨ds, hword, h⟩ := map_eq_ok_iff.mp h
    cases h
    exact hword
  · obtain ⟨r, hquoted, h⟩ := map_eq_ok_iff.mp h
    cases h
    exact skipQuoted_of_readQuoted hquoted
  · split at h
    · rename_i hahead
      obtain ⟨r, hnumber, h⟩ := map_eq_ok_iff.mp h
      cases h
      rw [skipScalar_of_isNumberAhead hahead]
      exact skipNumber_of_readNumber hnumber
    · cases h

end IndexAdvisor.Json
