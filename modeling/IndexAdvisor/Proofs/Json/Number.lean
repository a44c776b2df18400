import IndexAdvisor.Json.Scalar

/-!
# Numbers read back

The digits of a number are read as that number. A number ends only where something else begins, so
what follows must not go on with it; commas, closing brackets and the end of the text do not.
-/

set_option autoImplicit false

namespace IndexAdvisor.Json

/-- A text that does not go on with a number in front of it. -/
def endsNumber : List Char → Bool
  | [] => true
  | c :: _ => !c.isDigit && c != '.' && c != 'e' && c != 'E'

/-- Digits in front of a text that does not go on with them are taken as a whole. -/
theorem takeWhile_isDigit_append {ds rest : List Char} (hds : ∀ d ∈ ds, d.isDigit = true)
    (hrest : endsNumber rest = true) :
    (ds ++ rest).takeWhile Char.isDigit = ds ∧ (ds ++ rest).dropWhile Char.isDigit = rest := by
  have hstop : rest.takeWhile Char.isDigit = [] ∧ rest.dropWhile Char.isDigit = rest := by
    cases rest with
    | nil => exact ⟨rfl, rfl⟩
    | cons c rest =>
        have hc : c.isDigit = false := by
          simp only [endsNumber, Bool.and_eq_true, Bool.not_eq_true'] at hrest
          exact hrest.1.1.1
        simp [hc]
  rw [List.takeWhile_append_of_pos hds, List.dropWhile_append_of_pos hds, hstop.1, hstop.2]
  exact ⟨List.append_nil ds, rfl⟩

/-- The digits of a number have no needless zero in front. -/
theorem toDigits_ne_zero_cons (n : Nat) (d : Char) (ds : List Char) :
    Nat.toDigits 10 n ≠ '0' :: d :: ds := by
  induction n using Nat.strongRecOn generalizing d ds with
  | ind n ih =>
      rw [Nat.toDigits_eq_if (by decide)]
      split
      · simp
      · rename_i hn
        have hpos : 0 < n / 10 := by omega
        intro h
        -- the digits before the last one begin with a zero as well, so they are that zero alone
        have hhead : ∃ es, Nat.toDigits 10 (n / 10) = '0' :: es := by
          cases hq : Nat.toDigits 10 (n / 10) with
          | nil => exact absurd hq Nat.toDigits_ne_nil
          | cons e es =>
              rw [hq, List.cons_append, List.cons.injEq] at h
              exact ⟨es, by rw [h.1]⟩
        obtain ⟨es, hes⟩ := hhead
        cases es with
        | cons e es => exact ih (n / 10) (by omega) e es hes
        | nil =>
            have hvalue : Nat.ofDigitChars 10 (Nat.toDigits 10 (n / 10)) 0 = n / 10 :=
              Nat.ofDigitChars_toDigits (by decide) (by decide)
            rw [hes] at hvalue
            have hzero : Nat.ofDigitChars 10 ['0'] 0 = 0 := by decide
            omega

theorem isDigit_of_mem_toDigits {n : Nat} {d : Char} (h : d ∈ Nat.toDigits 10 n) :
    d.isDigit = true :=
  Nat.isDigit_of_mem_toDigits (by decide) (by decide) h

/-- The digits of a number are read as a whole part. -/
theorem readWholePart_toDigits (atEnd : Flaw) (n : Nat) {rest : List Char}
    (hrest : endsNumber rest = true) :
    readWholePart atEnd (Nat.toDigits 10 n ++ rest) = .ok (Nat.toDigits 10 n, rest) := by
  have htake := takeWhile_isDigit_append (fun d => isDigit_of_mem_toDigits (n := n)) hrest
  cases hn : Nat.toDigits 10 n with
  | nil => exact absurd hn Nat.toDigits_ne_nil
  | cons c ds =>
      rw [hn, List.cons_append] at htake
      have hc : c.isDigit = true := isDigit_of_mem_toDigits (n := n) (by simp [hn])
      rw [List.takeWhile_cons_of_pos hc, List.dropWhile_cons_of_pos hc, List.cons.injEq] at htake
      have hdigits : readDigits atEnd (c :: (ds ++ rest)) = .ok (c :: ds, rest) := by
        simp only [readDigits, hc, if_true, htake.1.2, htake.2]
      rw [List.cons_append, readWholePart, hdigits]
      simp only [bind, Except.bind]
      -- A zero with digits behind it is refused, and no number is written so.
      split
      · rename_i d es heq
        exact absurd (hn.trans heq) (toDigits_ne_zero_cons n d es)
      · rfl

/-- No fraction is read where a number ends. -/
theorem readFractionPart_of_endsNumber (atEnd : Flaw) {rest : List Char}
    (hrest : endsNumber rest = true) : readFractionPart atEnd rest = .ok ([], rest) := by
  unfold readFractionPart
  split
  · simp [endsNumber] at hrest
  · rfl

/-- No exponent is read where a number ends. -/
theorem readExponent_of_endsNumber (atEnd : Flaw) {rest : List Char}
    (hrest : endsNumber rest = true) : readExponent atEnd rest = .ok (none, rest) := by
  unfold readExponent
  split
  · rfl
  · simp only [endsNumber, Bool.and_eq_true, bne_iff_ne, ne_eq] at hrest
    exact if_neg (not_or.mpr ⟨hrest.1.2, hrest.2⟩)

/-- The digits of a number are read as its whole part, and nothing more. -/
theorem readNumeral_toDigits (atEnd : Flaw) (n : Nat) {rest : List Char}
    (hrest : endsNumber rest = true) :
    readNumeral atEnd (Nat.toDigits 10 n ++ rest) =
      .ok (⟨false, Nat.toDigits 10 n, [], none⟩, rest) := by
  have hminus (cs : List Char) (heq : Nat.toDigits 10 n ++ rest = '-' :: cs) : False := by
    obtain ⟨c, ds, hn⟩ := List.exists_cons_of_ne_nil (Nat.toDigits_ne_nil (b := 10) (n := n))
    rw [hn, List.cons_append, List.cons.injEq] at heq
    have hdigit := isDigit_of_mem_toDigits (n := n) (d := c) (by simp [hn])
    rw [heq.1] at hdigit
    exact absurd hdigit (by decide)
  rw [readNumeral]
  · simp only [readWholePart_toDigits atEnd n hrest, readFractionPart_of_endsNumber atEnd hrest,
      readExponent_of_endsNumber atEnd hrest, bind, Except.bind]
  · exact hminus

/-- **A natural number below 2^64 reads back.** -/
theorem readNumber_toDigits {n : Nat} (hn : n < UInt64.size) {rest : List Char}
    (hrest : endsNumber rest = true) :
    readNumber (Nat.toDigits 10 n ++ rest) = .ok (.natural n, rest) := by
  have hdigits : ofDigits (Nat.toDigits 10 n) = n :=
    Nat.ofDigitChars_toDigits (by decide) (by decide)
  have hvalue : Numeral.value? ⟨false, Nat.toDigits 10 n, [], none⟩ = some (.natural n) := by
    rw [Numeral.value?]
    dsimp only
    rw [hdigits, decide_eq_true hn]
    rfl
  simp only [readNumber, readNumeral_toDigits _ n hrest, bind, Except.bind, hvalue]

/-- A number is seen to begin at its digits. -/
theorem isNumberAhead_toDigits (n : Nat) (rest : List Char) :
    isNumberAhead (Nat.toDigits 10 n ++ rest) = true := by
  cases hn : Nat.toDigits 10 n with
  | nil => exact absurd hn Nat.toDigits_ne_nil
  | cons c ds =>
      have hc : c.isDigit = true := isDigit_of_mem_toDigits (n := n) (by simp [hn])
      simp [isNumberAhead, hc]

end IndexAdvisor.Json
