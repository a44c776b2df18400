import IndexAdvisor.Json.Quoted

/-!
# Quoted texts read back

A text that was quoted is read as that text, whatever follows its closing quote, and what was
quoted holds no control character.
-/

set_option autoImplicit false

namespace IndexAdvisor.Json

open IndexAdvisor.Text

/-! ## Escapes -/

/-- What an escaped character below U+0020 is written as reads back as its code point. -/
theorem readUnit_hexDigits {n : Nat} (h : n < 256) (rest : List Char) :
    readUnit ('0' :: '0' :: hexDigit (n / 16) :: hexDigit (n % 16) :: rest) = .ok (n, rest) := by
  have hread : ofHexDigits? ['0', '0', hexDigit (n / 16), hexDigit (n % 16)] = some n := by
    have hhigh : hexValue? (hexDigit (n / 16)) = some (n / 16) := hexValue?_hexDigit (by omega)
    have hlow : hexValue? (hexDigit (n % 16)) = some (n % 16) := hexValue?_hexDigit (by omega)
    have hzero : hexValue? '0' = some 0 := by decide
    have hn : 16 * (n / 16) + n % 16 = n := by omega
    simp [ofHexDigits?, hhigh, hlow, hzero, hn]
  simp [readUnit, hread]

/-- An escape with two zeros and two digits is read as the character of that number. -/
theorem readCharacter_hexDigits {n : Nat} (hn : n < 256) (rest : List Char) :
    readCharacter (['\\', 'u', '0', '0', hexDigit (n / 16), hexDigit (n % 16)] ++ rest) =
      .ok (some (Char.ofNat n), rest) := by
  have hlone : ¬ (0xDC00 ≤ n ∧ n < 0xE000) := by omega
  have hpair : ¬ (0xD800 ≤ n ∧ n < 0xDC00) := by omega
  have hread := readUnit_hexDigits hn rest
  simp [readCharacter, readEscape, hread, readPair, hlone, hpair, Except.map, bind, Except.bind]

/-- The written form of one character is read as that character. -/
theorem readCharacter_escapeChar (c : Char) (rest : List Char) :
    readCharacter (escapeChar c ++ rest) = .ok (some c, rest) := by
  by_cases hquote : c = '"'
  · subst hquote
    rfl
  by_cases hslash : c = '\\'
  · subst hslash
    rfl
  by_cases hplain : 0x20 ≤ c.toNat
  · have hlow : ¬ c.toNat < 0x20 := by omega
    simp [escapeChar, readCharacter, hquote, hslash, hplain, hlow]
  -- below U+0020 five characters have letters of their own, the others are written as units
  have hc : Char.ofNat c.toNat = c := Char.ofNat_toNat c
  rw [escapeChar, if_neg hquote, if_neg hslash, if_neg hplain]
  split
  case h_6 n _ _ _ _ _ =>
    rw [readCharacter_hexDigits (by omega), hc]
  all_goals
    rename_i hn
    rw [hn] at hc
    rw [← hc]
    rfl

/-! ## Texts -/

section Texts

variable {write : Char → List Char}

/-- Each character is read from what is written for it, whatever follows. -/
def ReadsCharacters (write : Char → List Char) : Prop :=
  ∀ c rest, readCharacter (write c ++ rest) = .ok (some c, rest)

/-- The written form of a character is not empty. -/
theorem ReadsCharacters.length_pos (h : ReadsCharacters write) (c : Char) :
    0 < (write c).length := by
  refine List.length_pos_iff.mpr fun hempty => ?_
  have hread := h c []
  rw [hempty] at hread
  cases hread

/-- Writing makes no text shorter. -/
theorem ReadsCharacters.length_le (h : ReadsCharacters write) (cs : List Char) :
    cs.length ≤ (cs.flatMap write).length := by
  induction cs with
  | nil => simp
  | cons c cs ih =>
      have hc := h.length_pos c
      rw [List.flatMap_cons, List.length_append, List.length_cons]
      omega

/-- A written text and its closing quote are read as that text. -/
theorem ReadsCharacters.readQuotedWithin (h : ReadsCharacters write) (cs rest bound : List Char)
    (hbound : cs.length < bound.length) :
    readQuotedWithin bound (cs.flatMap write ++ '"' :: rest) = .ok (cs, rest) := by
  induction cs generalizing bound with
  | nil =>
      cases bound with
      | nil => simp at hbound
      | cons b bound => rfl
  | cons c cs ih =>
      cases bound with
      | nil => simp at hbound
      | cons b bound =>
          have hread := h c (cs.flatMap write ++ '"' :: rest)
          have hrest := ih bound (by simpa using hbound)
          rw [List.flatMap_cons, List.append_assoc, Json.readQuotedWithin, hread]
          simp only [bind, Except.bind, hrest]

/-- **A text whose characters read back does so**, behind its opening quote. -/
theorem ReadsCharacters.readQuoted (h : ReadsCharacters write) (cs rest : List Char) :
    readQuoted (cs.flatMap write ++ '"' :: rest) = .ok (cs, rest) := by
  refine h.readQuotedWithin cs rest _ ?_
  have hlength := h.length_le cs
  simp only [List.length_append, List.length_cons]
  omega

end Texts

/-- **A quoted text reads back**, behind its opening quote. -/
theorem readQuoted_escape (cs rest : List Char) :
    readQuoted (escape cs ++ '"' :: rest) = .ok (cs, rest) :=
  ReadsCharacters.readQuoted readCharacter_escapeChar cs rest

/-! ## No control characters -/

/-- Whether a text has a control character below U+0020 can be looked up. -/
theorem toNat_ge_of_all {cs : List Char} (h : cs.all (fun c => decide (0x20 ≤ c.toNat)) = true)
    {c : Char} (hc : c ∈ cs) : 0x20 ≤ c.toNat :=
  of_decide_eq_true (List.all_eq_true.mp h c hc)

theorem toNat_hexDigit_ge (n : Nat) : 0x20 ≤ (hexDigit (n % 16)).toNat := by
  have h : ∀ d : Fin 16, 0x20 ≤ (hexDigit d.val).toNat := by decide
  exact h ⟨n % 16, Nat.mod_lt _ (by decide)⟩

/-- No control character below U+0020 stands in what is written for a character. -/
theorem toNat_ge_of_mem_escapeChar {c d : Char} (h : d ∈ escapeChar c) : 0x20 ≤ d.toNat := by
  by_cases hquote : c = '"'
  · subst hquote
    exact toNat_ge_of_all (by decide) h
  by_cases hslash : c = '\\'
  · subst hslash
    exact toNat_ge_of_all (by decide) h
  by_cases hplain : 0x20 ≤ c.toNat
  · rw [escapeChar, if_neg hquote, if_neg hslash, if_pos hplain, List.mem_singleton] at h
    rw [h]
    exact hplain
  rw [escapeChar, if_neg hquote, if_neg hslash, if_neg hplain] at h
  -- the character is below U+0020, so the digits of its escape are two hexadecimal ones
  have hdiv : c.toNat / 16 = c.toNat / 16 % 16 := by omega
  split at h
  case h_6 =>
    rw [hdiv] at h
    simp only [List.mem_cons, List.not_mem_nil, or_false] at h
    rcases h with rfl | rfl | rfl | rfl | rfl | rfl
    · decide
    · decide
    · decide
    · decide
    · exact toNat_hexDigit_ge _
    · exact toNat_hexDigit_ge _
  all_goals exact toNat_ge_of_all (by decide) h

/-- No control character below U+0020 stands in a quoted text. -/
theorem toNat_ge_of_mem_quote {cs : List Char} {d : Char} (h : d ∈ quote cs) :
    0x20 ≤ d.toNat := by
  simp only [quote, escape, List.mem_cons, List.mem_append, List.mem_flatMap, List.not_mem_nil,
    or_false] at h
  rcases h with rfl | ⟨c, _, hd⟩ | rfl
  · decide
  · exact toNat_ge_of_mem_escapeChar hd
  · decide

end IndexAdvisor.Json
