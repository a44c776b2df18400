import IndexAdvisor.Json.Scalar
import IndexAdvisor.Proofs.Fallible
import Mathlib.Data.List.DropRight

/-!
# Settled readers

A reader goes through a text from left to right and stops behind what it reads. As long as it leaves
something of the text, what it has read is settled: it is the same however the text goes on. A chain
of settled readers is one, and so are the readers of scalars. A number is settled only where
something is left, for further digits may follow it otherwise.
-/

set_option autoImplicit false

namespace IndexAdvisor.Json

/-! ## Settled readers -/

/-- What is left of a text, by itself or behind something that has been read. -/
class Remainder (β : Type) where
  left : β → List Char
  /-- The same with more text behind it. -/
  goOn : β → List Char → β

instance : Remainder (List Char) := ⟨id, fun cs more => cs ++ more⟩

instance {α : Type} : Remainder (α × List Char) := ⟨Prod.snd, fun r more => (r.1, r.2 ++ more)⟩

open Remainder

section Chains

variable {α β γ δ : Type} [Remainder β] [Remainder γ] [Remainder δ]

/-- An answer that satisfies `P` is given by the other reader where the text goes on. -/
def SettledBy (P : γ → Prop) (read later : β → Except Stop γ) : Prop :=
  ∀ ⦃b c⦄, read b = .ok c → P c → left b ≠ [] ∧ ∀ more, later (goOn b more) = .ok (goOn c more)

/-- What has been read is settled where something is left. -/
abbrev Settled (read : β → Except Stop γ) : Prop := SettledBy (fun c => left c ≠ []) read read

/-- What has been read is settled. -/
abbrev Delimited (read : β → Except Stop γ) : Prop := SettledBy (fun _ => True) read read

variable {P : γ → Prop} {read later : β → Except Stop γ}

theorem SettledBy.mono {Q : γ → Prop} (h : SettledBy P read later) (hQ : ∀ c, Q c → P c) :
    SettledBy Q read later := fun _ c hread hc => h hread (hQ c hc)

theorem Delimited.settled (h : Delimited read) : Settled read := h.mono fun _ _ => trivial

theorem settled_self : Settled fun cs : List Char => (.ok cs : Except Stop _) := by
  rintro cs _ ⟨⟩ hleft
  exact ⟨hleft, fun _ => rfl⟩

theorem settled_ok {a : α} : Settled fun cs : List Char => (.ok (a, cs) : Except Stop _) := by
  rintro cs _ ⟨⟩ hleft
  exact ⟨hleft, fun _ => rfl⟩

/-- What never answers is settled. -/
theorem settledBy_of_ne_ok (h : ∀ b c, read b ≠ .ok c) : SettledBy P read later :=
  fun b c hread => absurd hread (h b c)

/-- A chain is settled where its end is. -/
theorem SettledBy.bind {Q : δ → Prop} {rest lastly : γ → Except Stop δ}
    (h : SettledBy (fun c => left c ≠ []) read later) (hrest : SettledBy Q rest lastly) :
    SettledBy Q (fun b => read b >>= rest) fun b => later b >>= lastly := by
  intro b d hchain hd
  obtain ⟨c, hread, hend⟩ := bind_eq_ok_iff.mp hchain
  obtain ⟨hc, hend⟩ := hrest hend hd
  obtain ⟨hb, hlater⟩ := h hread hc
  exact ⟨hb, fun more => bind_eq_ok_iff.mpr ⟨_, hlater more, hend more⟩⟩

/-- What has been read does not matter to what is left. -/
theorem settledBy_pair {read later : α × List Char → Except Stop γ}
    (h : ∀ a, SettledBy P (fun cs => read (a, cs)) fun cs => later (a, cs)) :
    SettledBy P read later := by
  rintro ⟨a, cs⟩ c hread hc
  exact h a hread hc

/-- Giving what has been read another form. -/
theorem Settled.map {f : γ → δ} (h : Settled read) (hleft : ∀ c, left (f c) = left c)
    (hgoOn : ∀ c more, f (goOn c more) = goOn (f c) more) : Settled fun b => (read b).map f := by
  intro b d hmap hd
  cases hread : read b with
  | error s =>
      simp only [hread] at hmap
      cases hmap
  | ok c =>
      simp only [hread] at hmap
      cases hmap
      rw [hleft] at hd
      obtain ⟨hb, hlater⟩ := h hread hd
      refine ⟨hb, fun more => ?_⟩
      simp only [hlater more, Except.map, hgoOn]

/-- A reader that looks at the first character. -/
theorem settledBy_of_cons {read : List Char → Except Stop γ} (hnil : ∀ c, read [] = .ok c → ¬P c)
    (hcons : ∀ d ds c, read (d :: ds) = .ok c → P c →
      ∀ more, read (d :: (ds ++ more)) = .ok (goOn c more)) : SettledBy P read read := by
  intro cs c h hc
  cases cs with
  | nil => exact absurd hc (hnil c h)
  | cons d ds => exact ⟨List.cons_ne_nil d ds, hcons d ds c h hc⟩

/-- A reader that is bounded by the text itself. -/
theorem settledBy_of_bounded (read : List Char → List Char → Except Stop γ)
    (h : ∀ bound further, bound.length ≤ further.length →
      SettledBy P (read bound) (read further)) :
    SettledBy P (fun cs => read cs cs) fun cs => read cs cs := by
  intro cs c hread hc
  -- the bound grows with the text, so the reader with the longer bound is another one
  have hfurther (more : List Char) := h cs (cs ++ more) (by simp) hread hc
  exact ⟨(hfurther []).1, fun more => (hfurther more).2 more⟩

end Chains

/-! ## Space -/

theorem skipSpace_cons {d : Char} (hd : isSpace d = false) (ds : List Char) :
    skipSpace (d :: ds) = d :: ds := by
  rw [skipSpace, List.dropWhile_cons, hd]
  rfl

theorem skipSpace_skipSpace (cs : List Char) : skipSpace (skipSpace cs) = skipSpace cs :=
  List.dropWhile_idempotent _ cs

/-- Behind the space in front a text goes on as the whole does. -/
theorem skipSpace_append {cs : List Char} (h : skipSpace cs ≠ []) (more : List Char) :
    skipSpace (cs ++ more) = skipSpace cs ++ more := by
  rw [skipSpace, List.dropWhile_append, ← skipSpace,
    if_neg fun hempty => h (List.isEmpty_iff.mp hempty)]

/-- There is nothing but space in a text, or a first character behind it. -/
theorem skipSpace_eq_nil_or (cs : List Char) : skipSpace cs = [] ∨
    ∃ d ds, isSpace d = false ∧ cs ≠ [] ∧ skipSpace cs = d :: ds ∧
      ∀ more, skipSpace (cs ++ more) = d :: (ds ++ more) := by
  cases hcs : skipSpace cs with
  | nil => exact Or.inl rfl
  | cons d ds =>
      refine Or.inr ⟨d, ds, ?_, ?_, rfl, fun more => ?_⟩
      · have hhead := List.head?_dropWhile_not isSpace cs
        rw [← skipSpace, hcs] at hhead
        exact hhead
      · rintro rfl
        cases hcs
      · rw [skipSpace_append (by simp [hcs]), hcs, List.cons_append]

/-- Readers that pass over space and look at the first character behind it. -/
theorem settledBy_of_space_both {γ : Type} [Remainder γ] {P : γ → Prop}
    {read later : List Char → Except Stop γ} (hread : ∀ cs, read (skipSpace cs) = read cs)
    (hlater : ∀ cs, later (skipSpace cs) = later cs) (hnil : ∀ c, read [] = .ok c → ¬P c)
    (hcons : ∀ d ds c, isSpace d = false → read (d :: ds) = .ok c → P c →
      ∀ more, later (d :: (ds ++ more)) = .ok (goOn c more)) : SettledBy P read later := by
  intro cs c h hc
  rw [← hread] at h
  rcases skipSpace_eq_nil_or cs with hcs | ⟨d, ds, hd, hne, hcs, happend⟩
  · rw [hcs] at h
    exact absurd hc (hnil c h)
  · rw [hcs] at h
    refine ⟨hne, fun more => ?_⟩
    show later (cs ++ more) = _
    rw [← hlater, happend]
    exact hcons d ds c hd h hc more

theorem settledBy_of_space {γ : Type} [Remainder γ] {P : γ → Prop}
    {read : List Char → Except Stop γ} (hspace : ∀ cs, read (skipSpace cs) = read cs)
    (hnil : ∀ c, read [] = .ok c → ¬P c)
    (hcons : ∀ d ds c, isSpace d = false → read (d :: ds) = .ok c → P c →
      ∀ more, read (d :: (ds ++ more)) = .ok (goOn c more)) : SettledBy P read read :=
  settledBy_of_space_both hspace hspace hnil hcons

/-! ## Words -/

theorem settled_readWord (ws : List Char) : Settled (readWord ws) := by
  induction ws with
  | nil => exact settled_self
  | cons w ws ih =>
      refine settledBy_of_cons (fun c h => by cases h) fun d ds c h hleft more => ?_
      rw [readWord] at h ⊢
      by_cases hd : d = w
      · rw [if_pos hd] at h ⊢
        exact (ih h hleft).2 more
      · rw [if_neg hd] at h
        cases h

theorem settled_readColon : Settled readColon := by
  refine settledBy_of_space (fun cs => by simp only [readColon, skipSpace_skipSpace])
    (fun c h => by cases h) fun d ds c hd h hleft more => ?_
  simp only [readColon, skipSpace_cons hd] at h ⊢
  by_cases hcolon : d = ':'
  · rw [if_pos hcolon] at h ⊢
    cases h
    rfl
  · rw [if_neg hcolon] at h
    cases h

/-! ## Quoted texts -/

theorem settled_readUnit : Settled readUnit := by
  intro cs r h hleft
  rw [readUnit] at h
  cases hn : Text.ofHexDigits? (cs.take 4) with
  | none =>
      simp only [hn] at h
      split at h <;> cases h
  | some n =>
      simp only [hn] at h
      split at h
      · rename_i hlength
        cases h
        -- four digits have been read, so what comes behind the text is not looked at
        have hcs : 4 ≤ cs.length := by
          rw [List.length_take] at hlength
          omega
        have hne : cs ≠ [] := by
          rintro rfl
          exact absurd hcs (by decide)
        refine ⟨hne, fun more => ?_⟩
        show readUnit (cs ++ more) = .ok (n, cs.drop 4 ++ more)
        have htake : (cs ++ more).take 4 = cs.take 4 := List.take_append_of_le_length hcs
        rw [readUnit, htake]
        simp only [hn, if_pos hlength, List.drop_append_of_le_length hcs]
      · cases h

theorem settled_readEscape : Settled readEscape := by
  refine settledBy_of_cons (fun c h => by cases h) fun d ds r h hleft more => ?_
  rw [readEscape] at h ⊢
  by_cases hd : d = 'u'
  · rw [if_pos hd] at h ⊢
    have hunit : Settled fun cs => (readUnit cs).map fun r => (Escaped.unit r.1, r.2) :=
      settled_readUnit.map (fun _ => rfl) fun _ _ => rfl
    exact (hunit h hleft).2 more
  · rw [if_neg hd] at h ⊢
    cases hc : escaped? d with
    | none =>
        simp only [hc] at h
        cases h
    | some c =>
        simp only [hc] at h ⊢
        cases h
        rfl

theorem settled_readMark (mark : Char) : Settled (readMark mark) := by
  refine settledBy_of_cons (fun c h => by cases h) fun d ds r h hleft more => ?_
  rw [readMark] at h ⊢
  by_cases hd : d = mark
  · rw [if_pos hd] at h ⊢
    cases h
    rfl
  · rw [if_neg hd] at h
    cases h

theorem settled_readPair (n : Nat) : Settled (readPair n) := by
  unfold readPair
  by_cases hlow : 0xDC00 ≤ n ∧ n < 0xE000
  · simp only [if_pos hlow]
    exact settledBy_of_ne_ok fun _ _ h => by cases h
  by_cases hhigh : 0xD800 ≤ n ∧ n < 0xDC00
  · simp only [if_neg hlow, if_pos hhigh]
    refine (settled_readMark '\\').bind ((settled_readMark 'u').bind ?_)
    refine settled_readUnit.bind (settledBy_pair fun low => ?_)
    by_cases hpair : 0xDC00 ≤ low ∧ low < 0xE000
    · simp only [if_pos hpair]
      exact settled_ok
    · simp only [if_neg hpair]
      exact settledBy_of_ne_ok fun _ _ h => by cases h
  · simp only [if_neg hlow, if_neg hhigh]
    exact settled_ok

/-- The character that an escape stands for; further ones may belong to it. -/
def ofEscaped : Escaped × List Char → Except Stop (Option Char × List Char)
  | (.char c, cs) => .ok (some c, cs)
  | (.unit n, cs) => readPair n cs >>= fun r => .ok (some r.1, r.2)

theorem settled_ofEscaped : Settled ofEscaped := by
  refine settledBy_pair fun e => ?_
  cases e with
  | char c => exact settled_ok
  | unit n => exact (settled_readPair n).bind (settledBy_pair fun c => settled_ok (a := some c))

theorem settled_readCharacter : Settled readCharacter := by
  refine settledBy_of_cons (fun c h => by cases h) fun d ds r h hleft more => ?_
  rw [readCharacter] at h ⊢
  by_cases hquote : d = '"'
  · rw [if_pos hquote] at h ⊢
    cases h
    rfl
  rw [if_neg hquote] at h ⊢
  by_cases hslash : d = '\\'
  · rw [if_pos hslash] at h ⊢
    exact ((settled_readEscape.bind settled_ofEscaped) h hleft).2 more
  rw [if_neg hslash] at h ⊢
  by_cases hcontrol : d.toNat < 0x20
  · rw [if_pos hcontrol] at h
    cases h
  · rw [if_neg hcontrol] at h ⊢
    cases h
    rfl

theorem settled_skipCharacter : Settled skipCharacter := by
  refine settledBy_of_cons (fun c h => by cases h) fun d ds r h hleft more => ?_
  rw [skipCharacter] at h ⊢
  by_cases hquote : d = '"'
  · rw [if_pos hquote] at h ⊢
    cases h
    rfl
  rw [if_neg hquote] at h ⊢
  by_cases hslash : d = '\\'
  · rw [if_pos hslash] at h ⊢
    have hescape : Settled fun cs => (readEscape cs).map fun r => (false, r.2) :=
      settled_readEscape.map (fun _ => rfl) fun _ _ => rfl
    exact (hescape h hleft).2 more
  rw [if_neg hslash] at h ⊢
  by_cases hcontrol : d.toNat < 0x20
  · rw [if_pos hcontrol] at h
    cases h
  · rw [if_neg hcontrol] at h ⊢
    cases h
    rfl

/-- A longer bound allows what a shorter one does. -/
theorem settledBy_readQuotedWithin {bound further : List Char}
    (h : bound.length ≤ further.length) :
    SettledBy (fun r => left r ≠ []) (readQuotedWithin bound) (readQuotedWithin further) := by
  induction bound generalizing further with
  | nil => exact settledBy_of_ne_ok fun _ _ h => by cases h
  | cons b bound ih =>
      cases further with
      | nil => cases h
      | cons b' further =>
          refine settled_readCharacter.bind (settledBy_pair fun o => ?_)
          cases o with
          | none => exact settled_ok
          | some c =>
              exact (ih (Nat.le_of_succ_le_succ h)).bind (settledBy_pair fun text => settled_ok)

theorem settled_readQuoted : Settled readQuoted :=
  settledBy_of_bounded readQuotedWithin fun _ _ => settledBy_readQuotedWithin

theorem settledBy_skipQuotedWithin {bound further : List Char}
    (h : bound.length ≤ further.length) :
    SettledBy (fun r => left r ≠ []) (skipQuotedWithin bound) (skipQuotedWithin further) := by
  induction bound generalizing further with
  | nil => exact settledBy_of_ne_ok fun _ _ h => by cases h
  | cons b bound ih =>
      cases further with
      | nil => cases h
      | cons b' further =>
          refine settled_skipCharacter.bind (settledBy_pair fun isClosed => ?_)
          cases isClosed with
          | true => exact settled_self
          | false => exact ih (Nat.le_of_succ_le_succ h)

theorem settled_skipQuoted : Settled skipQuoted :=
  settledBy_of_bounded skipQuotedWithin fun _ _ => settledBy_skipQuotedWithin

/-! ## Numbers -/

theorem settled_readDigits (atEnd : Flaw) : Settled (readDigits atEnd) := by
  refine settledBy_of_cons (fun c h => by cases h) fun d ds r h hleft more => ?_
  simp only [readDigits] at h ⊢
  by_cases hd : d.isDigit
  · rw [if_pos hd] at h ⊢
    cases h
    have hrest : ds.dropWhile Char.isDigit ≠ [] := hleft
    -- a character that is no digit is left, so further text adds no digit
    have hdigits : (ds.takeWhile Char.isDigit).length ≠ ds.length := by
      have hlength := congrArg List.length (ds.takeWhile_append_dropWhile (p := Char.isDigit))
      have hpos := List.length_pos_iff.mpr hrest
      rw [List.length_append] at hlength
      omega
    rw [List.takeWhile_append, if_neg hdigits, List.dropWhile_append,
      if_neg fun h => hrest (List.isEmpty_iff.mp h)]
    rfl
  · rw [if_neg hd] at h
    cases h

theorem settled_readWholePart (atEnd : Flaw) : Settled (readWholePart atEnd) := by
  refine (settled_readDigits atEnd).bind (settledBy_pair fun ds => ?_)
  dsimp only
  split
  · exact settledBy_of_ne_ok fun _ _ h => by cases h
  · exact settled_ok

theorem settled_readFractionPart (atEnd : Flaw) : Settled (readFractionPart atEnd) := by
  refine settledBy_of_cons (fun c h hleft => by cases h; exact hleft rfl)
    fun d ds r h hleft more => ?_
  by_cases hd : d = '.'
  · subst hd
    exact ((settled_readDigits atEnd) h hleft).2 more
  · have hnone (cs : List Char) : readFractionPart atEnd (d :: cs) = .ok ([], d :: cs) := by
      rw [readFractionPart]
      rintro cs heq
      exact hd (List.cons.inj heq).1
    rw [hnone] at h ⊢
    cases h
    rfl

theorem settled_readSign : Settled fun cs => (.ok (readSign cs) : Except Stop _) := by
  refine settledBy_of_cons (fun c h hleft => by cases h; exact hleft rfl)
    fun d ds r h hleft more => ?_
  by_cases hplus : d = '+'
  · subst hplus
    cases h
    rfl
  by_cases hminus : d = '-'
  · subst hminus
    cases h
    rfl
  · have hnone (cs : List Char) : readSign (d :: cs) = (false, d :: cs) := by
      unfold readSign
      split
      · rename_i heq
        exact absurd (List.cons.inj heq).1 hplus
      · rename_i heq
        exact absurd (List.cons.inj heq).1 hminus
      · rfl
    rw [hnone] at h ⊢
    cases h
    rfl

theorem settled_readExponent (atEnd : Flaw) : Settled (readExponent atEnd) := by
  refine settledBy_of_cons (fun c h hleft => by cases h; exact hleft rfl)
    fun d ds r h hleft more => ?_
  simp only [readExponent] at h ⊢
  by_cases hd : d = 'e' ∨ d = 'E'
  · rw [if_pos hd] at h ⊢
    have hchain : Settled fun cs => (.ok (readSign cs) : Except Stop _) >>= fun sign =>
        readDigits atEnd sign.2 >>= fun digits => .ok (some (sign.1, digits.1), digits.2) := by
      refine settled_readSign.bind (settledBy_pair fun negative => ?_)
      dsimp only
      refine (settled_readDigits atEnd).bind (settledBy_pair fun ds => ?_)
      dsimp only
      exact settled_ok
    exact (hchain h hleft).2 more
  · rw [if_neg hd] at h ⊢
    cases h
    rfl

theorem settled_readNumeral (atEnd : Flaw) : Settled (readNumeral atEnd) := by
  have hparts (negative : Bool) : Settled fun cs => readWholePart atEnd cs >>= fun whole =>
      readFractionPart atEnd whole.2 >>= fun fraction =>
        readExponent atEnd fraction.2 >>= fun exponent =>
          .ok (Numeral.mk negative whole.1 fraction.1 exponent.1, exponent.2) := by
    refine (settled_readWholePart atEnd).bind (settledBy_pair fun whole => ?_)
    dsimp only
    refine (settled_readFractionPart atEnd).bind (settledBy_pair fun fraction => ?_)
    dsimp only
    refine (settled_readExponent atEnd).bind (settledBy_pair fun exponent => ?_)
    dsimp only
    exact settled_ok
  refine settledBy_of_cons (fun c h => by cases h) fun d ds r h hleft more => ?_
  -- the sign is told by the first character, the parts are read behind it
  by_cases hd : d = '-'
  · subst hd
    exact ((hparts true) h hleft).2 more
  · have hnone (cs : List Char) : readNumeral atEnd (d :: cs) =
        readWholePart atEnd (d :: cs) >>= fun whole =>
          readFractionPart atEnd whole.2 >>= fun fraction =>
            readExponent atEnd fraction.2 >>= fun exponent =>
              .ok (Numeral.mk false whole.1 fraction.1 exponent.1, exponent.2) := by
      unfold readNumeral
      split
      rename_i heq
      split at heq
      · rename_i hcons
        exact absurd (List.cons.inj hcons).1 hd
      · cases heq
        rfl
    rw [hnone] at h ⊢
    exact ((hparts false) h hleft).2 more

theorem settled_readNumber : Settled readNumber := by
  refine (settled_readNumeral _).bind (settledBy_pair fun n => ?_)
  dsimp only
  cases n.value? with
  | some v => exact settled_ok
  | none =>
      refine settledBy_of_ne_ok fun _ _ h => ?_
      dsimp only at h
      split at h <;> cases h

theorem settled_skipNumber : Settled skipNumber :=
  (settled_readNumeral _).map (fun _ => rfl) fun _ _ => rfl

/-! ## Scalars -/

/-- A word behind its first letter. -/
theorem settled_readWord_map {α : Type} (ws : List Char) (a : α) :
    Settled fun cs => (readWord ws cs).map fun cs => (a, cs) :=
  (settled_readWord ws).map (fun _ => rfl) fun _ _ => rfl

theorem settled_readScalar : Settled readScalar := by
  refine settledBy_of_cons (fun c h => by cases h) fun d ds r h hleft more => ?_
  by_cases hn : d = 'n'
  · subst hn
    exact (settled_readWord_map _ _ h hleft).2 more
  by_cases ht : d = 't'
  · subst ht
    exact (settled_readWord_map _ _ h hleft).2 more
  by_cases hf : d = 'f'
  · subst hf
    exact (settled_readWord_map _ _ h hleft).2 more
  by_cases hquote : d = '"'
  · subst hquote
    have hquoted : Settled fun cs =>
        (readQuoted cs).map fun r => (Scalar.string (String.ofList r.1), r.2) :=
      settled_readQuoted.map (fun _ => rfl) fun _ _ => rfl
    exact (hquoted h hleft).2 more
  have hother (cs : List Char) : readScalar (d :: cs) =
      if d == '-' || d.isDigit then (readNumber (d :: cs)).map fun r => (.number r.1, r.2)
      else refuse .noValue (d :: cs) := by
    -- the other characters have been excluded by the cases above
    unfold readScalar
    split <;> simp_all [isNumberAhead]
  have hnumber : Settled fun cs => (readNumber cs).map fun r => (Scalar.number r.1, r.2) :=
    settled_readNumber.map (fun _ => rfl) fun _ _ => rfl
  rw [hother] at h ⊢
  by_cases hahead : (d == '-' || d.isDigit) = true
  · rw [if_pos hahead] at h ⊢
    exact (hnumber h hleft).2 more
  · rw [if_neg hahead] at h
    cases h

theorem settled_skipScalar : Settled skipScalar := by
  refine settledBy_of_cons (fun c h => by cases h) fun d ds r h hleft more => ?_
  by_cases hn : d = 'n'
  · subst hn
    exact (settled_readWord _ h hleft).2 more
  by_cases ht : d = 't'
  · subst ht
    exact (settled_readWord _ h hleft).2 more
  by_cases hf : d = 'f'
  · subst hf
    exact (settled_readWord _ h hleft).2 more
  by_cases hquote : d = '"'
  · subst hquote
    exact (settled_skipQuoted h hleft).2 more
  have hother (cs : List Char) : skipScalar (d :: cs) =
      if d == '-' || d.isDigit then skipNumber (d :: cs) else refuse .noValue (d :: cs) := by
    unfold skipScalar
    split <;> simp_all [isNumberAhead]
  rw [hother] at h ⊢
  by_cases hahead : (d == '-' || d.isDigit) = true
  · rw [if_pos hahead] at h ⊢
    exact (settled_skipNumber h hleft).2 more
  · rw [if_neg hahead] at h
    cases h

end IndexAdvisor.Json
