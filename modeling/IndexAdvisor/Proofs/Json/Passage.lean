import IndexAdvisor.Proofs.Json.Extent
import IndexAdvisor.Proofs.Json.Skipped

/-!
# Readers that agree on where a value ends

A value ends where it is passed over to, whoever reads it: a reader of some shape, the reader of
values of any form, or one that keeps nothing. So two records that differ in the shape of a field
only are read in step.

What is passed over is told by what is open around it. A value is `Passed` if whoever can go on
behind it, in whatever is open, can also go on in front of it.
-/

set_option autoImplicit false

namespace IndexAdvisor.Json

/-! ## What is passed over -/

/-- A value ends where `rest` begins: whoever goes on there, in whatever is open, comes as far from
in front of the value. -/
def Passed (cs rest : List Char) : Prop :=
  ∀ ⦃opened : List Opened⦄ ⦃bound final : List Char⦄, skipOn bound opened rest = .ok final →
    ∃ further, skipWithin further opened cs = .ok final

/-- The bracket that opens an array, or the brace that opens an object. -/
def Opened.mark : Opened → Char
  | .array => '['
  | .object => '{'

/-- The bracket or brace that closes it. -/
def Opened.close : Opened → Char
  | .array => ']'
  | .object => '}'

/-- What is wrong with a text that leaves it open. -/
def Opened.unfinished : Opened → Flaw
  | .array => .unfinishedArray
  | .object => .unfinishedObject

/-- Passes over all that follows what is open once it has been told whether it ends there. -/
def skipPart (bound : List Char) (o : Opened) (opened : List Opened) (ahead : Bool × List Char) :
    Except Stop (List Char) :=
  if ahead.1 then skipOn bound opened ahead.2
  else skipFront o ahead.2 >>= skipWithin bound (o :: opened)

/-- What is open ends where `rest` begins. The text goes on in front of its first part, behind the
mark that opens it, or else behind a part. -/
def Ends (o : Opened) (first : Bool) (cs rest : List Char) : Prop :=
  match first with
  | true => Passed (o.mark :: cs) rest
  | false => ∀ ⦃opened : List Opened⦄ ⦃bound final : List Char⦄,
      skipOn bound opened rest = .ok final →
        ∃ further, skipOn further (o :: opened) cs = .ok final

/-- **Who passes over the text comes to what is left of it.** -/
def Passes {α : Type} (read : List Char → Except Stop (α × List Char)) : Prop :=
  ∀ ⦃cs a rest⦄, read cs = .ok (a, rest) → Passed cs rest

/-- The same for what is read of a member behind its name: a colon and a value. -/
def PassesMember {σ : Type} (read : List Char → σ → List Char → Except Stop (σ × List Char)) :
    Prop :=
  ∀ ⦃name s cs t rest⦄, read name s cs = .ok (t, rest) →
    ∃ ds, readColon cs = .ok ds ∧ Passed ds rest

/-- A value has one end, if something is left behind it. -/
theorem Passed.unique {cs rest rest' : List Char} (h : Passed cs rest) (h' : Passed cs rest')
    (hrest : rest ≠ []) (hrest' : rest' ≠ []) : rest = rest' := by
  have hdone (left : List Char) : skipOn [] [] left = .ok left := rfl
  obtain ⟨bound, hbound⟩ := h (hdone rest)
  obtain ⟨bound', hbound'⟩ := h' (hdone rest')
  -- the two bounds differ, and what is settled within either is settled within both together
  have hlong : bound.length ≤ (bound ++ bound').length := by simp
  have hlong' : bound'.length ≤ (bound ++ bound').length := by simp
  have hskip := ((settledBy_skip hlong).1 [] hbound hrest).2 []
  have hskip' := ((settledBy_skip hlong').1 [] hbound' hrest').2 []
  simpa [Remainder.goOn] using hskip.symm.trans hskip'

/-! ## What is open -/

/-- A value is opened by its mark, or else it is a scalar. -/
theorem exists_mark_or (d : Char) : (∃ o : Opened, d = o.mark) ∨ (d ≠ '[' ∧ d ≠ '{') := by
  by_cases harray : d = '['
  · exact Or.inl ⟨.array, harray⟩
  by_cases hobject : d = '{'
  · exact Or.inl ⟨.object, hobject⟩
  · exact Or.inr ⟨harray, hobject⟩

/-- Arrays and objects are passed over alike. -/
theorem skipWithin_mark (b : Char) (bound : List Char) (opened : List Opened) (o : Opened)
    (cs : List Char) : skipWithin (b :: bound) opened (o.mark :: cs) =
      skipOpening o.close o.unfinished cs >>= skipPart bound o opened := by
  cases o with
  | array =>
      show skipWithin _ opened ('[' :: cs) = _
      rw [skipWithin_cons _ _ _ rfl, if_pos rfl]
      rfl
  | object =>
      show skipWithin _ opened ('{' :: cs) = _
      rw [skipWithin_cons _ _ _ rfl, if_neg (by decide), if_pos rfl]
      rfl

theorem skipWithin_scalar (b : Char) (bound : List Char) (opened : List Opened) {d : Char}
    (hd : isSpace d = false) (hmark : d ≠ '[' ∧ d ≠ '{') (ds : List Char) :
    skipWithin (b :: bound) opened (d :: ds) = skipScalar (d :: ds) >>= skipOn bound opened := by
  rw [skipWithin_cons _ _ _ hd, if_neg hmark.1, if_neg hmark.2]

theorem skipOn_cons (b : Char) (bound : List Char) (o : Opened) (opened : List Opened)
    (cs : List Char) :
    skipOn (b :: bound) (o :: opened) cs = skipBehind o cs >>= skipPart bound o opened := rfl

section Ahead

variable {o : Opened} {cs more : List Char}

theorem skipOpening_of_close (h : skipSpace cs = o.close :: more) :
    skipOpening o.close o.unfinished cs = .ok (true, more) := by
  rw [skipOpening, h]
  exact if_pos rfl

theorem skipOpening_of_ne {c : Char} (h : skipSpace cs = c :: more) (hc : c ≠ o.close) :
    skipOpening o.close o.unfinished cs = .ok (false, c :: more) := by
  rw [skipOpening, h]
  exact if_neg hc

theorem skipBehind_of_close (h : skipSpace cs = o.close :: more) :
    skipBehind o cs = .ok (true, more) := by
  cases o with
  | array =>
      rw [skipBehind, skipSeparator, h]
      rfl
  | object =>
      rw [skipBehind, skipSeparator, h]
      rfl

theorem skipBehind_of_comma (h : skipSpace cs = ',' :: more) :
    skipBehind o cs = .ok (false, more) := by
  cases o with
  | array =>
      rw [skipBehind, skipSeparator, h]
      rfl
  | object =>
      rw [skipBehind, skipSeparator, h]
      rfl

end Ahead

/-! ## Scalars -/

theorem passed_skipSpace {cs rest : List Char} : Passed (skipSpace cs) rest ↔ Passed cs rest := by
  simp only [Passed, skipWithin_skipSpace]

theorem passed_of_skipScalar {cs rest : List Char} (h : skipScalar cs = .ok rest)
    (hcs : skipSpace cs = cs) : Passed cs rest := by
  intro opened bound final hon
  refine ⟨' ' :: bound, ?_⟩
  rcases skipSpace_eq_nil_or cs with hnil | ⟨d, ds, hd, -, hcons, -⟩
  · rw [hcs] at hnil
    subst hnil
    cases h
  · rw [hcs] at hcons
    subst hcons
    have hmark : d ≠ '[' ∧ d ≠ '{' := by
      constructor
      · rintro rfl
        cases h
      · rintro rfl
        cases h
    rw [skipWithin_scalar _ _ _ hd hmark, h]
    exact hon

/-! ## Items and members -/

section Parts

variable {o : Opened} {first : Bool} {cs ds es rest : List Char}

/-- What is open ends at its bracket or brace. -/
theorem ends_of_close (h : skipSpace cs = o.close :: rest) : Ends o first cs rest := by
  cases first with
  | true =>
      intro opened bound final hon
      refine ⟨' ' :: bound, ?_⟩
      rw [skipWithin_mark, skipOpening_of_close h]
      exact hon
  | false =>
      intro opened bound final hon
      refine ⟨' ' :: bound, ?_⟩
      rw [skipOn_cons, skipBehind_of_close h]
      exact hon

/-- What has been opened goes on with its first part. -/
theorem ends_of_first {c : Char} {more : List Char} (h : skipSpace cs = c :: more)
    (hc : c ≠ o.close) (hfront : skipFront o (c :: more) = .ok ds) (hds : Passed ds es)
    (hes : Ends o false es rest) : Ends o true cs rest := by
  intro opened bound final hon
  -- from the end backwards: what is open goes on behind its first part, and so in front of it
  obtain ⟨behind, hbehind⟩ := hes hon
  obtain ⟨further, hfurther⟩ := hds hbehind
  refine ⟨' ' :: further, ?_⟩
  rw [skipWithin_mark]
  exact bind_eq_ok_iff.mpr
    ⟨_, skipOpening_of_ne h hc, bind_eq_ok_iff.mpr ⟨ds, hfront, hfurther⟩⟩

/-- Behind a part what is open goes on with a comma and another part. -/
theorem ends_of_next {more : List Char} (h : skipSpace cs = ',' :: more)
    (hfront : skipFront o more = .ok ds) (hds : Passed ds es) (hes : Ends o false es rest) :
    Ends o false cs rest := by
  intro opened bound final hon
  obtain ⟨behind, hbehind⟩ := hes hon
  obtain ⟨further, hfurther⟩ := hds hbehind
  refine ⟨' ' :: further, ?_⟩
  rw [skipOn_cons]
  exact bind_eq_ok_iff.mpr
    ⟨_, skipBehind_of_comma h, bind_eq_ok_iff.mpr ⟨ds, hfront, hfurther⟩⟩

/-- What a reader of items finds ahead: the end of the array, its first item, or a comma and
another. -/
theorem nextItem_cases {r : Bool × List Char} (h : nextItem first cs = .ok r) :
    (∃ more, skipSpace cs = ']' :: more ∧ r = (false, more)) ∨
      (first = true ∧ ∃ c more, skipSpace cs = c :: more ∧ c ≠ ']' ∧ r = (true, c :: more)) ∨
        (first = false ∧ ∃ more, skipSpace cs = ',' :: more ∧ r = (true, skipSpace more)) := by
  cases hcs : skipSpace cs with
  | nil =>
      rw [nextItem, hcs] at h
      cases h
  | cons c more =>
      rw [nextItem, hcs] at h
      dsimp only at h
      by_cases hclose : c = ']'
      · rw [if_pos hclose] at h
        cases h
        exact Or.inl ⟨more, by rw [hclose], rfl⟩
      rw [if_neg hclose] at h
      cases first with
      | true =>
          cases h
          exact Or.inr (Or.inl ⟨rfl, c, more, rfl, hclose, rfl⟩)
      | false =>
          rw [if_neg Bool.false_ne_true] at h
          split at h
          · rename_i hcomma
            refine Or.inr (Or.inr ⟨rfl, more, by rw [hcomma], ?_⟩)
            split at h
            · cases h
            · rename_i d more' hmore
              split at h <;> cases h
              rw [hmore]
          · cases h

theorem ends_of_nextItem_false (h : nextItem first cs = .ok (false, rest)) :
    Ends .array first cs rest := by
  rcases nextItem_cases h with ⟨more, hcs, heq⟩ | ⟨-, c, more, -, -, heq⟩ | ⟨-, more, -, heq⟩
  · cases heq
    exact ends_of_close hcs
  · cases heq
  · cases heq

theorem ends_of_nextItem (h : nextItem first cs = .ok (true, ds)) (hds : Passed ds es)
    (hes : Ends .array false es rest) : Ends .array first cs rest := by
  rcases nextItem_cases h with ⟨more, -, heq⟩ | ⟨rfl, c, more, hcs, hc, heq⟩ | ⟨rfl, more, hcs, heq⟩
  · cases heq
  · cases heq
    exact ends_of_first hcs hc rfl hds hes
  · cases heq
    exact ends_of_next hcs rfl (passed_skipSpace.mp hds) hes

/-- What a reader of members finds ahead: the end of the object, or a name behind a quote, with a
comma in front of it unless it is the first. -/
theorem nextMember_cases {r : Option (List Char) × List Char} (h : nextMember first cs = .ok r) :
    (∃ more, skipSpace cs = '}' :: more ∧ r = (none, more)) ∨
      ∃ quoted name ds, readQuoted quoted = .ok (name, ds) ∧ r = (some name, ds) ∧
        ((first = true ∧ skipSpace cs = '"' :: quoted) ∨
          (first = false ∧ ∃ more, skipSpace cs = ',' :: more ∧
            skipSpace more = '"' :: quoted)) := by
  cases hcs : skipSpace cs with
  | nil =>
      rw [nextMember, hcs] at h
      cases h
  | cons c more =>
      rw [nextMember, hcs] at h
      dsimp only at h
      by_cases hclose : c = '}'
      · rw [if_pos hclose] at h
        cases h
        exact Or.inl ⟨more, by rw [hclose], rfl⟩
      rw [if_neg hclose] at h
      refine Or.inr ?_
      cases first with
      | true =>
          rw [if_pos rfl] at h
          split at h
          · rename_i hquote
            obtain ⟨⟨name, ds⟩, hname, h⟩ := map_eq_ok_iff.mp h
            exact ⟨more, name, ds, hname, h.symm, Or.inl ⟨rfl, by rw [hquote]⟩⟩
          · cases h
      | false =>
          rw [if_neg Bool.false_ne_true] at h
          split at h
          · rename_i hcomma
            split at h
            · cases h
            · rename_i d quoted hmore
              split at h
              · rename_i hquote
                obtain ⟨⟨name, ds⟩, hname, h⟩ := map_eq_ok_iff.mp h
                exact ⟨quoted, name, ds, hname, h.symm,
                  Or.inr ⟨rfl, more, by rw [hcomma], by rw [hmore, hquote]⟩⟩
              · split at h <;> cases h
          · cases h

/-- The name of a member is passed over. -/
theorem skipName_of_readQuoted {more name : List Char} (h : skipSpace cs = '"' :: more)
    (hname : readQuoted more = .ok (name, rest)) : skipName cs = .ok rest := by
  rw [skipName, h]
  exact skipQuoted_of_readQuoted hname

theorem ends_of_nextMember_none (h : nextMember first cs = .ok (none, rest)) :
    Ends .object first cs rest := by
  rcases nextMember_cases h with ⟨more, hcs, heq⟩ | ⟨quoted, name, ds, -, heq, -⟩
  · cases heq
    exact ends_of_close hcs
  · cases heq

theorem ends_of_nextMember {name value : List Char}
    (h : nextMember first cs = .ok (some name, ds)) (hcolon : readColon ds = .ok value)
    (hvalue : Passed value es) (hes : Ends .object false es rest) : Ends .object first cs rest := by
  rcases nextMember_cases h with ⟨more, -, heq⟩ | ⟨quoted, name, ds, hname, heq, hahead⟩
  · cases heq
  cases heq
  have hfront {front : List Char} (hquote : skipSpace front = '"' :: quoted) :
      skipFront .object front = .ok value :=
    bind_eq_ok_iff.mpr ⟨ds, skipName_of_readQuoted hquote hname, hcolon⟩
  rcases hahead with ⟨rfl, hcs⟩ | ⟨rfl, more, hcs, hmore⟩
  · exact ends_of_first hcs (by decide) (hfront (skipSpace_cons rfl quoted)) hvalue hes
  · exact ends_of_next hcs (hfront hmore) hvalue hes

/-- An array ends where the reader of its items stops. -/
theorem ends_of_readItemsWithin {α : Type} {read : List Char → Except Stop (α × List Char)}
    (hread : Passes read) {bound : List Char} {vs : List α}
    (h : readItemsWithin read bound first cs = .ok (vs, rest)) : Ends .array first cs rest := by
  induction bound generalizing first cs vs with
  | nil => cases h
  | cons b bound ih =>
      obtain ⟨⟨isItem, ds⟩, hnext, h⟩ := bind_eq_ok_iff.mp h
      cases isItem with
      | false =>
          cases h
          exact ends_of_nextItem_false hnext
      | true =>
          obtain ⟨⟨v, es⟩, hv, h⟩ := bind_eq_ok_iff.mp h
          obtain ⟨⟨vs', fs⟩, hvs, h⟩ := bind_eq_ok_iff.mp h
          cases h
          exact ends_of_nextItem hnext (hread hv) (ih hvs)

/-- An object ends where the reader of its members stops. -/
theorem ends_of_readMembersWithin {σ : Type}
    {read : List Char → σ → List Char → Except Stop (σ × List Char)} (hread : PassesMember read)
    {bound : List Char} {s t : σ}
    (h : readMembersWithin read bound first s cs = .ok (t, rest)) : Ends .object first cs rest := by
  induction bound generalizing first cs s with
  | nil => cases h
  | cons b bound ih =>
      obtain ⟨⟨name?, ds⟩, hnext, h⟩ := bind_eq_ok_iff.mp h
      cases name? with
      | none =>
          cases h
          exact ends_of_nextMember_none hnext
      | some name =>
          obtain ⟨⟨s', es⟩, hmember, h⟩ := bind_eq_ok_iff.mp h
          obtain ⟨value, hcolon, hvalue⟩ := hread hmember
          exact ends_of_nextMember hnext hcolon hvalue (ih h)

end Parts

/-! ## Values of any form -/

/-- What is passed over within what is open is passed over within what is around that as well. -/
theorem skip_append {around : List Opened} {behind rest final : List Char}
    (hbehind : skipOn behind around rest = .ok final) (bound : List Char) :
    (∀ opened cs, skipWithin bound opened cs = .ok rest →
      ∃ further, skipWithin further (opened ++ around) cs = .ok final) ∧
    ∀ opened cs, skipOn bound opened cs = .ok rest →
      ∃ further, skipOn further (opened ++ around) cs = .ok final := by
  have hdone {cs : List Char} (h : (.ok cs : Except Stop _) = .ok rest) :
      ∃ further, skipOn further ([] ++ around) cs = .ok final := by
    cases h
    exact ⟨behind, hbehind⟩
  -- a value may hold others and what is open goes on with values, so both are followed at once
  induction bound with
  | nil =>
      refine ⟨fun _ _ h => (by cases h), fun opened cs h => ?_⟩
      cases opened with
      | nil => exact hdone h
      | cons o opened => cases o <;> cases h
  | cons b bound ih =>
      obtain ⟨hwithin, hon⟩ := ih
      have hpart {o : Opened} {opened : List Opened} {ahead : Bool × List Char}
          (h : skipPart bound o opened ahead = .ok rest) :
          ∃ further, skipPart further o (opened ++ around) ahead = .ok final := by
        obtain ⟨isClosed, es⟩ := ahead
        cases isClosed with
        | true => exact hon _ _ h
        | false =>
            obtain ⟨fs, hfront, h⟩ := bind_eq_ok_iff.mp h
            obtain ⟨further, hfurther⟩ := hwithin _ _ h
            exact ⟨further, bind_eq_ok_iff.mpr ⟨fs, hfront, hfurther⟩⟩
      constructor
      · intro opened cs h
        rw [← skipWithin_skipSpace] at h
        simp only [← skipWithin_skipSpace _ _ cs]
        rcases skipSpace_eq_nil_or cs with hcs | ⟨d, ds, hd, -, hcs, -⟩
        · rw [hcs] at h
          cases h
        rw [hcs] at h ⊢
        rcases exists_mark_or d with ⟨o, rfl⟩ | hmark
        · rw [skipWithin_mark] at h
          obtain ⟨ahead, hahead, h⟩ := bind_eq_ok_iff.mp h
          obtain ⟨further, hfurther⟩ := hpart h
          refine ⟨' ' :: further, ?_⟩
          rw [skipWithin_mark, hahead]
          exact hfurther
        · rw [skipWithin_scalar _ _ _ hd hmark] at h
          obtain ⟨es, hscalar, h⟩ := bind_eq_ok_iff.mp h
          obtain ⟨further, hfurther⟩ := hon _ _ h
          refine ⟨' ' :: further, ?_⟩
          rw [skipWithin_scalar _ _ _ hd hmark, hscalar]
          exact hfurther
      · intro opened cs h
        cases opened with
        | nil => exact hdone h
        | cons o opened =>
            obtain ⟨ahead, hahead, h⟩ := bind_eq_ok_iff.mp h
            obtain ⟨further, hfurther⟩ := hpart h
            exact ⟨' ' :: further, bind_eq_ok_iff.mpr ⟨ahead, hahead, hfurther⟩⟩

theorem passed_of_skipValue {cs rest : List Char} (h : skipValue cs = .ok rest) :
    Passed cs rest := fun _ _ _ hon => (skip_append hon cs).1 [] cs h

theorem passes_addMember {read : List Char → Except Stop (Json × List Char)}
    (hread : Passes read) : PassesMember (addMember read) := by
  intro name members cs t rest h
  obtain ⟨ds, hcolon, h⟩ := bind_eq_ok_iff.mp h
  obtain ⟨⟨v, es⟩, hv, h⟩ := bind_eq_ok_iff.mp h
  cases h
  exact ⟨ds, hcolon, hread hv⟩

/-- Readers that pass over space and look at the first character behind it. -/
theorem passes_of_space {α : Type} {read : List Char → Except Stop (α × List Char)}
    (hspace : ∀ cs, read (skipSpace cs) = read cs) (hnil : ∀ r, read [] ≠ .ok r)
    (hcons : ∀ d ds a rest, isSpace d = false → read (d :: ds) = .ok (a, rest) →
      Passed (d :: ds) rest) : Passes read := by
  intro cs a rest h
  rw [← hspace] at h
  rw [← passed_skipSpace]
  rcases skipSpace_eq_nil_or cs with hcs | ⟨d, ds, hd, -, hcs, -⟩
  · rw [hcs] at h
    exact absurd h (hnil _)
  · rw [hcs] at h ⊢
    exact hcons d ds a rest hd h

theorem passed_of_readScalar {d : Char} {ds rest : List Char} {x : Scalar}
    (hd : isSpace d = false) (h : readScalar (d :: ds) = .ok (x, rest)) : Passed (d :: ds) rest :=
  passed_of_skipScalar (skipScalar_of_readScalar h) (skipSpace_cons hd ds)

/-- Who passes over a value of any form comes to where its reader stops. -/
theorem passes_readValue (room : Nat) : Passes (readValue room) := by
  induction room with
  | zero =>
      refine passes_of_space (readValue_skipSpace 0) (fun r h => by cases h) ?_
      intro d ds v rest hd h
      by_cases harray : d = '['
      · subst harray
        cases h
      by_cases hobject : d = '{'
      · subst hobject
        cases h
      rw [readValue_of_scalar 0 hd harray hobject] at h
      obtain ⟨r, hscalar, h⟩ := map_eq_ok_iff.mp h
      cases h
      exact passed_of_readScalar hd hscalar
  | succ room ih =>
      refine passes_of_space (readValue_skipSpace (room + 1)) (fun r h => by cases h) ?_
      intro d ds v rest hd h
      by_cases harray : d = '['
      · subst harray
        obtain ⟨⟨items, es⟩, hitems, h⟩ := bind_eq_ok_iff.mp h
        cases h
        exact ends_of_readItemsWithin ih hitems
      by_cases hobject : d = '{'
      · subst hobject
        obtain ⟨⟨members, es⟩, hmembers, h⟩ := bind_eq_ok_iff.mp h
        cases h
        exact ends_of_readMembersWithin (passes_addMember ih) hmembers
      rw [readValue_of_scalar (room + 1) hd harray hobject] at h
      obtain ⟨r, hscalar, h⟩ := map_eq_ok_iff.mp h
      cases h
      exact passed_of_readScalar hd hscalar

/-! ## Shapes -/

/-- A quoted text is passed over from the quote that opens it. -/
theorem passed_of_readQuoted {cs text rest : List Char} (h : readQuoted cs = .ok (text, rest)) :
    Passed ('"' :: cs) rest := by
  have hskip : skipScalar ('"' :: cs) = .ok rest := skipQuoted_of_readQuoted h
  exact passed_of_skipScalar hskip rfl

theorem passes_readText (expected : String) : Passes (readText expected) := by
  refine passes_of_space (fun cs => by simp only [readText, skipSpace_skipSpace])
    (fun r h => wrongForm_ne_ok _ _ _ h) fun d ds text rest hd h => ?_
  by_cases hquote : d = '"'
  · subst hquote
    exact passed_of_readQuoted h
  · simp only [readText, skipSpace_cons hd] at h
    split at h
    · rename_i heq
      exact absurd (List.cons.inj heq).1 hquote
    · exact absurd h (wrongForm_ne_ok _ _ _)

/-- A natural number of so many bits is a number. -/
theorem exists_readNumber_of_readCount {bits : Nat} {cs rest : List Char}
    {n : Fin (Nat.pow 2 bits)} (h : readCount bits cs = .ok (n, rest)) :
    isNumberAhead (skipSpace cs) = true ∧ ∃ m, readNumber (skipSpace cs) = .ok (m, rest) := by
  simp only [readCount] at h
  split at h
  · rename_i hahead
    obtain ⟨⟨m, es⟩, hnumber, h⟩ := bind_eq_ok_iff.mp h
    refine ⟨hahead, m, ?_⟩
    cases m with
    | natural m =>
        dsimp only at h
        split at h
        · rw [hnumber, (Prod.mk.inj (Except.ok.inj h)).2]
        · cases h
    | negative m => cases h
    | double isNegative size => cases h
  · exact absurd h (wrongForm_ne_ok _ _ _)

theorem passes_readCount (bits : Nat) : Passes (readCount bits) := by
  intro cs n rest h
  obtain ⟨hahead, m, hnumber⟩ := exists_readNumber_of_readCount h
  have hskip := skipNumber_of_readNumber hnumber
  rw [← skipScalar_of_isNumberAhead hahead] at hskip
  exact passed_skipSpace.mp (passed_of_skipScalar hskip (skipSpace_skipSpace cs))

theorem exists_readQuoted_of_readName {names : List String} {cs rest : List Char}
    {i : Fin names.length} (h : readName names cs = .ok (i, rest)) :
    ∃ name, readQuoted cs = .ok (name, rest) := by
  obtain ⟨⟨name, ds⟩, hname, h⟩ := bind_eq_ok_iff.mp h
  dsimp only at h
  split at h
  · cases h
    exact ⟨name, hname⟩
  · cases h

theorem passed_of_readNull {cs rest : List Char} (h : readNull cs = .ok rest) :
    Passed cs rest := by
  unfold readNull at h
  split at h
  · rename_i ds hds
    rw [← passed_skipSpace]
    refine passed_of_skipScalar ?_ (skipSpace_skipSpace cs)
    rw [hds]
    exact h
  · exact absurd h (wrongForm_ne_ok _ _ _)

/-- The name of a null member is passed over with the object around it. -/
theorem ends_of_readNamedNull {names : List String} {cs rest : List Char} {i : Fin names.length}
    (h : readNamedNull names cs = .ok (i, rest)) : Ends .object true cs rest := by
  unfold readNamedNull at h
  split at h
  · cases h
  · rename_i ds hds
    obtain ⟨⟨j, es⟩, hname, h⟩ := bind_eq_ok_iff.mp h
    obtain ⟨fs, hcolon, h⟩ := bind_eq_ok_iff.mp h
    obtain ⟨gs, hnull, h⟩ := bind_eq_ok_iff.mp h
    obtain ⟨name, hquoted⟩ := exists_readQuoted_of_readName hname
    have hfront : skipFront .object ('"' :: ds) = .ok fs :=
      bind_eq_ok_iff.mpr ⟨es, skipName_of_readQuoted rfl hquoted, hcolon⟩
    -- the member is the first and the last of its object
    refine ends_of_first hds (by decide) hfront (passed_of_readNull hnull) (ends_of_close ?_)
    split at h
    · cases h
    · rename_i hs hhs
      cases h
      exact hhs
    · cases h
  · cases h
  · cases h

theorem passes_readChoice (room : Nat) (names : List String) : Passes (readChoice room names) := by
  refine passes_of_space (fun cs => by simp only [readChoice, skipSpace_skipSpace])
    (fun r h => by cases h) fun d ds i rest hd h => ?_
  by_cases hquote : d = '"'
  · subst hquote
    obtain ⟨name, hname⟩ := exists_readQuoted_of_readName h
    exact passed_of_readQuoted hname
  by_cases hobject : d = '{'
  · subst hobject
    cases room with
    | zero => cases h
    | succ room => exact ends_of_readNamedNull h
  · simp only [readChoice, skipSpace_cons hd] at h
    split at h
    · cases h
    · rename_i heq
      exact absurd (List.cons.inj heq).1 hquote
    · rename_i heq
      exact absurd (List.cons.inj heq).1 hobject
    · cases h

/-- Who passes over the value of a field passes over null in its place as well. -/
theorem passes_readHeld {α : Type} {read : List Char → Except Stop (α × List Char)}
    (hread : Passes read) (p : Presence) : Passes (p.readHeld read) := by
  have hsome : Passes fun cs => (read cs).map fun r => (some r.1, r.2) := by
    intro cs a rest h
    obtain ⟨r, hr, h⟩ := map_eq_ok_iff.mp h
    cases h
    exact hread hr
  have hnullable : Passes (Presence.nullable.readHeld read) := by
    intro cs a rest h
    simp only [Presence.readHeld] at h
    split at h
    · rename_i ds hds
      obtain ⟨es, hword, h⟩ := map_eq_ok_iff.mp h
      cases h
      refine passed_of_readNull ?_
      rw [readNull, hds]
      exact hword
    · exact hsome h
  cases p with
  | required => exact hread
  | nullable => exact hnullable
  | optional => exact hnullable
  | defaulted => exact hsome

theorem ends_of_closeArray {first : Bool} {cs rest : List Char} (h : closeArray cs = .ok rest) :
    Ends .array first cs rest := by
  refine ends_of_close ?_
  unfold closeArray at h
  split at h
  · cases h
  · rename_i c ds hcs
    split at h
    · rename_i hclose
      cases h
      rw [hcs, hclose]
      rfl
    split at h
    · split at h <;> cases h
    · cases h

theorem passes_read_list {s : Shape} (hread : ∀ room, Passes (s.read room)) (room : Nat) :
    Passes ((Shape.list s).read room) := by
  refine passes_of_space (fun cs => by simp only [Shape.read, skipSpace_skipSpace])
    (fun r h => Shape.read_ne_ok room rfl r h) fun d ds vs rest hd h => ?_
  by_cases harray : d = '['
  · subst harray
    cases room with
    | zero => cases h
    | succ room =>
        show Ends .array true ds rest
        exact ends_of_readItemsWithin (hread room) h
  · simp only [Shape.read, skipSpace_cons hd] at h
    split at h
    · rename_i heq
      exact absurd (List.cons.inj heq).1 harray
    · exact absurd h (wrongForm_ne_ok _ _ _)

theorem passes_read_record {fs : Fields} (kind : String)
    (hitems : ∀ expected k room first cs vs rest,
      fs.readItems expected k room first cs = .ok (vs, rest) → Ends .array first cs rest)
    (hmember : ∀ room, PassesMember (fs.readMember room)) (room : Nat) :
    Passes ((Shape.record kind fs).read room) := by
  refine passes_of_space (fun cs => by simp only [Shape.read, skipSpace_skipSpace])
    (fun r h => Shape.read_ne_ok room rfl r h) fun d ds v rest hd h => ?_
  by_cases harray : d = '['
  · subst harray
    cases room with
    | zero => cases h
    | succ room => exact hitems _ 0 room true _ _ _ h
  by_cases hobject : d = '{'
  · subst hobject
    cases room with
    | zero => cases h
    | succ room =>
        obtain ⟨⟨slots, es⟩, hinto, h⟩ := bind_eq_ok_iff.mp h
        dsimp only at h
        split at h
        · cases h
          exact ends_of_readMembersWithin (hmember room) hinto
        · cases h
  · simp only [Shape.read, skipSpace_cons hd] at h
    split at h
    · rename_i heq
      exact absurd (List.cons.inj heq).1 harray
    · rename_i heq
      exact absurd (List.cons.inj heq).1 hobject
    · exact absurd h (wrongForm_ne_ok _ _ _)

mutual

/-- **Who passes over a value of a shape comes to where its reader stops.** -/
theorem Shape.passes_read : (s : Shape) → ∀ room : Nat, Passes (s.read room)
  | .text, _ => by
      intro cs v rest h
      obtain ⟨r, hr, h⟩ := map_eq_ok_iff.mp h
      cases h
      exact passes_readText _ hr
  | .count bits, _ => passes_readCount bits
  | .choice names, room => passes_readChoice room names
  | .list s, room => passes_read_list s.passes_read room
  | .record kind fs, room => passes_read_record kind fs.ends_readItems fs.passes_readMember room
  | .any, room => passes_readValue room

/-- An array that makes a record ends where the reader of its items stops. -/
theorem Fields.ends_readItems : (fs : Fields) → ∀ (expected : String) (k room : Nat)
    (first : Bool) (cs : List Char) (vs : fs.Carrier) (rest : List Char),
    fs.readItems expected k room first cs = .ok (vs, rest) → Ends .array first cs rest
  | .nil, _, _, _, _, _, _, _ => by
      intro h
      rw [Fields.readItems] at h
      obtain ⟨ds, hclose, h⟩ := map_eq_ok_iff.mp h
      cases h
      exact ends_of_closeArray hclose
  | .cons n others p s rest, expected, k, room, first, cs, vs, left => by
      intro h
      rw [Fields.readItems] at h
      obtain ⟨⟨isItem, ds⟩, hnext, h⟩ := bind_eq_ok_iff.mp h
      cases isItem with
      | false =>
          dsimp only at h
          split at h
          · cases h
            exact ends_of_nextItem_false hnext
          · cases h
      | true =>
          obtain ⟨⟨v, es⟩, hv, h⟩ := bind_eq_ok_iff.mp h
          obtain ⟨⟨vs', fs⟩, hvs, h⟩ := bind_eq_ok_iff.mp h
          cases h
          exact ends_of_nextItem hnext (passes_readHeld (s.passes_read room) p hv)
            (rest.ends_readItems _ _ _ _ _ _ _ hvs)

/-- A member of a record is passed over to where its reader stops, whether it has a field or not. -/
theorem Fields.passes_readMember : (fs : Fields) → ∀ room : Nat, PassesMember (fs.readMember room)
  | .nil, _ => by
      intro name slots cs slots' left h
      obtain ⟨ds, hcolon, h⟩ := bind_eq_ok_iff.mp h
      obtain ⟨es, hvalue, h⟩ := bind_eq_ok_iff.mp h
      cases h
      exact ⟨ds, hcolon, passed_of_skipValue hvalue⟩
  | .cons n others p s rest, room => by
      intro name slots cs slots' left h
      rw [Fields.readMember] at h
      split at h
      · split at h
        · cases h
        · obtain ⟨ds, hcolon, h⟩ := bind_eq_ok_iff.mp h
          obtain ⟨⟨v, es⟩, hv, h⟩ := bind_eq_ok_iff.mp h
          cases h
          exact ⟨ds, hcolon, passes_readHeld (s.passes_read room) p hv⟩
      · obtain ⟨r, hr, h⟩ := map_eq_ok_iff.mp h
        cases h
        exact rest.passes_readMember room hr

end

/-! ## Records with the same first field -/

section FirstField

variable {n : String} {others : List String} {p : Presence} {s : Shape} {fs gs : Fields}

/-- Two slots that hold the same hold the same after a member has been read, if they are slots of
the same field. -/
theorem Fields.fst_readMember {room : Nat} {key cs rest rest' : List Char}
    {slots slots₁ : (Fields.cons n others p s fs).Slots}
    {slots' slots₁' : (Fields.cons n others p s gs).Slots}
    (h : (Fields.cons n others p s fs).readMember room key slots cs = .ok (slots₁, rest))
    (h' : (Fields.cons n others p s gs).readMember room key slots' cs = .ok (slots₁', rest'))
    (hslots : slots.1 = slots'.1) : slots₁.1 = slots₁'.1 := by
  rw [Fields.readMember] at h h'
  -- the key belongs to the first field for both, or is passed on to the other fields by both
  split at h
  · rename_i hkey
    rw [if_pos hkey] at h'
    rw [← hslots] at h'
    split at h
    · cases h
    · rename_i hnone
      rw [hnone] at h'
      obtain ⟨ds, hcolon, h⟩ := bind_eq_ok_iff.mp h
      obtain ⟨⟨v, es⟩, hv, h⟩ := bind_eq_ok_iff.mp h
      obtain ⟨ds', hcolon', h'⟩ := bind_eq_ok_iff.mp h'
      obtain ⟨⟨v', es'⟩, hv', h'⟩ := bind_eq_ok_iff.mp h'
      obtain rfl := Except.ok.inj (hcolon.symm.trans hcolon')
      obtain ⟨rfl, -⟩ := Prod.mk.inj (Except.ok.inj (hv.symm.trans hv'))
      cases h
      cases h'
      rfl
  · rename_i hkey
    rw [if_neg hkey] at h'
    obtain ⟨r, -, h⟩ := map_eq_ok_iff.mp h
    obtain ⟨r', -, h'⟩ := map_eq_ok_iff.mp h'
    cases h
    cases h'
    exact hslots

/-- The members of two such records are read in step. -/
theorem Fields.fst_readMembersWithin {room : Nat} {bound bound' cs rest rest' : List Char}
    {first : Bool} {slots slots₁ : (Fields.cons n others p s fs).Slots}
    {slots' slots₁' : (Fields.cons n others p s gs).Slots}
    (h : readMembersWithin ((Fields.cons n others p s fs).readMember room) bound first slots cs =
      .ok (slots₁, rest))
    (h' : readMembersWithin ((Fields.cons n others p s gs).readMember room) bound' first slots'
      cs = .ok (slots₁', rest')) (hslots : slots.1 = slots'.1) : slots₁.1 = slots₁'.1 := by
  induction bound generalizing bound' first cs slots slots' with
  | nil => cases h
  | cons b bound ih =>
      cases bound' with
      | nil => cases h'
      | cons b' bound' =>
          obtain ⟨⟨key?, ds⟩, hnext, h⟩ := bind_eq_ok_iff.mp h
          obtain ⟨next', hnext', h'⟩ := bind_eq_ok_iff.mp h'
          obtain rfl := Except.ok.inj (hnext.symm.trans hnext')
          cases key? with
          | none =>
              cases h
              cases h'
              exact hslots
          | some key =>
              obtain ⟨⟨slots₂, es⟩, hmember, h⟩ := bind_eq_ok_iff.mp h
              obtain ⟨⟨slots₂', es'⟩, hmember', h'⟩ := bind_eq_ok_iff.mp h'
              -- both go on behind the member, so it has one end
              have hes : es ≠ [] := (settledBy_readMembersWithin
                (fun name s => Fields.settled_readMember _ room name s) (Nat.le_refl _) false _ h
                trivial).1
              have hes' : es' ≠ [] := (settledBy_readMembersWithin
                (fun name s => Fields.settled_readMember _ room name s) (Nat.le_refl _) false _ h'
                trivial).1
              obtain ⟨value, hcolon, hvalue⟩ := Fields.passes_readMember _ room hmember
              obtain ⟨value', hcolon', hvalue'⟩ := Fields.passes_readMember _ room hmember'
              obtain rfl := Except.ok.inj (hcolon.symm.trans hcolon')
              obtain rfl := hvalue.unique hvalue' hes hes'
              exact ih h h' (Fields.fst_readMember hmember hmember' hslots)

/-- The first field of a record that an array ends before. -/
theorem Fields.fst_pastEnd {k : Nat} {v : (Fields.cons n others p s fs).Carrier}
    (h : (Fields.cons n others p s fs).pastEnd k = .ok v) : p.pastEnd? = some v.1 := by
  rw [Fields.pastEnd] at h
  split at h
  · cases h
  · rename_i w hw
    obtain ⟨vs, -, h⟩ := map_eq_ok_iff.mp h
    rw [hw, ← h]

/-- The items of two such records are read in step. -/
theorem Fields.fst_readItems {expected expected' : String} {k k' room : Nat} {first : Bool}
    {cs rest rest' : List Char} {v : (Fields.cons n others p s fs).Carrier}
    {v' : (Fields.cons n others p s gs).Carrier}
    (h : (Fields.cons n others p s fs).readItems expected k room first cs = .ok (v, rest))
    (h' : (Fields.cons n others p s gs).readItems expected' k' room first cs = .ok (v', rest')) :
    v.1 = v'.1 := by
  rw [Fields.readItems] at h h'
  obtain ⟨⟨isItem, ds⟩, hnext, h⟩ := bind_eq_ok_iff.mp h
  obtain ⟨next', hnext', h'⟩ := bind_eq_ok_iff.mp h'
  obtain rfl := Except.ok.inj (hnext.symm.trans hnext')
  cases isItem with
  | false =>
      dsimp only at h h'
      split at h
      · rename_i w hend
        cases h
        split at h'
        · rename_i w' hend'
          cases h'
          exact Option.some.inj ((Fields.fst_pastEnd hend).symm.trans (Fields.fst_pastEnd hend'))
        · cases h'
      · cases h
  | true =>
      obtain ⟨⟨w, es⟩, hw, h⟩ := bind_eq_ok_iff.mp h
      obtain ⟨⟨ws, hs⟩, -, h⟩ := bind_eq_ok_iff.mp h
      obtain ⟨item', hw', h'⟩ := bind_eq_ok_iff.mp h'
      obtain ⟨⟨ws', hs'⟩, -, h'⟩ := bind_eq_ok_iff.mp h'
      obtain rfl := Except.ok.inj (hw.symm.trans hw')
      cases h
      cases h'
      rfl

/-- The first field of a record is what its slot holds. -/
theorem Fields.fst_finish {slots : (Fields.cons n others p s fs).Slots}
    {v : (Fields.cons n others p s fs).Carrier}
    (h : (Fields.cons n others p s fs).finish slots = .ok v) :
    slots.1.or p.lacking? = some v.1 := by
  rw [Fields.finish] at h
  split at h
  · cases h
  · rename_i w hw
    obtain ⟨vs, -, h⟩ := map_eq_ok_iff.mp h
    rw [hw, ← h]

/-- **Whatever the other fields are**, the first field of a record is read the same. -/
theorem Shape.fst_read_record {kind kind' : String} {room : Nat} {cs rest rest' : List Char}
    {v : (Fields.cons n others p s fs).Carrier} {v' : (Fields.cons n others p s gs).Carrier}
    (h : (Shape.record kind (.cons n others p s fs)).read room cs = .ok (v, rest))
    (h' : (Shape.record kind' (.cons n others p s gs)).read room cs = .ok (v', rest')) :
    v.1 = v'.1 := by
  rw [Shape.read] at h h'
  split at h
  · rename_i ds hds
    rw [hds] at h'
    cases room with
    | zero => cases h
    | succ room => exact Fields.fst_readItems h h'
  · rename_i ds hds
    rw [hds] at h'
    cases room with
    | zero => cases h
    | succ room =>
        obtain ⟨⟨slots, es⟩, hinto, h⟩ := bind_eq_ok_iff.mp h
        obtain ⟨⟨slots', es'⟩, hinto', h'⟩ := bind_eq_ok_iff.mp h'
        have hslots : slots.1 = slots'.1 := Fields.fst_readMembersWithin hinto hinto' rfl
        dsimp only at h h'
        split at h
        · rename_i w hfinish
          cases h
          split at h'
          · rename_i w' hfinish'
            cases h'
            have hfirst := Fields.fst_finish hfinish
            rw [hslots, Fields.fst_finish hfinish'] at hfirst
            exact (Option.some.inj hfirst).symm
          · cases h'
        · cases h
  · exact absurd h (wrongForm_ne_ok _ _ _)

end FirstField

/-! ## Whole texts -/

/-- A whole text that is read begins with what its reader reads. -/
theorem exists_of_readWhole {α : Type} {read : List Char → Except Stop (α × List Char)}
    {cs : List Char} {a : α} (h : readWhole read cs = .ok a) : ∃ rest, read cs = .ok (a, rest) := by
  simp only [readWhole] at h
  split at h
  · rename_i b hwhole
    cases h
    obtain ⟨⟨v, rest⟩, hread, hend⟩ := bind_eq_ok_iff.mp hwhole
    dsimp only at hend
    split at hend
    · cases hend
      exact ⟨rest, hread⟩
    · cases hend
  · cases h

end IndexAdvisor.Json
