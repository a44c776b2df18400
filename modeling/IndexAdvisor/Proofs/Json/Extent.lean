import IndexAdvisor.Json.Shape
import IndexAdvisor.Proofs.Json.Settled

/-!
# Where values end

What has been read of a value is settled where something is left of the text, whatever the shape of
the value. An array or an object is settled even if nothing is left, for its bracket tells its end.
So nothing but space can stand behind a record: no text that writes one goes on to write another.
-/

set_option autoImplicit false

namespace IndexAdvisor.Json

open Remainder

/-! ## Items and members -/

theorem delimited_nextItem (first : Bool) : Delimited (nextItem first) := by
  refine settledBy_of_space (fun cs => by simp only [nextItem, skipSpace_skipSpace])
    (fun c h => by cases h) fun d ds c hd h _ more => ?_
  simp only [nextItem, skipSpace_cons hd] at h ⊢
  by_cases hclose : d = ']'
  · rw [if_pos hclose] at h ⊢
    cases h
    rfl
  rw [if_neg hclose] at h ⊢
  cases first with
  | true =>
      cases h
      rfl
  | false =>
      by_cases hcomma : d = ','
      · simp only [Bool.false_eq_true, if_false, if_pos hcomma] at h ⊢
        rcases skipSpace_eq_nil_or ds with hds | ⟨e, es, -, -, hds, happend⟩
        · rw [hds] at h
          cases h
        · rw [hds] at h
          rw [happend]
          by_cases he : e = ']'
          · simp only [if_pos he] at h
            cases h
          · simp only [if_neg he] at h ⊢
            cases h
            rfl
      · simp only [Bool.false_eq_true, if_false, if_neg hcomma] at h
        cases h

/-- The name of a member, behind the quote that opens it. -/
theorem settled_readQuoted_some :
    Settled fun cs => (readQuoted cs).map fun r => (some r.1, r.2) :=
  settled_readQuoted.map (fun _ => rfl) fun _ _ => rfl

/-- The end of an object is settled, and the name of a member where something is left. -/
theorem settledBy_nextMember (first : Bool) :
    SettledBy (fun r => r.1 = none ∨ left r ≠ []) (nextMember first) (nextMember first) := by
  refine settledBy_of_space (fun cs => by simp only [nextMember, skipSpace_skipSpace])
    (fun c h => by cases h) fun d ds c hd h hc more => ?_
  have hname {cs : List Char} (h : (readQuoted cs).map (fun r => (some r.1, r.2)) = .ok c) :
      (readQuoted (cs ++ more)).map (fun r => (some r.1, r.2)) = .ok (goOn c more) := by
    refine (settled_readQuoted_some h (hc.resolve_left fun hnone => ?_)).2 more
    cases hread : readQuoted cs with
    | error s =>
        rw [hread] at h
        cases h
    | ok r =>
        rw [hread] at h
        cases h
        cases hnone
  simp only [nextMember, skipSpace_cons hd] at h ⊢
  by_cases hclose : d = '}'
  · rw [if_pos hclose] at h ⊢
    cases h
    rfl
  rw [if_neg hclose] at h ⊢
  cases first with
  | true =>
      by_cases hquote : d = '"'
      · simp only [if_true, if_pos hquote] at h ⊢
        exact hname h
      · simp only [if_true, if_neg hquote] at h
        cases h
  | false =>
      by_cases hcomma : d = ','
      · simp only [Bool.false_eq_true, if_false, if_pos hcomma] at h ⊢
        rcases skipSpace_eq_nil_or ds with hds | ⟨e, es, -, -, hds, happend⟩
        · rw [hds] at h
          cases h
        · rw [hds] at h
          rw [happend]
          by_cases he : e = '"'
          · simp only [if_pos he] at h ⊢
            exact hname h
          · simp only [if_neg he] at h
            split at h <;> cases h
      · simp only [Bool.false_eq_true, if_false, if_neg hcomma] at h
        cases h

section Parts

variable {α σ : Type}

theorem settledBy_readItemsWithin {read : List Char → Except Stop (α × List Char)}
    (hread : Settled read) {bound further : List Char} (h : bound.length ≤ further.length)
    (first : Bool) : SettledBy (fun _ => True) (readItemsWithin read bound first)
      (readItemsWithin read further first) := by
  induction bound generalizing further first with
  | nil => exact settledBy_of_ne_ok fun _ _ h => by cases h
  | cons b bound ih =>
      cases further with
      | nil => cases h
      | cons b' further =>
          intro cs c hitems _
          obtain ⟨⟨isItem, ds⟩, hnext, hrest⟩ := bind_eq_ok_iff.mp hitems
          obtain ⟨hcs, hnext⟩ := delimited_nextItem first hnext trivial
          refine ⟨hcs, fun more => bind_eq_ok_iff.mpr ⟨_, hnext more, ?_⟩⟩
          cases isItem with
          | false =>
              cases hrest
              rfl
          | true =>
              obtain ⟨⟨v, es⟩, hv, hrest⟩ := bind_eq_ok_iff.mp hrest
              obtain ⟨⟨vs, fs⟩, hvs, hrest⟩ := bind_eq_ok_iff.mp hrest
              cases hrest
              -- the item need not be delimited itself, for the rest of the array is left behind it
              obtain ⟨hes, hvs⟩ := ih (Nat.le_of_succ_le_succ h) false hvs trivial
              obtain ⟨-, hv⟩ := hread hv hes
              exact bind_eq_ok_iff.mpr ⟨_, hv more, bind_eq_ok_iff.mpr ⟨_, hvs more, rfl⟩⟩

/-- The items of an array are settled if each of them is. -/
theorem delimited_readAll {read : List Char → Except Stop (α × List Char)}
    (hread : Settled read) : Delimited (readAll read) :=
  settledBy_of_bounded (fun bound => readItemsWithin read bound true) fun _ _ h =>
    settledBy_readItemsWithin hread h true

theorem settledBy_readMembersWithin
    {read : List Char → σ → List Char → Except Stop (σ × List Char)}
    (hread : ∀ name s, Settled (read name s)) {bound further : List Char}
    (h : bound.length ≤ further.length) (first : Bool) (s : σ) :
    SettledBy (fun _ => True) (readMembersWithin read bound first s)
      (readMembersWithin read further first s) := by
  induction bound generalizing further first s with
  | nil => exact settledBy_of_ne_ok fun _ _ h => by cases h
  | cons b bound ih =>
      cases further with
      | nil => cases h
      | cons b' further =>
          intro cs c hmembers _
          obtain ⟨⟨name?, ds⟩, hnext, hrest⟩ := bind_eq_ok_iff.mp hmembers
          cases name? with
          | none =>
              cases hrest
              obtain ⟨hcs, hnext⟩ := settledBy_nextMember first hnext (Or.inl rfl)
              exact ⟨hcs, fun more => bind_eq_ok_iff.mpr ⟨_, hnext more, rfl⟩⟩
          | some name =>
              obtain ⟨⟨t, es⟩, hmember, hrest⟩ := bind_eq_ok_iff.mp hrest
              -- from the end backwards: what follows a member shows that something is left behind
              -- it
              obtain ⟨hes, hrest⟩ := ih (Nat.le_of_succ_le_succ h) false t hrest trivial
              obtain ⟨hds, hmember⟩ := hread name s hmember hes
              obtain ⟨hcs, hnext⟩ := settledBy_nextMember first hnext (Or.inr hds)
              exact ⟨hcs, fun more => bind_eq_ok_iff.mpr
                ⟨_, hnext more, bind_eq_ok_iff.mpr ⟨_, hmember more, hrest more⟩⟩⟩

/-- The members of an object are settled if each of them is. -/
theorem delimited_readInto {read : List Char → σ → List Char → Except Stop (σ × List Char)}
    (hread : ∀ name s, Settled (read name s)) (s : σ) : Delimited (readInto read s) :=
  settledBy_of_bounded (fun bound => readMembersWithin read bound true s) fun _ _ h =>
    settledBy_readMembersWithin hread h true s

end Parts

/-! ## Values that are passed over -/

theorem settled_skipOpening (close : Char) (atEnd : Flaw) : Settled (skipOpening close atEnd) := by
  refine settledBy_of_space (fun cs => by simp only [skipOpening, skipSpace_skipSpace])
    (fun c h => by cases h) fun d ds c hd h _ more => ?_
  simp only [skipOpening, skipSpace_cons hd] at h ⊢
  by_cases hclose : d = close
  · rw [if_pos hclose] at h ⊢
    cases h
    rfl
  · rw [if_neg hclose] at h ⊢
    cases h
    rfl

/-- What goes on behind the opening of an array or object. -/
theorem settledBy_skipOpening_bind (close : Char) (atEnd : Flaw)
    {closed closed' part part' : List Char → Except Stop (List Char)}
    (hclosed : SettledBy (fun cs => left cs ≠ []) closed closed')
    (hpart : SettledBy (fun cs => left cs ≠ []) part part') :
    SettledBy (fun cs => left cs ≠ [])
      (fun cs => skipOpening close atEnd cs >>= fun (isClosed, cs) =>
        if isClosed then closed cs else part cs)
      fun cs => skipOpening close atEnd cs >>= fun (isClosed, cs) =>
        if isClosed then closed' cs else part' cs := by
  refine (settled_skipOpening close atEnd).bind (settledBy_pair fun isClosed => ?_)
  cases isClosed with
  | true => exact hclosed
  | false => exact hpart

theorem settled_skipSeparator (close : Char) (atEnd other : Flaw) :
    Settled (skipSeparator close atEnd other) := by
  refine settledBy_of_space (fun cs => by simp only [skipSeparator, skipSpace_skipSpace])
    (fun c h => by cases h) fun d ds c hd h _ more => ?_
  simp only [skipSeparator, skipSpace_cons hd] at h ⊢
  by_cases hclose : d = close
  · rw [if_pos hclose] at h ⊢
    cases h
    rfl
  rw [if_neg hclose] at h ⊢
  by_cases hcomma : d = ','
  · rw [if_pos hcomma] at h ⊢
    cases h
    rfl
  · rw [if_neg hcomma] at h
    cases h

theorem settled_skipName : Settled skipName := by
  refine settledBy_of_space (fun cs => by simp only [skipName, skipSpace_skipSpace])
    (fun c h => by cases h) fun d ds c hd h hleft more => ?_
  simp only [skipName, skipSpace_cons hd] at h ⊢
  by_cases hquote : d = '"'
  · rw [if_pos hquote] at h ⊢
    exact (settled_skipQuoted h hleft).2 more
  · rw [if_neg hquote] at h
    cases h

theorem settled_skipBehind (o : Opened) : Settled (skipBehind o) := by
  cases o with
  | array => exact settled_skipSeparator _ _ _
  | object => exact settled_skipSeparator _ _ _

theorem settled_skipFront (o : Opened) : Settled (skipFront o) := by
  cases o with
  | array => exact settled_self
  | object => exact settled_skipName.bind settled_readColon

theorem skipWithin_skipSpace (bound : List Char) (opened : List Opened) (cs : List Char) :
    skipWithin bound opened (skipSpace cs) = skipWithin bound opened cs := by
  cases bound with
  | nil => rfl
  | cons b bound => simp only [skipWithin, skipSpace_skipSpace]

/-- How a value that is passed over goes on behind its first character, which is no space. -/
theorem skipWithin_cons (b : Char) (bound : List Char) (opened : List Opened) {d : Char}
    (hd : isSpace d = false) (ds : List Char) :
    skipWithin (b :: bound) opened (d :: ds) =
      if d = '[' then do
        let (isClosed, cs) ← skipOpening ']' .unfinishedArray ds
        if isClosed then skipOn bound opened cs else skipWithin bound (.array :: opened) cs
      else if d = '{' then do
        let (isClosed, cs) ← skipOpening '}' .unfinishedObject ds
        if isClosed then skipOn bound opened cs
        else skipWithin bound (.object :: opened) (← skipFront .object cs)
      else skipScalar (d :: ds) >>= skipOn bound opened := by
  rw [skipWithin, skipSpace_cons hd]
  split
  · rename_i heq
    cases heq
    rfl
  · rename_i heq
    cases heq
    rfl
  · rename_i hbracket hbrace
    rw [if_neg fun h => hbracket ds (by rw [h]), if_neg fun h => hbrace ds (by rw [h])]

theorem settledBy_skip {bound further : List Char} (h : bound.length ≤ further.length) :
    (∀ opened, SettledBy (fun cs => left cs ≠ []) (skipWithin bound opened)
      (skipWithin further opened)) ∧
    ∀ opened, SettledBy (fun cs => left cs ≠ []) (skipOn bound opened) (skipOn further opened) := by
  induction bound generalizing further with
  | nil =>
      -- without a bound only the end of everything that was opened is reached
      refine ⟨fun opened => settledBy_of_ne_ok (by rintro _ _ ⟨⟩), fun opened => ?_⟩
      cases opened with
      | nil =>
          have hon (cs : List Char) : skipOn further [] cs = .ok cs := by
            cases further <;> rfl
          intro cs rest h hleft
          cases h
          exact ⟨hleft, fun more => hon _⟩
      | cons o opened =>
          cases o <;> exact settledBy_of_ne_ok fun _ _ h => by cases h
  | cons b bound ih =>
      cases further with
      | nil => cases h
      | cons b' further =>
          obtain ⟨hwithin, hon⟩ := ih (Nat.le_of_succ_le_succ h)
          constructor
          · intro opened
            refine settledBy_of_space_both (skipWithin_skipSpace _ opened)
              (skipWithin_skipSpace _ opened) (fun c h => by cases h) ?_
            intro d ds c hd h hleft more
            rw [skipWithin_cons _ _ _ hd] at h ⊢
            by_cases hbracket : d = '['
            · rw [if_pos hbracket] at h ⊢
              exact (settledBy_skipOpening_bind _ _ (hon opened) (hwithin _) h hleft).2 more
            rw [if_neg hbracket] at h ⊢
            by_cases hbrace : d = '{'
            · rw [if_pos hbrace] at h ⊢
              have hmember := (settled_skipFront .object).bind (hwithin (.object :: opened))
              exact (settledBy_skipOpening_bind _ _ (hon opened) hmember h hleft).2 more
            · rw [if_neg hbrace] at h ⊢
              exact (settled_skipScalar.bind (hon opened) h hleft).2 more
          · intro opened
            cases opened with
            | nil => exact settled_self
            | cons o opened =>
                refine (settled_skipBehind o).bind (settledBy_pair fun isClosed => ?_)
                cases isClosed with
                | true => exact hon opened
                | false => exact (settled_skipFront o).bind (hwithin (o :: opened))

theorem settled_skipValue : Settled skipValue :=
  settledBy_of_bounded (fun bound => skipWithin bound []) fun _ _ h => (settledBy_skip h).1 []

/-! ## Values of any form -/

theorem readValue_skipSpace (room : Nat) (cs : List Char) :
    readValue room (skipSpace cs) = readValue room cs := by
  unfold readValue
  rw [skipSpace_skipSpace]

/-- A value that is no array and no object is a scalar. -/
theorem readValue_of_scalar (room : Nat) {d : Char} (hd : isSpace d = false) (harray : d ≠ '[')
    (hobject : d ≠ '{') (ds : List Char) :
    readValue room (d :: ds) = (readScalar (d :: ds)).map fun r => (r.1.toJson, r.2) := by
  unfold readValue
  rw [skipSpace_cons hd]
  split
  · rename_i heq
    exact absurd (List.cons.inj heq).1 harray
  · rename_i heq
    exact absurd (List.cons.inj heq).1 hobject
  · rfl

/-- Reads a value and keeps it as a member of an object. -/
def addMember (read : List Char → Except Stop (Json × List Char)) (name : List Char)
    (members : List (String × Json)) (cs : List Char) :
    Except Stop (List (String × Json) × List Char) :=
  readColon cs >>= fun cs => read cs >>= fun r => .ok ((String.ofList name, r.1) :: members, r.2)

theorem settled_addMember {read : List Char → Except Stop (Json × List Char)}
    (hread : Settled read) (name : List Char) (members : List (String × Json)) :
    Settled (addMember read name members) :=
  settled_readColon.bind
    (hread.bind (settledBy_pair fun v => settled_ok (a := (String.ofList name, v) :: members)))

theorem settled_readValue (room : Nat) : Settled (readValue room) := by
  have hscalar : Settled fun cs => (readScalar cs).map fun r => (r.1.toJson, r.2) :=
    settled_readScalar.map (fun _ => rfl) fun _ _ => rfl
  induction room with
  | zero =>
      refine settledBy_of_space (readValue_skipSpace 0) (fun c h => by cases h) ?_
      intro d ds c hd h hleft more
      by_cases harray : d = '['
      · subst harray
        cases h
      by_cases hobject : d = '{'
      · subst hobject
        cases h
      rw [readValue_of_scalar 0 hd harray hobject] at h ⊢
      exact (hscalar h hleft).2 more
  | succ room ih =>
      refine settledBy_of_space (readValue_skipSpace (room + 1)) (fun c h => by cases h) ?_
      intro d ds c hd h hleft more
      by_cases harray : d = '['
      · subst harray
        have hitems : Settled fun cs => readAll (readValue room) cs >>= fun r =>
            (.ok (.array r.1, r.2) : Except Stop (Json × List Char)) :=
          (delimited_readAll ih).settled.bind
            (settledBy_pair fun items => settled_ok (a := Json.array items))
        exact (hitems h hleft).2 more
      by_cases hobject : d = '{'
      · subst hobject
        have hmembers : Settled fun cs => readInto (addMember (readValue room)) [] cs >>= fun r =>
            (.ok (.object r.1.reverse, r.2) : Except Stop (Json × List Char)) :=
          (delimited_readInto (settled_addMember ih) []).settled.bind
            (settledBy_pair fun members => settled_ok (a := Json.object members.reverse))
        exact (hmembers h hleft).2 more
      rw [readValue_of_scalar (room + 1) hd harray hobject] at h ⊢
      exact (hscalar h hleft).2 more

/-! ## Shapes -/

theorem wrongForm_ne_ok {α : Type} (expected : String) (cs : List Char) (r : α) :
    wrongForm expected cs ≠ .ok r := by
  intro h
  obtain ⟨_, -, h⟩ := bind_eq_ok_iff.mp h
  cases h

theorem settled_readText (expected : String) : Settled (readText expected) := by
  refine settledBy_of_space (fun cs => by simp only [readText, skipSpace_skipSpace])
    (fun c h => absurd h (wrongForm_ne_ok _ _ _)) fun d ds c hd h hleft more => ?_
  by_cases hquote : d = '"'
  · subst hquote
    exact (settled_readQuoted h hleft).2 more
  · simp only [readText, skipSpace_cons hd] at h
    split at h
    · rename_i heq
      exact absurd (List.cons.inj heq).1 hquote
    · exact absurd h (wrongForm_ne_ok _ _ _)

theorem settled_readNull : Settled readNull := by
  refine settledBy_of_space (fun cs => by simp only [readNull, skipSpace_skipSpace])
    (fun c h => absurd h (wrongForm_ne_ok _ _ _)) fun d ds c hd h hleft more => ?_
  by_cases hn : d = 'n'
  · subst hn
    exact (settled_readWord _ h hleft).2 more
  · simp only [readNull, skipSpace_cons hd] at h
    split at h
    · rename_i heq
      exact absurd (List.cons.inj heq).1 hn
    · exact absurd h (wrongForm_ne_ok _ _ _)

theorem settled_readCount (bits : Nat) : Settled (readCount bits) := by
  refine settledBy_of_space (fun cs => by simp only [readCount, skipSpace_skipSpace])
    (fun c h => absurd h (wrongForm_ne_ok _ _ _)) fun d ds c hd h hleft more => ?_
  have hahead (es : List Char) : isNumberAhead (d :: es) = (d == '-' || d.isDigit) := rfl
  simp only [readCount, skipSpace_cons hd, hahead] at h ⊢
  by_cases hnumber : (d == '-' || d.isDigit) = true
  · rw [if_pos hnumber] at h ⊢
    refine (settled_readNumber.bind (Q := fun c => left c ≠ []) (settledBy_pair ?_) h hleft).2 more
    intro n
    cases n with
    | natural n =>
        by_cases hn : n < Nat.pow 2 bits
        · simp only [dif_pos hn]
          exact settled_ok
        · simp only [dif_neg hn]
          exact settledBy_of_ne_ok (by rintro _ _ ⟨⟩)
    | negative n => exact settledBy_of_ne_ok (by rintro _ _ ⟨⟩)
    | double isNegative size => exact settledBy_of_ne_ok (by rintro _ _ ⟨⟩)
  · rw [if_neg hnumber] at h
    exact absurd h (wrongForm_ne_ok _ _ _)

theorem settled_readName (names : List String) : Settled (readName names) := by
  refine settled_readQuoted.bind (settledBy_pair fun name => ?_)
  dsimp only
  cases names.finIdxOf? (String.ofList name) with
  | some i => exact settled_ok
  | none => exact settledBy_of_ne_ok (by rintro _ _ ⟨⟩)

theorem settled_readNamedNull (names : List String) : Settled (readNamedNull names) := by
  refine settledBy_of_space (fun cs => by simp only [readNamedNull, skipSpace_skipSpace])
    (fun c h => by cases h) fun d ds c hd h hleft more => ?_
  by_cases hquote : d = '"'
  · subst hquote
    refine ((settled_readName names).bind (Q := fun c => left c ≠ []) (settledBy_pair fun i => ?_)
      h hleft).2 more
    refine settled_readColon.bind (settled_readNull.bind ?_)
    -- behind null there is nothing but the end of the object
    refine settledBy_of_space (fun cs => by simp only [skipSpace_skipSpace])
      (fun c h => by cases h) fun e es c he h hleft more => ?_
    by_cases hclose : e = '}'
    · subst hclose
      cases h
      rfl
    · simp only [skipSpace_cons he] at h
      split at h
      · cases h
      · rename_i heq
        exact absurd (List.cons.inj heq).1 hclose
      · cases h
  · simp only [readNamedNull, skipSpace_cons hd] at h
    split at h
    · cases h
    · rename_i heq
      exact absurd (List.cons.inj heq).1 hquote
    · cases h
    · cases h

theorem settled_readChoice (room : Nat) (names : List String) :
    Settled (readChoice room names) := by
  refine settledBy_of_space (fun cs => by simp only [readChoice, skipSpace_skipSpace])
    (fun c h => by cases h) fun d ds c hd h hleft more => ?_
  by_cases hquote : d = '"'
  · subst hquote
    exact (settled_readName names h hleft).2 more
  by_cases hobject : d = '{'
  · subst hobject
    cases room with
    | zero => cases h
    | succ room => exact (settled_readNamedNull names h hleft).2 more
  · simp only [readChoice, skipSpace_cons hd] at h
    split at h
    · cases h
    · rename_i heq
      exact absurd (List.cons.inj heq).1 hquote
    · rename_i heq
      exact absurd (List.cons.inj heq).1 hobject
    · cases h

/-- A field is settled if its value is, which has to be there. -/
theorem settled_readHeld {α : Type} {read : List Char → Except Stop (α × List Char)}
    (hread : Settled read) (hspace : ∀ cs r, skipSpace cs = [] → read cs ≠ .ok r) (p : Presence) :
    Settled (p.readHeld read) := by
  have hsome : Settled fun cs => (read cs).map fun r => (some r.1, r.2) :=
    hread.map (fun _ => rfl) fun _ _ => rfl
  have hnullable : Settled (Presence.nullable.readHeld read) := by
    intro cs c h hleft
    simp only [Presence.readHeld] at h ⊢
    rcases skipSpace_eq_nil_or cs with hcs | ⟨d, ds, -, hne, hcs, happend⟩
    · simp only [hcs] at h
      cases hvalue : read cs with
      | error s =>
          rw [hvalue] at h
          cases h
      | ok r => exact absurd hvalue (hspace cs r hcs)
    · refine ⟨hne, fun more => ?_⟩
      have happend : skipSpace (goOn cs more) = d :: (ds ++ more) := happend more
      simp only [hcs] at h
      simp only [happend]
      by_cases hd : d = 'n'
      · subst hd
        exact (settled_readWord_map _ _ h hleft).2 more
      · split at h
        · rename_i heq
          exact absurd (List.cons.inj heq).1 hd
        · split
          · rename_i heq
            exact absurd (List.cons.inj heq).1 hd
          · exact (hsome h hleft).2 more
  -- a field that may be null is read by its first character, one that may be missing is read as it
  -- is
  cases p with
  | required => exact hread
  | nullable => exact hnullable
  | optional => exact hnullable
  | defaulted => exact hsome

theorem delimited_closeArray : Delimited closeArray := by
  refine settledBy_of_space (fun cs => by simp only [closeArray, skipSpace_skipSpace])
    (fun c h => by cases h) fun d ds c hd h _ more => ?_
  simp only [closeArray, skipSpace_cons hd] at h ⊢
  by_cases hclose : d = ']'
  · rw [if_pos hclose] at h ⊢
    cases h
    rfl
  rw [if_neg hclose] at h
  split at h
  · split at h <;> cases h
  · cases h

/-- No value is read from space alone. -/
theorem Shape.read_ne_ok {s : Shape} (room : Nat) {cs : List Char} (h : skipSpace cs = [])
    (r : s.Carrier × List Char) : s.read room cs ≠ .ok r := by
  intro hread
  cases s with
  | text =>
      rw [Shape.read, readText, h] at hread
      cases hread
  | count bits =>
      rw [Shape.read, readCount, h] at hread
      exact absurd hread (wrongForm_ne_ok _ _ _)
  | choice names =>
      rw [Shape.read, readChoice, h] at hread
      cases hread
  | list s =>
      rw [Shape.read, h] at hread
      exact absurd hread (wrongForm_ne_ok _ _ _)
  | record kind fs =>
      rw [Shape.read, h] at hread
      exact absurd hread (wrongForm_ne_ok _ _ _)
  | any =>
      rw [Shape.read, ← readValue_skipSpace, h] at hread
      cases room <;> cases hread

/-- A list is settled if its items are. -/
theorem delimited_read_list {s : Shape} (hread : ∀ room, Settled (s.read room)) (room : Nat) :
    Delimited ((Shape.list s).read room) := by
  refine settledBy_of_space (fun cs => by simp only [Shape.read, skipSpace_skipSpace])
    (fun c h => absurd h (Shape.read_ne_ok room rfl c)) fun d ds c hd h _ more => ?_
  by_cases harray : d = '['
  · subst harray
    cases room with
    | zero => cases h
    | succ room => exact (delimited_readAll (hread room) h trivial).2 more
  · simp only [Shape.read, skipSpace_cons hd] at h
    split at h
    · rename_i heq
      exact absurd (List.cons.inj heq).1 harray
    · exact absurd h (wrongForm_ne_ok _ _ _)

/-- A record is settled if its fields are. -/
theorem delimited_read_record {fs : Fields} (kind : String)
    (hitems : ∀ expected k room first, Delimited (fs.readItems expected k room first))
    (hmember : ∀ room key slots, Settled (fs.readMember room key slots)) (room : Nat) :
    Delimited ((Shape.record kind fs).read room) := by
  refine settledBy_of_space (fun cs => by simp only [Shape.read, skipSpace_skipSpace])
    (fun c h => absurd h (Shape.read_ne_ok room rfl c)) fun d ds c hd h _ more => ?_
  by_cases harray : d = '['
  · subst harray
    cases room with
    | zero => cases h
    | succ room => exact (hitems _ 0 room true h trivial).2 more
  by_cases hobject : d = '{'
  · subst hobject
    cases room with
    | zero => cases h
    | succ room =>
        obtain ⟨⟨slots, es⟩, hinto, hrest⟩ := bind_eq_ok_iff.mp h
        obtain ⟨-, hinto⟩ := delimited_readInto (hmember room) fs.noSlots hinto trivial
        refine bind_eq_ok_iff.mpr ⟨_, hinto more, ?_⟩
        dsimp only at hrest
        cases hfinish : fs.finish slots with
        | error name =>
            rw [hfinish] at hrest
            cases hrest
        | ok v =>
            rw [hfinish] at hrest
            cases hrest
            simp only [goOn, hfinish]
  · simp only [Shape.read, skipSpace_cons hd] at h
    split at h
    · rename_i heq
      exact absurd (List.cons.inj heq).1 harray
    · rename_i heq
      exact absurd (List.cons.inj heq).1 hobject
    · exact absurd h (wrongForm_ne_ok _ _ _)

mutual

/-- **A value is settled** where something is left. -/
theorem Shape.settled_read : (s : Shape) → ∀ room : Nat, Settled (s.read room)
  | .text, _ => (settled_readText "a string").map (fun _ => rfl) fun _ _ => rfl
  | .count bits, _ => settled_readCount bits
  | .choice names, room => settled_readChoice room names
  | .list s, room => (delimited_read_list s.settled_read room).settled
  | .record kind fs, room =>
      (delimited_read_record kind fs.delimited_readItems fs.settled_readMember room).settled
  | .any, room => settled_readValue room

/-- The items that make a record are settled. -/
theorem Fields.delimited_readItems : (fs : Fields) → ∀ (expected : String) (k room : Nat)
    (first : Bool), Delimited (fs.readItems expected k room first)
  | .nil, _, _, _, _ => by
      intro cs c h _
      cases hclose : closeArray cs with
      | error s =>
          rw [Fields.readItems, hclose] at h
          cases h
      | ok rest =>
          rw [Fields.readItems, hclose] at h
          cases h
          obtain ⟨hcs, hclose⟩ := delimited_closeArray hclose trivial
          refine ⟨hcs, fun more => ?_⟩
          rw [Fields.readItems, hclose more]
          rfl
  | .cons n others p s rest, expected, k, room, first => by
      intro cs c h _
      rw [Fields.readItems] at h
      obtain ⟨⟨isItem, ds⟩, hnext, hrest⟩ := bind_eq_ok_iff.mp h
      obtain ⟨hcs, hnext⟩ := delimited_nextItem first hnext trivial
      refine ⟨hcs, fun more => ?_⟩
      rw [Fields.readItems]
      refine bind_eq_ok_iff.mpr ⟨_, hnext more, ?_⟩
      cases isItem with
      | false =>
          dsimp only at hrest
          -- The array has ended early: the fields left are settled without a look at the text.
          cases hend : (Fields.cons n others p s rest).pastEnd k with
          | error k =>
              rw [hend] at hrest
              cases hrest
          | ok vs =>
              rw [hend] at hrest
              cases hrest
              simp only [goOn]
      | true =>
          obtain ⟨⟨v, es⟩, hv, hrest⟩ := bind_eq_ok_iff.mp hrest
          obtain ⟨⟨vs, fs⟩, hvs, hrest⟩ := bind_eq_ok_iff.mp hrest
          cases hrest
          obtain ⟨hes, hvs⟩ := rest.delimited_readItems expected (k + 1) room false hvs trivial
          have hheld := settled_readHeld (s.settled_read room)
            (fun cs r hcs => s.read_ne_ok room hcs r) p
          obtain ⟨-, hv⟩ := hheld hv hes
          exact bind_eq_ok_iff.mpr ⟨_, hv more, bind_eq_ok_iff.mpr ⟨_, hvs more, rfl⟩⟩

/-- A member of a record is settled where something is left. -/
theorem Fields.settled_readMember : (fs : Fields) → ∀ (room : Nat) (key : List Char)
    (slots : fs.Slots), Settled (fs.readMember room key slots)
  | .nil, _, _, _ => settled_readColon.bind (settled_skipValue.bind settled_ok)
  | .cons n others p s rest, room, key, slots => by
      have hheld := settled_readHeld (s.settled_read room)
        (fun cs r hcs => s.read_ne_ok room hcs r) p
      show Settled fun cs => (Fields.cons n others p s rest).readMember room key slots cs
      simp only [Fields.readMember]
      by_cases hkey : ((n :: others).any fun k => k.toList == key) = true
      · simp only [if_pos hkey]
        cases slots.1 with
        | some v => exact settledBy_of_ne_ok (by rintro _ _ ⟨⟩)
        | none =>
            refine settled_readColon.bind (hheld.bind (settledBy_pair fun v => ?_))
            dsimp only
            exact settled_ok
      · simp only [if_neg hkey]
        exact (rest.settled_readMember room key slots.2).map (fun _ => rfl) fun _ _ => rfl

end

/-! ## Whole texts -/

/-- **Nothing but space stands behind a record.** -/
theorem Layout.read_append_ne_ok {α : Type} {L : Layout α} {kind : String} {fs : Fields}
    (hshape : L.shape = .record kind fs) {cs : List Char} {a : α} (h : L.read cs = .ok a)
    {more : List Char} (hmore : skipSpace more ≠ []) (b : α) : L.read (cs ++ more) ≠ .ok b := by
  have hsettled : Delimited (L.shape.read maxNesting) := by
    rw [hshape]
    exact delimited_read_record kind fs.delimited_readItems fs.settled_readMember maxNesting
  intro hlonger
  cases hread : L.shape.read maxNesting cs with
  | error s =>
      simp only [Layout.read, readWhole, hread] at h
      cases h
  | ok r =>
      obtain ⟨v, rest⟩ := r
      obtain ⟨-, hread'⟩ := hsettled hread trivial
      have hread' : L.shape.read maxNesting (cs ++ more) = .ok (v, rest ++ more) := hread' more
      -- the whole text was read, so the record left space only; now `more` stands behind that
      have hrest : skipSpace rest = [] := by
        cases hspace : skipSpace rest with
        | nil => rfl
        | cons d ds =>
            simp only [Layout.read, readWhole, hread, bind, Except.bind, hspace] at h
            cases h
      have hspace : skipSpace (rest ++ more) = skipSpace more := by
        rw [skipSpace, List.dropWhile_append, ← skipSpace, hrest]
        rfl
      cases hleft : skipSpace more with
      | nil => exact hmore hleft
      | cons d ds =>
          simp only [Layout.read, readWhole, hread', bind, Except.bind, hspace, hleft] at hlonger
          cases hlonger

end IndexAdvisor.Json
