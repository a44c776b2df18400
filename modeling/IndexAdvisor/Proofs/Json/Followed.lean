import IndexAdvisor.Proofs.Json.Kept
import IndexAdvisor.Proofs.Json.Value

/-!
# Readers that follow others

A reader follows another one if it reads whatever the other reads and stops where the other does,
up to some refusals. The reader of values of any form follows that of each shape. Two records of
which each field follows that of the other are read in step, whatever members are passed over
between their fields.
-/

set_option autoImplicit false

namespace IndexAdvisor.Json

variable {R : Stop → Prop}

section Values

variable {α β : Type} {read : List Char → Except Stop (α × List Char)}
  {read' : List Char → Except Stop (β × List Char)}

/-- What the first reader reads the second one reads as well, up to some refusals, and both stop at
one place. -/
def Follows (R : Stop → Prop) (read : List Char → Except Stop (α × List Char))
    (read' : List Char → Except Stop (β × List Char)) : Prop :=
  ∀ ⦃cs a rest⦄, read cs = .ok (a, rest) → UpTo R (fun r => r.2 = rest) (read' cs)

theorem Follows.refl (R : Stop → Prop) (read : List Char → Except Stop (α × List Char)) :
    Follows R read read := by
  intro cs a rest h
  rw [h]
  rfl

/-- The reader of values of any form follows that of each shape, but for what it refuses to
keep. -/
theorem Shape.follows_any (s : Shape) (room : Nat) :
    Follows Unkept (s.read room) (Shape.any.read room) :=
  fun _ _ _ h => (s.passes_read room h).upTo_readValue room

/-- A text is a value of any form. -/
theorem follows_text (R : Stop → Prop) (room : Nat) :
    Follows R (Shape.text.read room) (Shape.any.read room) := by
  intro cs a rest h
  obtain ⟨⟨text, ds⟩, htext, h⟩ := map_eq_ok_iff.mp h
  cases h
  show UpTo R _ (readValue room cs)
  rw [readText] at htext
  split at htext
  · rename_i quoted hcs
    rw [← readValue_skipSpace, hcs, readValue_of_readQuoted room htext]
    rfl
  · exact absurd htext (wrongForm_ne_ok _ _ _)

/-- So is a number. -/
theorem follows_count (R : Stop → Prop) (bits room : Nat) :
    Follows R ((Shape.count bits).read room) (Shape.any.read room) := by
  intro cs n rest h
  obtain ⟨hahead, m, hnumber⟩ := exists_readNumber_of_readCount h
  show UpTo R _ (readValue room cs)
  have hvalue : readValue room (skipSpace cs) =
      (readScalar (skipSpace cs)).map fun r => (r.1.toJson, r.2) := by
    rcases skipSpace_eq_nil_or cs with hcs | ⟨d, ds, hd, -, hcs, -⟩
    · rw [hcs] at hahead
      cases hahead
    · rw [hcs] at hahead ⊢
      refine readValue_of_scalar room hd ?_ ?_ ds
      · rintro rfl
        cases hahead
      · rintro rfl
        cases hahead
  rw [← readValue_skipSpace, hvalue, readScalar_of_isNumberAhead hahead, hnumber]
  rfl

/-- A field of any presence is followed if its value is. -/
theorem Follows.readHeld (h : Follows R read read') (p : Presence) :
    Follows R (p.readHeld read) (p.readHeld read') := by
  have hnull : Follows R (Presence.nullable.readHeld read) (Presence.nullable.readHeld read') := by
    intro cs a rest hread
    simp only [Presence.readHeld] at hread ⊢
    split at hread
    · obtain ⟨ds, hword, hr⟩ := map_eq_ok_iff.mp hread
      cases hr
      rw [hword]
      rfl
    · obtain ⟨r, hvalue, hr⟩ := map_eq_ok_iff.mp hread
      cases hr
      exact (h hvalue).map fun r _ hr => hr
  cases p with
  | required => exact h
  | nullable => exact hnull
  | optional => exact hnull
  | defaulted =>
      intro cs a rest hread
      obtain ⟨r, hvalue, hr⟩ := map_eq_ok_iff.mp hread
      cases hr
      exact (h hvalue).map fun r _ hr => hr

end Values

/-! ## Records -/

/-- Records with the same fields, where the value of each field of the second one is read as that
of the first one is. -/
inductive Fields.Follow (R : Stop → Prop) (room : Nat) : Fields → Fields → Prop
  | nil : Follow R room .nil .nil
  | cons {n : String} {others : List String} {p : Presence} {s s' : Shape} {fs gs : Fields}
      (hvalue : Follows R (s.read room) (s'.read room)) (hrest : Follow R room fs gs) :
      Follow R room (.cons n others p s fs) (.cons n others p s' gs)

/-- Which fields have been read. -/
def Fields.filled : (fs : Fields) → fs.Slots → List Bool
  | .nil, _ => []
  | .cons _ _ _ _ rest, slots => slots.1.isSome :: rest.filled slots.2

namespace Fields.Follow

variable {room : Nat} {fs gs : Fields}

/-- A member is read into the slot of the same field, or passed over by both. -/
theorem readMember (h : Fields.Follow R room fs gs) {name cs rest : List Char}
    {slots slots₁ : fs.Slots} {slots' : gs.Slots} (hfilled : fs.filled slots = gs.filled slots')
    (hread : fs.readMember room name slots cs = .ok (slots₁, rest)) :
    UpTo R (fun r => r.2 = rest ∧ fs.filled slots₁ = gs.filled r.1)
      (gs.readMember room name slots' cs) := by
  induction h with
  | nil =>
      rw [show Fields.nil.readMember room name slots' cs = .ok (slots₁, rest) from hread]
      exact ⟨rfl, rfl⟩
  | @cons n others p s s' fs gs hvalue hrest ih =>
      obtain ⟨hfirst, hothers⟩ := List.cons.inj hfilled
      rw [Fields.readMember] at hread ⊢
      split at hread
      · rename_i hkey
        rw [if_pos hkey]
        split at hread
        · cases hread
        · rename_i hnone
          obtain ⟨ds, hcolon, hread⟩ := bind_eq_ok_iff.mp hread
          obtain ⟨⟨v, es⟩, hv, hread⟩ := bind_eq_ok_iff.mp hread
          cases hread
          -- a name that is twice there for one is so for the other
          have hnone' : slots'.1 = none := by
            rw [hnone] at hfirst
            exact Option.isNone_iff_eq_none.mp (by simpa using hfirst.symm)
          rw [hnone', hcolon]
          refine (hvalue.readHeld p hv).bind fun r _ hr => ?_
          exact ⟨hr, congrArg (true :: ·) hothers⟩
      · rename_i hkey
        rw [if_neg hkey]
        obtain ⟨r, hr, hread⟩ := map_eq_ok_iff.mp hread
        cases hread
        refine (ih hothers hr).map fun r' _ hr' => ⟨hr'.1, ?_⟩
        exact List.cons_eq_cons.mpr ⟨hfirst, hr'.2⟩

theorem readMembersWithin (h : Fields.Follow R room fs gs) {bound cs rest : List Char}
    {first : Bool} {slots slots₁ : fs.Slots} {slots' : gs.Slots}
    (hfilled : fs.filled slots = gs.filled slots')
    (hread : readMembersWithin (fs.readMember room) bound first slots cs = .ok (slots₁, rest)) :
    UpTo R (fun r => r.2 = rest ∧ fs.filled slots₁ = gs.filled r.1)
      (Json.readMembersWithin (gs.readMember room) bound first slots' cs) := by
  induction bound generalizing first cs slots slots' with
  | nil => cases hread
  | cons b bound ih =>
      obtain ⟨⟨name?, ds⟩, hnext, hread⟩ := bind_eq_ok_iff.mp hread
      rw [Json.readMembersWithin, hnext]
      cases name? with
      | none =>
          cases hread
          exact ⟨rfl, hfilled⟩
      | some name =>
          obtain ⟨⟨slots₂, es⟩, hmember, hread⟩ := bind_eq_ok_iff.mp hread
          refine (h.readMember hfilled hmember).bind ?_
          rintro ⟨slots₂', es'⟩ - ⟨hes, hfilled₂⟩
          obtain rfl := hes
          exact ih hfilled₂ hread

/-- Where nothing that has to be there is lacking, nothing is for the other. -/
theorem finish (h : Fields.Follow R room fs gs) {slots : fs.Slots} {slots' : gs.Slots}
    (hfilled : fs.filled slots = gs.filled slots') {v : fs.Carrier}
    (hfinish : fs.finish slots = .ok v) : ∃ v', gs.finish slots' = .ok v' := by
  have hlacking (p : Presence) (α β : Type) :
      (p.lacking? : Option (p.Held α)).isSome = (p.lacking? : Option (p.Held β)).isSome := by
    cases p <;> rfl
  induction h with
  | nil => exact ⟨(), rfl⟩
  | @cons n others p s s' fs gs hvalue hrest ih =>
      obtain ⟨hfirst, hothers⟩ := List.cons.inj hfilled
      rw [Fields.finish] at hfinish ⊢
      split at hfinish
      · cases hfinish
      · rename_i w hw
        obtain ⟨vs, hvs, -⟩ := map_eq_ok_iff.mp hfinish
        have hsome : (slots'.1.or p.lacking?).isSome := by
          rw [Option.isSome_or, ← hfirst, hlacking p _ s.Carrier, ← Option.isSome_or, hw]
          rfl
        obtain ⟨w', hw'⟩ := Option.isSome_iff_exists.mp hsome
        obtain ⟨vs', hvs'⟩ := ih hothers hvs
        rw [hw', hvs']
        exact ⟨_, rfl⟩

/-- Where an array ends early enough for the one, it does for the other. -/
theorem pastEnd (h : Fields.Follow R room fs gs) {k j : Nat} {v : fs.Carrier}
    (hend : fs.pastEnd k = .ok v) : ∃ v', gs.pastEnd j = .ok v' := by
  have hpast (p : Presence) (α β : Type) :
      (p.pastEnd? : Option (p.Held α)).isSome = (p.pastEnd? : Option (p.Held β)).isSome := by
    cases p <;> rfl
  induction h generalizing k j with
  | nil => exact ⟨(), rfl⟩
  | @cons n others p s s' fs gs hvalue hrest ih =>
      rw [Fields.pastEnd] at hend ⊢
      split at hend
      · cases hend
      · rename_i w hw
        obtain ⟨vs, hvs, -⟩ := map_eq_ok_iff.mp hend
        have hsome : (p.pastEnd? : Option (p.Held s'.Carrier)).isSome := by
          rw [hpast p _ s.Carrier, hw]
          rfl
        obtain ⟨w', hw'⟩ := Option.isSome_iff_exists.mp hsome
        obtain ⟨vs', hvs'⟩ := ih (j := j + 1) hvs
        rw [hw', hvs']
        exact ⟨_, rfl⟩

theorem readItems (h : Fields.Follow R room fs gs) {expected expected' : String} {k j : Nat}
    {first : Bool} {cs rest : List Char} {v : fs.Carrier}
    (hread : fs.readItems expected k room first cs = .ok (v, rest)) :
    UpTo R (fun r => r.2 = rest) (gs.readItems expected' j room first cs) := by
  induction h generalizing k j first cs rest with
  | nil =>
      obtain ⟨ds, hclose, hr⟩ := map_eq_ok_iff.mp hread
      cases hr
      rw [Fields.readItems, hclose]
      rfl
  | @cons n others p s s' fs gs hvalue hrest ih =>
      rw [Fields.readItems] at hread ⊢
      obtain ⟨⟨isItem, ds⟩, hnext, hread⟩ := bind_eq_ok_iff.mp hread
      rw [hnext]
      cases isItem with
      | false =>
          -- the array ends here, and the fields that are left have to be such that it may
          dsimp only at hread
          split at hread
          · rename_i w hend
            cases hread
            obtain ⟨w', hend'⟩ := (Fields.Follow.cons hvalue hrest).pastEnd (j := j) hend
            simp only [bind, Except.bind, hend']
            rfl
          · cases hread
      | true =>
          obtain ⟨⟨w, es⟩, hw, hread⟩ := bind_eq_ok_iff.mp hread
          obtain ⟨⟨ws, hs⟩, hws, hread⟩ := bind_eq_ok_iff.mp hread
          cases hread
          refine (hvalue.readHeld p hw).bind ?_
          rintro ⟨w', es'⟩ - hes
          obtain rfl : es' = es := hes
          exact (ih (j := j + 1) hws).bind fun r _ hr => hr

/-- **A record whose fields follow those of another follows it.** -/
theorem record (h : Fields.Follow R room fs gs) (kind kind' : String) :
    Follows R ((Shape.record kind fs).read (room + 1))
      ((Shape.record kind' gs).read (room + 1)) := by
  have hempty {fs gs : Fields} (h : Fields.Follow R room fs gs) :
      fs.filled fs.noSlots = gs.filled gs.noSlots := by
    induction h with
    | nil => rfl
    | cons _ _ ih => exact congrArg (false :: ·) ih
  intro cs v rest hread
  rw [Shape.read] at hread ⊢
  -- an array of the fields in their order, an object, or neither
  split at hread
  · exact h.readItems hread
  · obtain ⟨⟨slots, es⟩, hinto, hread⟩ := bind_eq_ok_iff.mp hread
    refine (h.readMembersWithin (hempty h) hinto).bind ?_
    rintro ⟨slots', es'⟩ - ⟨hes, hfilled⟩
    obtain rfl : es' = es := hes
    dsimp only at hread ⊢
    split at hread
    · rename_i w hfinish
      cases hread
      obtain ⟨w', hfinish'⟩ := h.finish hfilled hfinish
      rw [hfinish']
      rfl
    · cases hread
  · exact absurd hread (wrongForm_ne_ok _ _ _)

end Fields.Follow

/-! ## Whole texts -/

/-- A whole text that is read by one reader is read by one that follows it. -/
theorem Follows.readWhole {α β : Type} {read : List Char → Except Stop (α × List Char)}
    {read' : List Char → Except Stop (β × List Char)} (h : Follows R read read')
    {cs : List Char} {a : α} (hread : readWhole read cs = .ok a) :
    UpTo (fun fault => ∃ s, R s ∧ fault = s.inText cs) (fun _ => True)
      (Json.readWhole read' cs) := by
  obtain ⟨rest, hv⟩ := exists_of_readWhole hread
  -- the other reader leaves the same rest, and that is only space
  have hend : skipSpace rest = [] := by
    cases hrest : skipSpace rest with
    | nil => rfl
    | cons c more =>
        simp only [Json.readWhole, hv, bind, Except.bind, hrest, refuse] at hread
        cases hread
  have hfollow := h hv
  cases hread' : read' cs with
  | error s =>
      rw [hread'] at hfollow
      simp only [Json.readWhole, hread', bind, Except.bind]
      exact ⟨s, hfollow, rfl⟩
  | ok r =>
      rw [hread'] at hfollow
      obtain rfl : r.2 = rest := hfollow
      simp only [Json.readWhole, hread', bind, Except.bind, hend]
      trivial

end IndexAdvisor.Json
