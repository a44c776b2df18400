import IndexAdvisor.Proofs.Text.Lines

/-!
# Where a line breaks off

A piece of a file that is followed by a line end, or by nothing, is a line, unless a line end stands
within it: then the line breaks off there. A piece is followed by a line end also if it ends in a
carriage return and a line feed comes behind.
-/

set_option autoImplicit false

namespace IndexAdvisor.Text

/-! ## First lines -/

/-- What stands behind a line: nothing, or a line end in front. -/
def EndsLine (after : List UInt8) : Prop := (byteLines after).headD [] = []

instance (after : List UInt8) : Decidable (EndsLine after) := inferInstanceAs (Decidable (_ = _))

/-- A piece of a file breaks off behind `head`: a line end stands there. -/
def BreaksOff (head piece after : List UInt8) : Prop :=
  ∃ b rest, piece = head ++ b :: rest ∧ (b = 10 ∨ b = 13 ∧ (rest ++ after).head? = some 10)

/-- A piece of a file breaks off nowhere. -/
def Unbroken (piece after : List UInt8) : Prop := ∀ head, ¬BreaksOff head piece after

theorem BreaksOff.cons {head piece after : List UInt8} (h : BreaksOff head piece after)
    (b : UInt8) : BreaksOff (b :: head) (b :: piece) after := by
  obtain ⟨c, rest, rfl, hc⟩ := h
  exact ⟨c, rest, rfl, hc⟩

/-- What breaks off does so behind a front without line ends. -/
theorem BreaksOff.exists_of_append {head front piece after : List UInt8}
    (h : BreaksOff head (front ++ piece) after) (hfront : ∀ b ∈ front, b ≠ 10 ∧ b ≠ 13) :
    ∃ more, head = front ++ more ∧ BreaksOff more piece after := by
  obtain ⟨b, rest, hpiece, hb⟩ := h
  rcases List.append_eq_append_iff.mp hpiece with ⟨more, rfl, hmore⟩ | ⟨more, rfl, hmore⟩
  · exact ⟨more, rfl, b, rest, hmore, hb⟩
  · cases more with
    | nil => exact ⟨[], by simp, b, rest, hmore.symm, hb⟩
    | cons c more =>
        obtain rfl := (List.cons.inj hmore).1
        have hc := hfront b (by simp)
        exact absurd hb fun h => h.elim hc.1 fun h => hc.2 h.1

/-- A front without line ends does not break off. -/
theorem Unbroken.append {front piece after : List UInt8} (h : Unbroken piece after)
    (hfront : ∀ b ∈ front, b ≠ 10 ∧ b ≠ 13) : Unbroken (front ++ piece) after := fun _ hoff => by
  obtain ⟨more, -, hmore⟩ := hoff.exists_of_append hfront
  exact h more hmore

/-- A piece breaks off nowhere if no line feed stands in it and it does not go on with one behind a
carriage return. -/
theorem unbroken_of_notMem {piece after : List UInt8} (hfeed : 10 ∉ piece)
    (hreturn : piece.getLast? = some 13 → after.head? ≠ some 10) : Unbroken piece after := by
  rintro head ⟨b, rest, rfl, rfl | ⟨rfl, hnext⟩⟩
  · exact hfeed (by simp)
  · cases rest with
    | nil => exact hreturn (by simp) hnext
    | cons c rest =>
        obtain rfl : c = 10 := Option.some.inj hnext
        exact hfeed (by simp)

theorem byteLines_feed (bs : List UInt8) : byteLines (10 :: bs) = [] :: byteLines bs := by
  rw [byteLines, dropReturns_feed_cons (by decide), splitLines, if_pos rfl, byteLines]

theorem byteLines_return {bs : List UInt8} (h : bs.head? = some 10) :
    byteLines (13 :: bs) = byteLines bs := by
  rw [byteLines, dropReturns_cons, if_pos ⟨rfl, h⟩, byteLines]

/-- An octet that is no line end goes to the first line of what follows. -/
theorem byteLines_cons {b : UInt8} {bs : List UInt8} (hfeed : b ≠ 10)
    (hreturn : ¬(b = 13 ∧ bs.head? = some 10)) :
    byteLines (b :: bs) = (b :: (byteLines bs).headD []) :: (byteLines bs).tail := by
  rw [byteLines, dropReturns_cons, if_neg hreturn, splitLines, if_neg hfeed, ← byteLines]
  cases byteLines bs <;> rfl

/-- **The first line** is the piece in front, as far as that does not break off. -/
theorem headD_byteLines {after : List UInt8} (h : EndsLine after) (piece : List UInt8) :
    (byteLines (piece ++ after)).headD [] = piece ∨
      BreaksOff ((byteLines (piece ++ after)).headD []) piece after := by
  induction piece with
  | nil => exact Or.inl h
  | cons b piece ih =>
      rw [List.cons_append]
      by_cases hfeed : b = 10
      · subst hfeed
        rw [byteLines_feed]
        exact Or.inr ⟨10, piece, rfl, Or.inl rfl⟩
      · by_cases hreturn : b = 13 ∧ (piece ++ after).head? = some 10
        · obtain ⟨bs, hbs⟩ := List.head?_eq_some_iff.mp hreturn.2
          rw [hreturn.1, byteLines_return hreturn.2, hbs, byteLines_feed]
          exact Or.inr ⟨13, piece, rfl, Or.inr ⟨rfl, hreturn.2⟩⟩
        · rw [byteLines_cons hfeed hreturn, List.headD_cons]
          exact ih.imp (congrArg (b :: ·)) (·.cons b)

/-- A piece that does not break off is a line, and the lines behind it are none of its business. -/
theorem byteLines_append {after piece : List UInt8} (h : EndsLine after) (hne : piece ≠ [])
    (hwhole : Unbroken piece after) : byteLines (piece ++ after) =
      piece :: (byteLines after).tail := by
  induction piece with
  | nil => exact absurd rfl hne
  | cons b piece ih =>
      have hfeed : b ≠ 10 := fun hb => hwhole [] ⟨b, piece, rfl, Or.inl hb⟩
      have hreturn : ¬(b = 13 ∧ (piece ++ after).head? = some 10) := fun hb =>
        hwhole [] ⟨b, piece, rfl, Or.inr hb⟩
      rw [List.cons_append, byteLines_cons hfeed hreturn]
      by_cases hlast : piece = []
      · subst hlast
        rw [List.nil_append, show _ = _ from h]
      · rw [ih hlast fun head hhead => hwhole (b :: head) (hhead.cons b)]
        rfl

/-- Behind an ended part the lines of what follows are its own. -/
theorem byteLines_append_of_ended {before : List UInt8} (h : ∀ b ∈ before.getLast?, b = 10)
    (bs : List UInt8) : byteLines (before ++ bs) = byteLines before ++ byteLines bs := by
  have hended : ∀ b ∈ (dropReturns 13 10 before).getLast?, b = 10 := by
    rw [getLast?_dropReturns]
    exact h
  rw [byteLines, dropReturns_append_of_ended (by decide) h, splitLines_append_of_ended hended]
  rfl

/-! ## Octets of texts -/

namespace Utf8

theorem encode_injective : Function.Injective encode := fun cs ds h => by
  have hcs := decode?_encode cs
  rw [h, decode?_encode] at hcs
  exact (Option.some.inj hcs).symm

/-- What stands behind the octets of a text in those of another one is a text. -/
theorem exists_of_encode_eq_append {front cs : List Char} {bs : List UInt8}
    (h : encode cs = encode front ++ bs) : ∃ rest, cs = front ++ rest ∧ encode rest = bs := by
  induction front generalizing cs with
  | nil => exact ⟨cs, rfl, h⟩
  | cons c front ih =>
      rw [encode_cons, List.append_assoc] at h
      -- the first character is read from either side
      have hread := congrArg decode h
      rw [decode_encode, decode, decodeFrom_utf8EncodeChar] at hread
      cases cs with
      | nil => cases hread
      | cons d cs =>
          obtain rfl : d = c := Option.some.inj (List.cons.inj hread).1
          rw [encode_cons] at h
          obtain ⟨rest, rfl, hrest⟩ := ih (List.append_cancel_left h)
          exact ⟨rest, rfl, hrest⟩

/-- An octet below 0x80 stands for a character of the text. -/
theorem mem_of_mem_encode {cs : List Char} {b : UInt8} (hb : b ∈ encode cs) (h : b.toNat < 0x80) :
    Char.ofNat b.toNat ∈ cs := by
  obtain ⟨c, hc, hb⟩ := List.mem_flatMap.mp hb
  rwa [← eq_ofNat_of_mem_utf8EncodeChar hb h]

theorem encode_of_ascii {cs : List Char} (h : ∀ c ∈ cs, c.toNat < 0x80) :
    encode cs = cs.map fun c => UInt8.ofNat c.toNat := by
  induction cs with
  | nil => rfl
  | cons c cs ih =>
      have hc : c.val.toNat ≤ 0x7F := Nat.le_of_lt_succ (h c List.mem_cons_self)
      rw [encode_cons, ih fun d hd => h d (List.mem_cons_of_mem c hd), List.map_cons]
      unfold String.utf8EncodeChar
      rw [if_pos hc]
      rfl

end Utf8

end IndexAdvisor.Text
