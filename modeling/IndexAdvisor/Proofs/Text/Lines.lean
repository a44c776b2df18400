import IndexAdvisor.Proofs.Store.Insertion

/-!
# Lines of texts and lines of octets

The octets of a text have the lines of the text: a line feed and a carriage return are octets of
their own, and no octet of another character is one of them. Lines of texts in a row are those of
the one and those of the other, if the first is ended.
-/

set_option autoImplicit false

namespace IndexAdvisor.Text

/-! ## Cutting -/

section Cutting

variable {α : Type} [DecidableEq α] {ret feed : α}

theorem dropReturns_cons (c : α) (cs : List α) : dropReturns ret feed (c :: cs) =
    if c = ret ∧ cs.head? = some feed then dropReturns ret feed cs
    else c :: dropReturns ret feed cs := by
  cases cs with
  | nil => simp [dropReturns]
  | cons d cs => simp [dropReturns]

/-- A line feed is kept. -/
theorem dropReturns_feed_cons (hne : ret ≠ feed) (cs : List α) :
    dropReturns ret feed (feed :: cs) = feed :: dropReturns ret feed cs := by
  rw [dropReturns_cons, if_neg fun h => hne h.1.symm]

/-- Nothing is dropped of a piece without carriage returns. -/
theorem dropReturns_append_of_notMem {front : List α} (h : ret ∉ front) (cs : List α) :
    dropReturns ret feed (front ++ cs) = front ++ dropReturns ret feed cs := by
  induction front with
  | nil => rfl
  | cons c front ih =>
      rw [List.mem_cons, not_or] at h
      rw [List.cons_append, dropReturns_cons, if_neg fun hc => h.1 hc.1.symm, ih h.2,
        List.cons_append]

/-- Behind a line feed nothing depends on what stands before it. -/
theorem dropReturns_append_of_ended {bs : List α} (hne : ret ≠ feed)
    (h : ∀ b ∈ bs.getLast?, b = feed) (cs : List α) :
    dropReturns ret feed (bs ++ cs) = dropReturns ret feed bs ++ dropReturns ret feed cs := by
  induction bs with
  | nil => rfl
  | cons b bs ih =>
      cases bs with
      | nil =>
          have hb : b = feed := h b rfl
          have hret : ¬(b = ret ∧ cs.head? = some feed) := fun hc => hne (hc.1.symm.trans hb)
          rw [List.singleton_append, dropReturns_cons, if_neg hret]
          rfl
      | cons b' bs =>
          have hrest := ih fun x hx => h x (by rwa [List.getLast?_cons_cons])
          show dropReturns ret feed (b :: b' :: (bs ++ cs)) = _
          rw [dropReturns, dropReturns]
          by_cases hb : b = ret ∧ b' = feed
          · rw [if_pos hb, if_pos hb]
            exact hrest
          · rw [if_neg hb, if_neg hb]
            exact congrArg (b :: ·) hrest

/-- A piece without line feeds goes to the first line. -/
theorem splitLines_append_of_notMem {front : List α} (h : feed ∉ front) (hne : front ≠ [])
    (cs : List α) : splitLines feed (front ++ cs) =
      match splitLines feed cs with
      | [] => [front]
      | l :: ls => (front ++ l) :: ls := by
  induction front with
  | nil => exact absurd rfl hne
  | cons c front ih =>
      rw [List.mem_cons, not_or] at h
      rw [List.cons_append, splitLines, if_neg (Ne.symm h.1)]
      cases front with
      | nil => rfl
      | cons d front =>
          rw [ih h.2 (List.cons_ne_nil d front)]
          cases splitLines feed cs <;> rfl

end Cutting

/-! ## Octets -/

namespace Utf8

/-- An octet below 0x80 is the whole of its character. -/
theorem eq_ofNat_of_mem_utf8EncodeChar {c : Char} {b : UInt8} (hb : b ∈ String.utf8EncodeChar c)
    (h : b.toNat < 0x80) : c = Char.ofNat b.toNat := by
  have hc : Char.ofNat c.val.toNat = c := Char.ofNat_toNat c
  unfold String.utf8EncodeChar at hb
  dsimp only at hb
  split at hb
  · rw [List.mem_singleton.mp hb, UInt8.toNat_ofNat', Nat.mod_eq_of_lt (by omega), hc]
  -- all octets of a longer form are 0x80 or above
  split at hb
  · simp only [List.mem_cons, List.not_mem_nil, or_false] at hb
    rcases hb with rfl | rfl <;>
    · rw [UInt8.toNat_ofNat'] at h
      omega
  split at hb
  · simp only [List.mem_cons, List.not_mem_nil, or_false] at hb
    rcases hb with rfl | rfl | rfl <;>
    · rw [UInt8.toNat_ofNat'] at h
      omega
  · simp only [List.mem_cons, List.not_mem_nil, or_false] at hb
    rcases hb with rfl | rfl | rfl | rfl <;>
    · rw [UInt8.toNat_ofNat'] at h
      omega

theorem notMem_utf8EncodeChar_feed {c : Char} (h : c ≠ '\n') : 10 ∉ String.utf8EncodeChar c :=
  fun hmem => h (eq_ofNat_of_mem_utf8EncodeChar hmem (by decide))

theorem notMem_utf8EncodeChar_return {c : Char} (h : c ≠ '\r') : 13 ∉ String.utf8EncodeChar c :=
  fun hmem => h (eq_ofNat_of_mem_utf8EncodeChar hmem (by decide))

theorem encode_cons (c : Char) (cs : List Char) :
    encode (c :: cs) = String.utf8EncodeChar c ++ encode cs := List.flatMap_cons

theorem utf8EncodeChar_ne_nil (c : Char) : String.utf8EncodeChar c ≠ [] := by
  have hlength := String.length_utf8EncodeChar c
  have hpos := c.utf8Size_pos
  intro hnil
  rw [hnil, List.length_nil] at hlength
  omega

/-- The octets of a text begin with a line feed if the text does. -/
theorem head?_encode_eq_feed_iff {cs : List Char} :
    (encode cs).head? = some 10 ↔ cs.head? = some '\n' := by
  cases cs with
  | nil => exact iff_of_false (nofun) (nofun)
  | cons c cs =>
      rw [encode_cons, List.head?_append_of_ne_nil _ (utf8EncodeChar_ne_nil c), List.head?_cons,
        Option.some.injEq]
      constructor
      · intro hhead
        exact eq_ofNat_of_mem_utf8EncodeChar (List.mem_of_head? hhead) (by decide)
      · rintro rfl
        rfl

theorem dropReturns_encode (cs : List Char) :
    dropReturns 13 10 (encode cs) = encode (dropReturns '\r' '\n' cs) := by
  induction cs with
  | nil => rfl
  | cons c cs ih =>
      rw [dropReturns_cons]
      by_cases hc : c = '\r'
      · subst hc
        show dropReturns 13 10 (13 :: encode cs) = _
        rw [dropReturns_cons, ih]
        by_cases hfeed : cs.head? = some '\n'
        · rw [if_pos ⟨rfl, head?_encode_eq_feed_iff.mpr hfeed⟩, if_pos ⟨rfl, hfeed⟩]
        · rw [if_neg fun h => hfeed (head?_encode_eq_feed_iff.mp h.2), if_neg fun h => hfeed h.2]
          rfl
      · rw [if_neg fun h => hc h.1, encode_cons,
          dropReturns_append_of_notMem (notMem_utf8EncodeChar_return hc), ih, ← encode_cons]

theorem splitLines_encode (cs : List Char) :
    splitLines 10 (encode cs) = (splitLines '\n' cs).map encode := by
  induction cs with
  | nil => rfl
  | cons c cs ih =>
      rw [splitLines]
      by_cases hc : c = '\n'
      · subst hc
        show splitLines 10 (10 :: encode cs) = _
        rw [splitLines, if_pos rfl, if_pos rfl, ih]
        rfl
      · rw [if_neg hc, encode_cons, splitLines_append_of_notMem (notMem_utf8EncodeChar_feed hc)
          (utf8EncodeChar_ne_nil c), ih]
        cases splitLines '\n' cs with
        | nil => simp [encode]
        | cons l ls => rw [List.map_cons, List.map_cons, encode_cons]

end Utf8

/-- **The lines of octets are the octets of the lines.** -/
theorem byteLines_encode (cs : List Char) :
    byteLines (Utf8.encode cs) = (lines cs).map Utf8.encode := by
  rw [byteLines, Utf8.dropReturns_encode, Utf8.splitLines_encode, lines]

/-! ## Texts -/

section Texts

variable {α : Type} [DecidableEq α] {ret feed : α}

/-- Lines with what stands between them are the text, but for the end of the last one. -/
theorem exists_intercalate_splitLines (feed : α) (cs : List α) : ∃ last,
    (last = [] ∨ last = [feed]) ∧ cs = [feed].intercalate (splitLines feed cs) ++ last := by
  induction cs with
  | nil => exact ⟨[], Or.inl rfl, rfl⟩
  | cons c cs ih =>
      obtain ⟨last, hlast, hcs⟩ := ih
      rw [splitLines]
      cases hlines : splitLines feed cs with
      | nil =>
          obtain rfl := splitLines_eq_nil_iff.mp hlines
          by_cases hc : c = feed
          · exact ⟨[feed], Or.inr rfl, by simp [hc]⟩
          · exact ⟨[], Or.inl rfl, by simp [hc]⟩
      | cons l ls =>
          rw [hlines] at hcs
          refine ⟨last, hlast, ?_⟩
          by_cases hc : c = feed
          · rw [if_pos hc, List.intercalate_cons_cons, List.nil_append, List.append_assoc, ← hcs,
              hc]
            rfl
          · rw [if_neg hc]
            cases ls with
            | nil =>
                rw [List.intercalate_singleton] at hcs ⊢
                rw [hcs, List.cons_append]
            | cons k ks =>
                rw [List.intercalate_cons_cons] at hcs ⊢
                rw [hcs]
                simp only [List.cons_append]

/-- What stands in front without line feeds stood there before anything was dropped. -/
theorem exists_of_dropReturns_eq_append (hne : ret ≠ feed) {bs front rest : List α}
    (hfront : feed ∉ front) (h : dropReturns ret feed bs = front ++ rest) :
    ∃ bs', bs = front ++ bs' ∧ dropReturns ret feed bs' = rest := by
  induction front generalizing bs with
  | nil => exact ⟨bs, rfl, h⟩
  | cons c front ih =>
      rw [List.mem_cons, not_or] at hfront
      cases bs with
      | nil => cases h
      | cons b bs =>
          rw [dropReturns_cons, List.cons_append] at h
          by_cases hb : b = ret ∧ bs.head? = some feed
          · -- a line feed follows what is dropped, and would stand in front
            obtain ⟨bs, rfl⟩ := List.head?_eq_some_iff.mp hb.2
            rw [if_pos hb, dropReturns_feed_cons hne] at h
            exact absurd (List.cons.inj h).1 hfront.1
          · rw [if_neg hb] at h
            obtain ⟨rfl, hmore⟩ := List.cons.inj h
            obtain ⟨bs', rfl, hrest⟩ := ih hfront.2 hmore
            exact ⟨bs', rfl, hrest⟩

/-- A line feed in front stood there, or stood there behind a carriage return. -/
theorem exists_of_dropReturns_eq_cons (hne : ret ≠ feed) {bs rest : List α}
    (h : dropReturns ret feed bs = feed :: rest) :
    ∃ bs', (bs = feed :: bs' ∨ bs = ret :: feed :: bs') ∧ dropReturns ret feed bs' = rest := by
  cases bs with
  | nil => cases h
  | cons b bs =>
      rw [dropReturns_cons] at h
      by_cases hb : b = ret ∧ bs.head? = some feed
      · obtain ⟨bs, rfl⟩ := List.head?_eq_some_iff.mp hb.2
        rw [if_pos hb, dropReturns_feed_cons hne] at h
        exact ⟨bs, Or.inr (by rw [hb.1]), (List.cons.inj h).2⟩
      · rw [if_neg hb] at h
        obtain ⟨rfl, hrest⟩ := List.cons.inj h
        exact ⟨bs, Or.inl rfl, hrest⟩

end Texts

namespace Utf8

/-- Octets are those of a text if they are without the carriage returns in front of line feeds. -/
theorem exists_eq_encode_of_dropReturns {bs : List UInt8} {cs : List Char}
    (h : dropReturns 13 10 bs = encode cs) : ∃ cs', bs = encode cs' := by
  induction cs generalizing bs with
  | nil =>
      cases bs with
      | nil => exact ⟨[], rfl⟩
      | cons b bs =>
          have hlast : (dropReturns 13 10 (b :: bs)).getLast? = (b :: bs).getLast? :=
            getLast?_dropReturns (b :: bs)
          rw [h, List.getLast?_cons] at hlast
          cases hlast
  | cons c cs ih =>
      rw [encode_cons] at h
      -- carriage returns are dropped in front of line feeds only
      by_cases hc : c = '\n'
      · subst hc
        obtain ⟨bs', hbs, hrest⟩ := exists_of_dropReturns_eq_cons (by decide) h
        obtain ⟨cs', rfl⟩ := ih hrest
        rcases hbs with rfl | rfl
        · exact ⟨'\n' :: cs', rfl⟩
        · exact ⟨'\r' :: '\n' :: cs', rfl⟩
      · obtain ⟨bs', rfl, hrest⟩ :=
          exists_of_dropReturns_eq_append (by decide) (notMem_utf8EncodeChar_feed hc) h
        obtain ⟨cs', rfl⟩ := ih hrest
        exact ⟨c :: cs', (encode_cons c cs').symm⟩

/-- Texts with line feeds between them are a text. -/
theorem exists_eq_encode_intercalate {ls : List (List UInt8)}
    (h : ∀ l ∈ ls, ∃ cs, l = encode cs) : ∃ cs, [10].intercalate ls = encode cs := by
  induction ls with
  | nil => exact ⟨[], rfl⟩
  | cons l ls ih =>
      obtain ⟨cs, hcs⟩ := h l List.mem_cons_self
      obtain ⟨ds, hds⟩ := ih fun k hk => h k (List.mem_cons_of_mem l hk)
      cases ls with
      | nil => exact ⟨cs, by rw [List.intercalate_singleton, hcs]⟩
      | cons k ks =>
          refine ⟨cs ++ '\n' :: ds, ?_⟩
          rw [List.intercalate_cons_cons, hds, hcs, encode_append, encode_cons, List.append_assoc]
          rfl

end Utf8

/-- **Octets whose lines are texts are a text.** -/
theorem exists_eq_encode {bs : List UInt8} (h : ∀ l ∈ byteLines bs, ∃ cs, l = Utf8.encode cs) :
    ∃ cs, bs = Utf8.encode cs := by
  obtain ⟨last, hlast, hbs⟩ := exists_intercalate_splitLines 10 (dropReturns 13 10 bs)
  obtain ⟨cs, hcs⟩ := Utf8.exists_eq_encode_intercalate h
  rw [← byteLines, hcs] at hbs
  rcases hlast with rfl | rfl
  · rw [List.append_nil] at hbs
    exact Utf8.exists_eq_encode_of_dropReturns hbs
  · have hfeed : Utf8.encode cs ++ [10] = Utf8.encode (cs ++ ['\n']) :=
      (Utf8.encode_append cs ['\n']).symm
    rw [hfeed] at hbs
    exact Utf8.exists_eq_encode_of_dropReturns hbs

/-! ## Texts in a row -/

/-- Behind an ended text the lines of another one follow its own. -/
theorem lines_append_of_ended {cs : List Char} (h : ∀ c ∈ cs.getLast?, c = '\n')
    (ds : List Char) : lines (cs ++ ds) = lines cs ++ lines ds := by
  have hended : ∀ c ∈ (dropReturns '\r' '\n' cs).getLast?, c = '\n' := by
    rw [getLast?_dropReturns]
    exact h
  rw [lines, dropReturns_append_of_ended (by decide) h, splitLines_append_of_ended hended]
  rfl

/-! ## Characters of lines -/

section Members

variable {α : Type} [DecidableEq α] {ret feed : α}

theorem mem_of_mem_dropReturns {cs : List α} {c : α} (h : c ∈ dropReturns ret feed cs) :
    c ∈ cs := by
  induction cs with
  | nil => exact h
  | cons d cs ih =>
      rw [dropReturns_cons] at h
      split at h
      · exact List.mem_cons_of_mem d (ih h)
      · rcases List.mem_cons.mp h with rfl | h
        · exact List.mem_cons_self
        · exact List.mem_cons_of_mem d (ih h)

/-- A line is made of what the text holds, line feeds apart. -/
theorem mem_and_ne_of_mem_splitLines {cs l : List α} (hl : l ∈ splitLines feed cs) {c : α}
    (hc : c ∈ l) : c ∈ cs ∧ c ≠ feed := by
  induction cs generalizing l with
  | nil => cases hl
  | cons d cs ih =>
      rw [splitLines] at hl
      by_cases hd : d = feed
      · rw [if_pos hd] at hl
        rcases List.mem_cons.mp hl with rfl | hl
        · cases hc
        · exact (ih hl hc).imp_left (List.mem_cons_of_mem d)
      · rw [if_neg hd] at hl
        cases hlines : splitLines feed cs with
        | nil =>
            rw [hlines] at hl
            rw [List.mem_singleton.mp hl] at hc
            obtain rfl := List.mem_singleton.mp hc
            exact ⟨List.mem_cons_self, hd⟩
        | cons k ks =>
            rw [hlines] at hl ih
            rcases List.mem_cons.mp hl with rfl | hl
            · rcases List.mem_cons.mp hc with rfl | hc
              · exact ⟨List.mem_cons_self, hd⟩
              · exact (ih List.mem_cons_self hc).imp_left (List.mem_cons_of_mem d)
            · exact (ih (List.mem_cons_of_mem k hl) hc).imp_left (List.mem_cons_of_mem d)

end Members

/-- The lines of a blank text are blank. -/
theorem isBlankText_of_mem_lines {cs l : List Char} (h : isBlankText cs = true)
    (hl : l ∈ lines cs) : isBlankText l = true := by
  rw [isBlankText, List.all_eq_true] at h ⊢
  exact fun c hc => h c (mem_of_mem_dropReturns (mem_and_ne_of_mem_splitLines hl hc).1)

/-! ## Carriage returns in front of line feeds -/

/-- A line without the carriage return at its end. -/
def unreturned (l : List Char) : List Char :=
  if l.getLast? = some '\r' then l.dropLast else l

theorem unreturned_cons_cons (c d : Char) (l : List Char) :
    unreturned (c :: d :: l) = c :: unreturned (d :: l) := by
  rw [unreturned, unreturned, List.getLast?_cons_cons]
  split <;> rfl

/-- What stands in front of a line stays, if the line is not empty. -/
theorem unreturned_append (front : List Char) {l : List Char} (hne : l ≠ []) :
    unreturned (front ++ l) = front ++ unreturned l := by
  induction front with
  | nil => rfl
  | cons c front ih =>
      cases hrest : front ++ l with
      | nil => exact absurd (List.append_eq_nil_iff.mp hrest).2 hne
      | cons d ds =>
          rw [List.cons_append, hrest, unreturned_cons_cons, ← hrest, ih, List.cons_append]

theorem mem_of_mem_unreturned {l : List Char} {c : Char} (h : c ∈ unreturned l) : c ∈ l := by
  rw [unreturned] at h
  split at h
  · exact List.dropLast_subset l h
  · exact h

theorem dropReturns_append_feed {l : List Char} (h : '\n' ∉ l) (cs : List Char) :
    dropReturns '\r' '\n' (l ++ '\n' :: cs) =
      unreturned l ++ '\n' :: dropReturns '\r' '\n' cs := by
  induction l with
  | nil => exact dropReturns_feed_cons (by decide) cs
  | cons c l ih =>
      rw [List.mem_cons, not_or] at h
      have hrest := ih h.2
      cases l with
      | nil =>
          rw [List.nil_append] at hrest
          rw [List.cons_append, dropReturns_cons, List.nil_append, hrest]
          by_cases hc : c = '\r'
          · subst hc
            rfl
          · have hkept : unreturned [c] = [c] := if_neg fun hlast => hc (Option.some.inj hlast)
            rw [if_neg fun hif => hc hif.1, hkept]
            rfl
      | cons d l =>
          rw [List.mem_cons, not_or] at h
          rw [List.cons_append, dropReturns_cons, if_neg, hrest, unreturned_cons_cons]
          · rfl
          · rintro ⟨-, hd⟩
            exact h.2.1 (Option.some.inj hd).symm

/-- Lines that are ended read back, but for the carriage returns at their ends. -/
theorem lines_flatMap_feed {ls : List (List Char)} (h : ∀ l ∈ ls, '\n' ∉ l) :
    lines (ls.flatMap fun l => l ++ ['\n']) = ls.map unreturned := by
  induction ls with
  | nil => rfl
  | cons l ls ih =>
      have hl := h l List.mem_cons_self
      have hls := ih fun k hk => h k (List.mem_cons_of_mem l hk)
      have hkept : '\n' ∉ unreturned l := fun hmem => hl (mem_of_mem_unreturned hmem)
      rw [List.flatMap_cons, List.append_assoc, List.singleton_append, lines,
        dropReturns_append_feed hl, splitLines_append hkept, ← lines, hls, List.map_cons]

end IndexAdvisor.Text
