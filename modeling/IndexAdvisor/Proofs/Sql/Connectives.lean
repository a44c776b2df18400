import IndexAdvisor.Proofs.Sql.Reading

/-!
# Conditions between connectives

A text is put together from conditions with connectives between them. No condition holds `and` or
`or` as a word of its own, so none is cut; and a connective takes the gaps around it, which leaves
the conditions beside it as they are. So each condition is read as it is read alone.
-/

set_option autoImplicit false

namespace IndexAdvisor.Sql

open IndexAdvisor.Text

/-! ## Connectives in any letter case -/

/-- `and` or `or` in any letter case. -/
def IsConnective (w : List Char) : Prop :=
  w.map Char.toLower = "and".toList ∨ w.map Char.toLower = "or".toList

instance (w : List Char) : Decidable (IsConnective w) := inferInstanceAs (Decidable (_ ∨ _))

section Words

variable {cs rest w : List Char}

/-- The letters of the connectives have no other case than the ASCII one. -/
theorem foldCase_eq_iff {a : Char} (ha : a ∈ "andor".toList) (c : Char) :
    foldCase c = a ↔ c.toLower = a := by
  have hplain : ∀ a ∈ "andor".toList, a ≠ 's' ∧ a ≠ 'k' ∧ a.toNat < 128 := by decide
  obtain ⟨hs, hk, hascii⟩ := hplain a ha
  have hnot (hc : 128 ≤ c.toNat) : c.toLower ≠ a := by
    rw [toLower_of_not_ascii hc]
    rintro rfl
    omega
  rw [foldCase]
  split
  · exact iff_of_false (Ne.symm hs) (hnot (by omega))
  · split
    · exact iff_of_false (Ne.symm hk) (hnot (by omega))
    · rfl

theorem map_foldCase_eq_iff {k : List Char} (hk : ∀ a ∈ k, a ∈ "andor".toList) :
    w.map foldCase = k ↔ w.map Char.toLower = k := by
  induction w generalizing k with
  | nil => rfl
  | cons c w ih =>
      cases k with
      | nil => exact iff_of_false nofun nofun
      | cons a k =>
          rw [List.map_cons, List.map_cons, List.cons.injEq, List.cons.injEq,
            foldCase_eq_iff (hk a List.mem_cons_self),
            ih fun b hb => hk b (List.mem_cons_of_mem a hb)]

theorem IsConnective.ne_nil (h : IsConnective w) : w ≠ [] := by
  rintro rfl
  rcases h with h | h <;> cases h

theorem IsConnective.not_blank (h : IsConnective w) : ∀ c ∈ w, isBlank c = false := by
  have hletters : ∀ c ∈ w, c.toLower ∈ "andor".toList := fun c hc => by
    have hmem := List.mem_map_of_mem (f := Char.toLower) hc
    rcases h with h | h
    · exact (by decide : ∀ a ∈ "and".toList, a ∈ "andor".toList) _ (h ▸ hmem)
    · exact (by decide : ∀ a ∈ "or".toList, a ∈ "andor".toList) _ (h ▸ hmem)
  have hplain : ∀ a ∈ "andor".toList, isBlank a = false := by decide
  intro c hc
  rw [← (isBlank_toLower c).1]
  exact hplain _ (hletters c hc)

/-- One of the two words is read where it stands in some case. -/
theorem anyCase_connective_iff :
    (anyCase "and" cs <|> anyCase "or" cs) = some rest ↔ ∃ w, IsConnective w ∧ cs = w ++ rest := by
  have hread (k : String) (hk : ∀ a ∈ k.toList, a ∈ "andor".toList) {rest : List Char} :
      anyCase k cs = some rest ↔ ∃ w, w.map Char.toLower = k.toList ∧ cs = w ++ rest := by
    rw [anyCase, letters_iff]
    exact exists_congr fun w => and_congr_left' (map_foldCase_eq_iff hk)
  rw [Option.orElse_eq_some, Option.eq_none_iff_forall_ne_some]
  simp only [ne_eq, hread "and" (by decide), hread "or" (by decide)]
  constructor
  · rintro (⟨w, hw, htext⟩ | ⟨-, w, hw, htext⟩)
    · exact ⟨w, Or.inl hw, htext⟩
    · exact ⟨w, Or.inr hw, htext⟩
  · rintro ⟨w, hw | hw, rfl⟩
    · exact Or.inl ⟨w, hw, rfl⟩
    · refine Or.inr ⟨?_, w, hw, rfl⟩
      -- the two words differ in their first letter
      rintro rest' ⟨v, hv, htext⟩
      obtain ⟨c, w, rfl⟩ := List.exists_cons_of_ne_nil (IsConnective.ne_nil (Or.inr hw))
      obtain ⟨d, v, rfl⟩ := List.exists_cons_of_ne_nil (IsConnective.ne_nil (Or.inl hv))
      have hcd : c = d := (List.cons.inj htext).1
      have hor : c.toLower = 'o' := (List.cons.inj hw).1
      have hand : d.toLower = 'a' := (List.cons.inj hv).1
      rw [hcd, hand] at hor
      exact absurd hor (by decide)

/-- **A connective** is a word for one between two gaps. -/
theorem connective_eq_some_iff : connective cs = some rest ↔
    ∃ g w g', IsGap g ∧ IsConnective w ∧ IsGap g' ∧ cs = g ++ (w ++ (g' ++ rest)) ∧
      blankAhead rest = false := by
  rw [connective_eq, Option.bind_eq_some_iff]
  simp only [Option.bind_eq_some_iff, anyCase_connective_iff, blanks_eq_some_iff]
  constructor
  · rintro ⟨_, ⟨g, hg, rfl, -⟩, _, ⟨w, hw, rfl⟩, g', hg', rfl, hrest⟩
    exact ⟨g, w, g', hg, hw, hg', rfl, hrest⟩
  · rintro ⟨g, w, g', hg, hw, hg', rfl, hrest⟩
    obtain ⟨c, v, rfl⟩ := List.exists_cons_of_ne_nil hw.ne_nil
    exact ⟨_, ⟨g, hg, rfl, hw.not_blank c List.mem_cons_self⟩, _, ⟨c :: v, hw, rfl⟩, g', hg', rfl,
      hrest⟩

/-! ## Words of a text -/

theorem words_gap {g : List Char} (hg : ∀ c ∈ g, isBlank c = true) (cs : List Char) :
    words (g ++ cs) = words cs := by
  induction g with
  | nil => rfl
  | cons c g ih =>
      rw [List.cons_append, words_blank (hg c List.mem_cons_self),
        ih fun d hd => hg d (List.mem_cons_of_mem c hd)]

/-- The front of a text up to its first blank. -/
theorem front_word (cs : List Char) : (∀ c ∈ cs.takeWhile fun c => !isBlank c, isBlank c = false) ∧
    EndsWord (cs.dropWhile fun c => !isBlank c) := by
  constructor
  · intro c hc
    have hfront := List.all_eq_true.mp (List.all_takeWhile (p := fun c => !isBlank c)) c hc
    simpa using hfront
  · intro c hc
    simpa using dropWhile_head (p := fun c => !isBlank c) cs c hc

/-- What stands behind the first word is made of words of the text. -/
theorem words_dropWhile_subset (cs : List Char) :
    words (cs.dropWhile fun c => !isBlank c) ⊆ words cs := by
  obtain ⟨hfront, hends⟩ := front_word cs
  cases htake : cs.takeWhile fun c => !isBlank c with
  | nil =>
      have hall : cs.dropWhile (fun c => !isBlank c) = cs := by
        conv_rhs => rw [← List.takeWhile_append_dropWhile (p := fun c => !isBlank c) (l := cs)]
        rw [htake, List.nil_append]
      rw [hall]
      exact List.Subset.refl _
  | cons c w =>
      rw [htake] at hfront
      have hsplit : words cs = (c :: w) :: words (cs.dropWhile fun c => !isBlank c) := by
        conv_lhs => rw [← List.takeWhile_append_dropWhile (p := fun c => !isBlank c) (l := cs)]
        rw [htake, words_append (List.cons_ne_nil c w) hfront hends]
      rw [hsplit]
      exact List.subset_cons_self _ _

end Words

/-! ## Cutting between conditions -/

section Cutting

variable {cs tail : List Char}

/-- No connective is read within a text that does not end in a blank and whose words are none. -/
theorem connective_within (hlast : ∀ c ∈ cs.getLast?, isBlank c = false) (hne : cs ≠ [])
    (hwords : ∀ w ∈ words cs, ¬IsConnective w) (htail : EndsWord tail) :
    connective (cs ++ tail) = none := by
  rw [Option.eq_none_iff_forall_ne_some]
  intro rest hrest
  obtain ⟨g, w, g', hg, hw, hg', htext, -⟩ := connective_eq_some_iff.mp hrest
  -- the gap ends within the text, because the text does not end in a blank
  obtain ⟨x, rfl, hx⟩ : ∃ x, cs = g ++ x ∧ x ++ tail = w ++ (g' ++ rest) := by
    rcases List.append_eq_append_iff.mp htext with ⟨z, hgz, hz⟩ | ⟨x, hcs, hx⟩
    · obtain ⟨c, hc⟩ := Option.isSome_iff_exists.mp (List.getLast?_isSome.mpr hne)
      have hmem : c ∈ g := hgz ▸ List.mem_append_left z (List.mem_of_getLast? hc)
      have hblank := hg.2 c hmem
      rw [hlast c hc] at hblank
      cases hblank
    · exact ⟨x, hcs, hx.symm⟩
  have hspan (v z : List Char) (hv : ∀ c ∈ v, isBlank c = false) (hz : EndsWord z) :
      (v ++ z).takeWhile (fun c => !isBlank c) = v :=
    (span_append (p := fun c => !isBlank c) (fun c hc => by rw [hv c hc]; rfl)
      (fun c hc => by rw [hz c hc]; rfl)).1
  have hgap : EndsWord (g' ++ rest) := by
    obtain ⟨c, g', rfl⟩ := List.exists_cons_of_ne_nil hg'.1
    intro d hd
    obtain rfl : c = d := Option.some.inj hd
    exact hg'.2 c List.mem_cons_self
  -- so the word that is read is the first one of what is left
  obtain ⟨v, y, rfl, hv, hy⟩ : ∃ v y, x = v ++ y ∧ (∀ c ∈ v, isBlank c = false) ∧ EndsWord y :=
    ⟨_, _, List.takeWhile_append_dropWhile.symm, front_word x⟩
  have hytail : EndsWord (y ++ tail) := by
    cases y with
    | nil => exact htail
    | cons c y => exact hy
  have hvw : v = w := by
    rw [← hspan v (y ++ tail) hv hytail, ← List.append_assoc, hx, hspan w _ hw.not_blank hgap]
  subst hvw
  refine hwords v ?_ hw
  rw [words_gap hg.2, words_append hw.ne_nil hv hy]
  exact List.mem_cons_self

/-- A text without connectives belongs to one condition. -/
theorem conditionsFrom_within (hlast : ∀ c ∈ cs.getLast?, isBlank c = false)
    (hwords : ∀ w ∈ words (cs.dropWhile fun c => !isBlank c), ¬IsConnective w)
    (htail : EndsWord tail) : conditionsFrom 0 (cs ++ tail) =
      (cs ++ (conditionsFrom 0 tail).1, (conditionsFrom 0 tail).2) := by
  -- letter by letter: only the words behind the one at hand are known to be whole
  induction cs with
  | nil => rfl
  | cons c cs ih =>
      have hlast' : ∀ d ∈ cs.getLast?, isBlank d = false := fun d hd => by
        cases cs with
        | nil => cases hd
        | cons e es => exact hlast d (by rwa [List.getLast?_cons_cons])
      have hnone : connective (c :: (cs ++ tail)) = none := by
        cases hc : isBlank c with
        | false => exact connective_of_not_blank hc _
        | true =>
            rw [List.dropWhile_cons_of_neg (by rw [hc]; decide)] at hwords
            exact connective_within hlast (List.cons_ne_nil c cs) hwords htail
      have hwords' : ∀ w ∈ words (cs.dropWhile fun c => !isBlank c), ¬IsConnective w := by
        cases hc : isBlank c with
        | false => rwa [List.dropWhile_cons_of_pos (by rw [hc]; decide)] at hwords
        | true =>
            rw [List.dropWhile_cons_of_neg (by rw [hc]; decide), words_blank hc] at hwords
            exact fun w hw => hwords w (words_dropWhile_subset cs hw)
      rw [List.cons_append, conditionsFrom_cons hnone, ih hlast' hwords']
      rfl

end Cutting

/-! ## Joined conditions -/

/-- A condition as it stands between connectives: it neither begins nor ends with a blank, and none
of its words is a connective. -/
structure Operand where
  chars : List Char
  ne_nil : chars ≠ []
  head : ∀ c ∈ chars.head?, isBlank c = false
  last : ∀ c ∈ chars.getLast?, isBlank c = false
  words : ∀ w ∈ words chars, ¬IsConnective w

/-- A connective with the gaps around it. -/
structure Link where
  before : List Char
  word : List Char
  behind : List Char
  isGap_before : IsGap before
  isConnective : IsConnective word
  isGap_behind : IsGap behind

/-- The text of a connective. -/
def Link.chars (k : Link) : List Char := k.before ++ (k.word ++ k.behind)

/-- The text of conditions behind connectives. -/
def linked (as : List (Link × Operand)) : List Char :=
  as.flatMap fun k => k.1.chars ++ k.2.chars

theorem endsWord_linked (as : List (Link × Operand)) : EndsWord (linked as) := by
  cases as with
  | nil => exact endsWord_nil
  | cons k as =>
      obtain ⟨c, g, hg⟩ := List.exists_cons_of_ne_nil k.1.isGap_before.1
      intro d hd
      rw [linked, List.flatMap_cons, Link.chars, hg] at hd
      obtain rfl : c = d := Option.some.inj hd
      exact k.1.isGap_before.2 c (hg ▸ List.mem_cons_self)

theorem conditionsFrom_operand (a : Operand) {tail : List Char} (htail : EndsWord tail) :
    conditionsFrom 0 (a.chars ++ tail) =
      (a.chars ++ (conditionsFrom 0 tail).1, (conditionsFrom 0 tail).2) :=
  conditionsFrom_within a.last (fun w hw => a.words w (words_dropWhile_subset _ hw)) htail

theorem conditionsFrom_link (k : Link) (a : Operand) (tail : List Char) :
    conditionsFrom 0 (k.chars ++ (a.chars ++ tail)) =
      ([], (conditionsFrom 0 (a.chars ++ tail)).1 :: (conditionsFrom 0 (a.chars ++ tail)).2) := by
  obtain ⟨d, ds, hd⟩ := List.exists_cons_of_ne_nil a.ne_nil
  have hahead : blankAhead (a.chars ++ tail) = false := by
    rw [hd]
    exact a.head d (by rw [hd]; rfl)
  have hread : connective (k.chars ++ (a.chars ++ tail)) = some (a.chars ++ tail) :=
    connective_eq_some_iff.mpr ⟨k.before, k.word, k.behind, k.isGap_before, k.isConnective,
      k.isGap_behind, by simp only [Link.chars, List.append_assoc], hahead⟩
  obtain ⟨c, g, hg⟩ := List.exists_cons_of_ne_nil k.isGap_before.1
  rw [Link.chars, hg, List.cons_append, List.cons_append] at hread ⊢
  exact conditionsFrom_of_connective hread

/-- The conditions behind connectives are cut off each at its connective. -/
theorem conditionsFrom_linked (as : List (Link × Operand)) :
    conditionsFrom 0 (linked as) = ([], as.map fun k => k.2.chars) := by
  induction as with
  | nil => rfl
  | cons k as ih =>
      have htext : linked (k :: as) = k.1.chars ++ (k.2.chars ++ linked as) := by
        rw [linked, List.flatMap_cons, List.append_assoc]
        rfl
      rw [htext, conditionsFrom_link, conditionsFrom_operand k.2 (endsWord_linked as), ih,
        List.append_nil]
      rfl

/-- **A text of conditions** is cut into just these. -/
theorem conditions_linked (a : Operand) (as : List (Link × Operand)) :
    conditions (a.chars ++ linked as) = a.chars :: as.map fun k => k.2.chars := by
  rw [conditions, conditionsFrom_operand a (endsWord_linked as), conditionsFrom_linked,
    List.append_nil]

/-- A condition alone gives one predicate or none. -/
theorem predicates_operand (a : Operand) : predicates a.chars = (predicate? a.chars).toList := by
  have halone := conditions_linked a []
  rw [linked, List.flatMap_nil, List.append_nil] at halone
  rw [predicates, halone]
  cases h : predicate? a.chars <;> simp [h]

/-- **Conditions are read independently.** For all conditions, none of which begins or ends with a
blank or holds `and` or `or` as a word, and all connectives in any letter case with any gaps around
them, the predicates of the whole text are those of the conditions, in order. -/
theorem predicates_linked (a : Operand) (as : List (Link × Operand)) :
    predicates (a.chars ++ linked as) =
      (a :: as.map Prod.snd).flatMap fun b => predicates b.chars := by
  have hread : (conditions (a.chars ++ linked as)).filterMap predicate? =
      (a :: as.map Prod.snd).filterMap fun b => predicate? b.chars := by
    rw [conditions_linked, List.filterMap_cons, List.filterMap_map, List.filterMap_cons,
      List.filterMap_map]
    rfl
  rw [predicates, hread, List.filterMap_eq_flatMap_toList]
  exact congrArg (List.flatMap · _) (funext fun b => (predicates_operand b).symm)

/-- A condition that is dropped leaves its neighbours as they are. -/
theorem predicates_linked_dropped :
    predicates "status = 1 AND (x) or\n brand in ('and', 2)".toList =
      [⟨none, "status", .eq⟩, ⟨none, "brand", .isIn⟩] := by
  let status : Operand := ⟨"status = 1".toList, by decide, by decide, by decide, by decide⟩
  let dropped : Operand := ⟨"(x)".toList, by decide, by decide, by decide, by decide⟩
  let brand : Operand := ⟨"brand in ('and', 2)".toList, by decide, by decide, by decide, by decide⟩
  let both : Link := ⟨[' '], "AND".toList, [' '], by decide, by decide, by decide⟩
  let either : Link := ⟨[' '], "or".toList, ['\n', ' '], by decide, by decide, by decide⟩
  have htext : status.chars ++ linked [(both, dropped), (either, brand)] =
      "status = 1 AND (x) or\n brand in ('and', 2)".toList := by decide
  have hread := predicates_linked status [(both, dropped), (either, brand)]
  rw [htext] at hread
  exact hread.trans (by decide)

end IndexAdvisor.Sql
