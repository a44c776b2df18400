import IndexAdvisor.Proofs.Sql.Scanner

/-!
# What the readers read

Each reader of a piece of a statement as an equation between texts: it reads a piece and leaves a
rest exactly if the text is the piece in front of the rest, and the rest cannot make the piece
longer.
-/

set_option autoImplicit false

namespace IndexAdvisor.Sql

open IndexAdvisor.Text

section Readers

variable {fold : Char → Char} {cs rest w : List Char}

/-- Letters are read where they stand after `fold`. -/
theorem letters_iff :
    letters fold w cs = some rest ↔ ∃ read, read.map fold = w ∧ cs = read ++ rest := by
  induction w generalizing cs with
  | nil =>
      rw [letters, Option.some.injEq]
      constructor
      · rintro rfl
        exact ⟨[], rfl, rfl⟩
      · rintro ⟨read, hread, rfl⟩
        rw [List.map_eq_nil_iff.mp hread]
        rfl
  | cons a w ih =>
      cases cs with
      | nil =>
          refine iff_of_false (fun h => by cases h) ?_
          rintro ⟨read, hread, htext⟩
          rw [(List.append_eq_nil_iff.mp htext.symm).1] at hread
          cases hread
      | cons c cs =>
          have hcons : (∃ read, read.map fold = a :: w ∧ c :: cs = read ++ rest) ↔
              fold c = a ∧ ∃ read, read.map fold = w ∧ cs = read ++ rest := by
            constructor
            · rintro ⟨read, hread, htext⟩
              obtain ⟨d, read, rfl, hd, hread⟩ := List.map_eq_cons_iff.mp hread
              rw [List.cons_append, List.cons.injEq] at htext
              exact ⟨htext.1 ▸ hd, read, hread, htext.2⟩
            · rintro ⟨rfl, read, rfl, rfl⟩
              exact ⟨c :: read, rfl, rfl⟩
          rw [hcons, letters, ← ih]
          by_cases hc : fold c = a
          · rw [if_pos hc, and_iff_right hc]
          · rw [if_neg hc]
            exact iff_of_false (fun h => by cases h) fun h => hc h.1

/-- No name goes on at the front of the text. -/
def EndsName (fold : Char → Char) (cs : List Char) : Prop :=
  ∀ c ∈ cs.head?, isNameChar (fold c) = false

instance (fold : Char → Char) (cs : List Char) : Decidable (EndsName fold cs) :=
  inferInstanceAs (Decidable (∀ c ∈ cs.head?, _))

/-- Where no character of the class goes on, the characters of the class are the front. -/
theorem span_append {p : Char → Bool} {front : List Char} (hfront : ∀ c ∈ front, p c = true)
    (hrest : ∀ c ∈ rest.head?, p c = false) :
    (front ++ rest).takeWhile p = front ∧ (front ++ rest).dropWhile p = rest := by
  rw [List.takeWhile_append_of_pos hfront, List.dropWhile_append_of_pos hfront]
  cases rest with
  | nil => exact ⟨List.append_nil front, rfl⟩
  | cons c cs =>
      have hc : ¬p c = true := by
        rw [hrest c rfl]
        exact Bool.false_ne_true
      rw [List.takeWhile_cons_of_neg hc, List.dropWhile_cons_of_neg hc]
      exact ⟨List.append_nil front, rfl⟩

theorem dropWhile_head {p : Char → Bool} (cs : List Char) :
    ∀ c ∈ (cs.dropWhile p).head?, p c = false := by
  intro c hc
  have hnot := List.head?_dropWhile_not p cs
  rw [Option.mem_def.mp hc] at hnot
  exact hnot

/-- A name is read as far as it goes. -/
theorem name_eq_some_iff {n : List Char} : name fold cs = some (n, rest) ↔
    cs = n ++ rest ∧ n ≠ [] ∧ (∀ c ∈ n, isNameChar (fold c) = true) ∧ EndsName fold rest := by
  constructor
  · intro h
    rw [name] at h
    split at h
    · cases h
    · rename_i hne
      obtain ⟨rfl, rfl⟩ := Prod.mk.inj (Option.some.inj h)
      exact ⟨List.takeWhile_append_dropWhile.symm, hne,
        List.all_eq_true.mp List.all_takeWhile, dropWhile_head cs⟩
  · rintro ⟨rfl, hne, hn, hrest⟩
    obtain ⟨htake, hdrop⟩ := span_append (p := fun c => isNameChar (fold c)) hn hrest
    rw [name, htake, hdrop]
    split
    · exact absurd rfl hne
    · rfl

/-- A plain word is read as a name. -/
theorem name_word_append (w : Word) (hrest : EndsName foldCase rest) :
    name foldCase (w.chars ++ rest) = some (w.chars, rest) := by
  refine name_eq_some_iff.mpr ⟨rfl, w.ne_nil, fun c hc => ?_, hrest⟩
  rw [foldCase_of_isNameChar (w.isNameChar_of_mem c hc)]
  exact w.isNameChar_of_mem c hc

theorem not_blankAhead_word (w : Word) (cs : List Char) : blankAhead (w.chars ++ cs) = false := by
  obtain ⟨c, ds, hw⟩ := List.exists_cons_of_ne_nil w.ne_nil
  rw [hw]
  exact isBlank_of_isNameChar (w.isNameChar_of_mem c (hw ▸ List.mem_cons_self))

theorem map_foldCase_word (w : Word) : w.chars.map foldCase = w.chars :=
  (List.map_congr_left fun c hc => foldCase_of_isNameChar (w.isNameChar_of_mem c hc)).trans
    (List.map_id' _)

/-- No name goes on at a gap. -/
theorem IsGap.endsName {g : List Char} (hg : IsGap g) (cs : List Char) :
    EndsName foldCase (g ++ cs) := by
  obtain ⟨c, g, rfl⟩ := List.exists_cons_of_ne_nil hg.1
  intro d hd
  obtain rfl : c = d := Option.some.inj hd
  exact forall_isBlank (P := fun c => isNameChar (foldCase c) = false) (by decide +kernel)
    (hg.2 c List.mem_cons_self)

end Readers

end IndexAdvisor.Sql
