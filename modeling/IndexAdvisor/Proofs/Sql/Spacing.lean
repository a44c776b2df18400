import IndexAdvisor.Proofs.Text.Spacing
import Mathlib.Data.Option.Basic

/-!
# Readers and the spacing of a text

What is read of a text does not depend on how its pieces are spaced. A reader of the respaced text
gives the answer of the reader of the text, with the rest respaced; readers that go on one behind
the other or stand in for each other inherit this. The places at which a reader fits are the same
ones, since no reader here fits at a blank and what has been read is passed over as a whole.
-/

set_option autoImplicit false

namespace IndexAdvisor.Sql

open IndexAdvisor.Text

/-! ## Readers -/

section Carries

variable {α β γ δ : Type} {φ : α → α} {ψ : β → β} {χ : γ → γ}

/-- What `f` reads of the image of a text is the image of what it reads of the text. -/
def Carries (φ : α → α) (ψ : β → β) (f : α → Option β) : Prop := ∀ a, f (φ a) = (f a).map ψ

variable {f : α → Option β}

theorem Carries.bind {g : β → Option γ} (hf : Carries φ ψ f) (hg : Carries ψ χ g) :
    Carries φ χ fun a => (f a).bind g := by
  intro a
  show (f (φ a)).bind g = ((f a).bind g).map χ
  rw [hf]
  cases f a with
  | none => rfl
  | some b => exact hg b

theorem Carries.orElse {g : α → Option β} (hf : Carries φ ψ f) (hg : Carries φ ψ g) :
    Carries φ ψ fun a => f a <|> g a := by
  intro a
  show (f (φ a) <|> g (φ a)) = (f a <|> g a).map ψ
  rw [hf, hg]
  cases f a <;> rfl

theorem Carries.isSome (hf : Carries φ ψ f) (a : α) : (f (φ a)).isSome = (f a).isSome := by
  rw [hf, Option.isSome_map]

/-- The rest is respaced and the answer stays. -/
def respaced (r : β × List Char) : β × List Char := (r.1, collapse r.2)

/-- A reader that answers and leaves a rest. -/
abbrev Reads (f : List Char → Option (β × List Char)) : Prop := Carries collapse respaced f

/-- A reader that leaves a rest. -/
abbrev Passes (f : List Char → Option (List Char)) : Prop := Carries collapse collapse f

theorem Reads.bind {f : List Char → Option (β × List Char)} {g : β → List Char → Option γ}
    (hf : Reads f) (hg : ∀ b, Carries collapse χ (g b)) :
    Carries collapse χ fun cs => (f cs).bind fun r => g r.1 r.2 :=
  Carries.bind hf fun r => hg r.1 r.2

theorem Carries.pastBlanks {f : List Char → Option β} (hf : Carries collapse ψ f) :
    Carries collapse ψ fun cs => f (cs.dropWhile isBlank) := fun cs => by
  show f ((collapse cs).dropWhile isBlank) = _
  rw [dropWhile_collapse, hf]

theorem reads_answer (b : β) : Reads fun cs => some (b, cs) := fun _ => rfl

end Carries

section Leaves

variable {α β γ : Type}

/-- What `f` leaves is the end of what it is given. -/
def Leaves (ρ : α → List Char) (ρ' : β → List Char) (f : α → Option β) : Prop :=
  ∀ ⦃a b⦄, f a = some b → ρ' b <:+ ρ a

variable {ρ : α → List Char} {ρ' : β → List Char} {ρ'' : γ → List Char} {f : α → Option β}

theorem Leaves.bind {g : β → Option γ} (hf : Leaves ρ ρ' f) (hg : Leaves ρ' ρ'' g) :
    Leaves ρ ρ'' fun a => (f a).bind g := by
  intro a c h
  obtain ⟨b, hb, hc⟩ := Option.bind_eq_some_iff.mp h
  exact (hg hc).trans (hf hb)

theorem Leaves.orElse {g : α → Option β} (hf : Leaves ρ ρ' f) (hg : Leaves ρ ρ' g) :
    Leaves ρ ρ' fun a => f a <|> g a := by
  intro a b h
  rcases (Option.orElse_eq_some (f a) (g a) b).mp h with h | ⟨-, h⟩
  · exact hf h
  · exact hg h

/-- A reader that leaves the end of its text, behind an answer. -/
abbrev Ends (f : List Char → Option (β × List Char)) : Prop := Leaves id Prod.snd f

theorem Ends.bind {f : List Char → Option (β × List Char)} {g : β → List Char → Option γ}
    (hf : Ends f) (hg : ∀ b, Leaves id ρ'' (g b)) :
    Leaves id ρ'' fun cs => (f cs).bind fun r => g r.1 r.2 :=
  Leaves.bind hf fun r _ h => hg r.1 h

theorem Leaves.pastBlanks {f : List Char → Option β} (hf : Leaves id ρ' f) :
    Leaves id ρ' fun cs => f (cs.dropWhile isBlank) := fun _ _ h =>
  (hf h).trans (List.dropWhile_suffix isBlank)

theorem ends_answer (b : β) : Ends fun cs => some (b, cs) := by
  intro cs r h
  rw [← Option.some.inj h]
  exact List.suffix_rfl

/-- The first character is read, whatever is left. -/
def Advances (ρ' : β → List Char) (f : List Char → Option β) : Prop :=
  ∀ ⦃c cs b⦄, f (c :: cs) = some b → ρ' b <:+ cs

theorem Advances.bind {f : List Char → Option β} {g : β → Option γ} (hf : Advances ρ' f)
    (hg : Leaves ρ' ρ'' g) : Advances ρ'' fun cs => (f cs).bind g := by
  intro c cs b h
  obtain ⟨a, ha, hb⟩ := Option.bind_eq_some_iff.mp h
  exact (hg hb).trans (hf ha)

end Leaves

/-! ## Letters, names and blanks -/

section Pieces

variable {fold : Char → Char}

/-- A word without blanks. -/
def Unspaced (w : String) : Prop := ∀ c ∈ w.toList, isBlank c = false

instance (w : String) : Decidable (Unspaced w) :=
  inferInstanceAs (Decidable (∀ c ∈ w.toList, isBlank c = false))

/-- Blanks are compared as blanks. -/
def KeepsBlanks (fold : Char → Char) : Prop := ∀ c, isBlank c = true → isBlank (fold c) = true

theorem keepsBlanks_id : KeepsBlanks id := fun _ h => h

theorem keepsBlanks_foldCase : KeepsBlanks foldCase := fun _ hc =>
  forall_isBlank (P := fun c => isBlank (foldCase c) = true) (by decide +kernel) hc

/-- No letter is read at a blank. -/
theorem letters_blank (hfold : KeepsBlanks fold) {a c : Char} (ha : isBlank a = false)
    (hc : isBlank c = true) (w cs : List Char) : letters fold (a :: w) (c :: cs) = none := by
  rw [letters, if_neg]
  rintro rfl
  rw [hfold c hc] at ha
  cases ha

theorem passes_letters (hfold : KeepsBlanks fold) {w : List Char}
    (hw : ∀ c ∈ w, isBlank c = false) : Passes (letters fold w) := by
  induction w with
  | nil => exact fun cs => rfl
  | cons a w ih =>
      have ha := hw a List.mem_cons_self
      intro cs
      cases cs with
      | nil => rfl
      | cons c cs =>
          cases hc : isBlank c with
          | true =>
              rw [collapse_blank hc, letters_blank hfold ha hc, letters_blank hfold ha rfl]
              rfl
          | false =>
              rw [collapse_cons hc, letters, letters]
              split
              · exact ih (fun d hd => hw d (List.mem_cons_of_mem a hd)) cs
              · rfl

theorem leaves_letters (w : List Char) : Leaves id id (letters fold w) := by
  induction w with
  | nil =>
      intro cs rest h
      obtain rfl := Option.some.inj h
      exact List.suffix_rfl
  | cons a w ih =>
      intro cs rest h
      cases cs with
      | nil => cases h
      | cons c cs =>
          rw [letters] at h
          split at h
          · exact (ih h).trans (List.suffix_cons c cs)
          · cases h

theorem advances_letters (a : Char) (w : List Char) : Advances id (letters fold (a :: w)) := by
  intro c cs rest h
  rw [letters] at h
  split at h
  · exact leaves_letters w h
  · cases h

/-- What is read as a word holds no blank. -/
theorem exists_of_letters (hfold : KeepsBlanks fold) {w : List Char}
    (hw : ∀ c ∈ w, isBlank c = false) {cs rest : List Char} (h : letters fold w cs = some rest) :
    ∃ read, cs = read ++ rest ∧ ∀ c ∈ read, isBlank c = false := by
  induction w generalizing cs with
  | nil => exact ⟨[], Option.some.inj h, fun c hc => absurd hc List.not_mem_nil⟩
  | cons a w ih =>
      cases cs with
      | nil => cases h
      | cons c cs =>
          cases hc : isBlank c with
          | true =>
              rw [letters_blank hfold (hw a List.mem_cons_self) hc] at h
              cases h
          | false =>
              rw [letters] at h
              split at h
              · obtain ⟨read, rfl, hread⟩ := ih (fun d hd => hw d (List.mem_cons_of_mem a hd)) h
                exact ⟨c :: read, rfl, List.forall_mem_cons.mpr ⟨hc, hread⟩⟩
              · cases h

theorem passes_exactly {w : String} (hw : Unspaced w) : Passes (exactly w) :=
  passes_letters keepsBlanks_id hw

theorem passes_anyCase {w : String} (hw : Unspaced w) : Passes (anyCase w) :=
  passes_letters keepsBlanks_foldCase hw

theorem passes_blanks : Passes blanks := by
  intro cs
  cases cs with
  | nil => rfl
  | cons c cs =>
      cases hc : isBlank c with
      | true =>
          have hread : blanks (c :: cs) = some (cs.dropWhile isBlank) := if_pos hc
          have hrest : (collapse (cs.dropWhile isBlank)).dropWhile isBlank =
              collapse (cs.dropWhile isBlank) := by
            rw [dropWhile_collapse, dropWhile_of_not_blankAhead (not_blankAhead_dropWhile cs)]
          rw [collapse_blank hc, hread]
          exact congrArg some hrest
      | false =>
          have hread (cs : List Char) : blanks (c :: cs) = none :=
            if_neg (by rw [hc]; exact Bool.false_ne_true)
          rw [collapse_cons hc, hread, hread]
          rfl

theorem advances_blanks : Advances id blanks := by
  intro c cs rest h
  rw [blanks] at h
  split at h
  · rw [← Option.some.inj h]
    exact List.dropWhile_suffix isBlank
  · cases h

theorem leaves_blanks : Leaves id id blanks := by
  intro cs rest h
  cases cs with
  | nil => cases h
  | cons c cs => exact (advances_blanks h).trans (List.suffix_cons c cs)

theorem passes_wordEnd : Passes wordEnd := by
  intro cs
  cases cs with
  | nil => rfl
  | cons c cs =>
      cases hc : isBlank c with
      | true =>
          rw [collapse_blank hc, wordEnd, wordEnd, isWordChar_of_isBlank hc,
            isWordChar_of_isBlank rfl]
          exact congrArg some (collapse_blank hc cs).symm
      | false =>
          rw [collapse_cons hc, wordEnd, wordEnd]
          split
          · rfl
          · exact congrArg some (collapse_cons hc cs).symm

theorem leaves_wordEnd : Leaves id id wordEnd := by
  intro cs rest h
  cases cs with
  | nil =>
      obtain rfl := Option.some.inj h
      exact List.suffix_rfl
  | cons c cs =>
      rw [wordEnd] at h
      split at h
      · cases h
      · obtain rfl := Option.some.inj h
        exact List.suffix_rfl

theorem reads_name (hfold : KeepsBlanks fold) : Reads (name fold) := by
  have hnot (c : Char) (hc : isBlank c = true) : isNameChar (fold c) = false :=
    forall_isBlank (P := fun c => isNameChar c = false) (by decide +kernel) (hfold c hc)
  intro cs
  obtain ⟨htake, hdrop⟩ := span_collapse hnot cs
  rw [name, name, htake, hdrop]
  cases cs.takeWhile fun c => isNameChar (fold c) <;> rfl

theorem ends_name : Ends (name fold) := by
  intro cs r h
  rw [name] at h
  split at h
  · cases h
  · rw [← Option.some.inj h]
    exact List.dropWhile_suffix _

theorem passes_char {d : Char} (hd : isBlank d = false) : Passes (char d) := by
  have hne {c : Char} (hc : isBlank c = true) : c ≠ d := by
    rintro rfl
    rw [hc] at hd
    cases hd
  intro cs
  cases cs with
  | nil => rfl
  | cons c cs =>
      cases hc : isBlank c with
      | true =>
          rw [collapse_blank hc, char, char, if_neg (hne hc), if_neg (hne rfl)]
          rfl
      | false =>
          rw [collapse_cons hc, char, char]
          split <;> rfl

theorem leaves_char (d : Char) : Leaves id id (char d) := by
  intro cs rest h
  cases cs with
  | nil => cases h
  | cons c cs =>
      rw [char] at h
      split at h
      · rw [← Option.some.inj h]
        exact List.suffix_cons c cs
      · cases h

end Pieces

/-! ## Places -/

section Places

variable {β : Type}

/-- The reader does not fit at a blank. -/
def BeginsInWord (f : List Char → Option β) : Prop :=
  ∀ ⦃c⦄, isBlank c = true → ∀ cs, f (c :: cs) = none

theorem BeginsInWord.bind {γ : Type} {f : List Char → Option β} (hf : BeginsInWord f)
    (g : β → Option γ) : BeginsInWord fun cs => (f cs).bind g := fun c hc cs => by
  show (f (c :: cs)).bind g = none
  rw [hf hc]
  rfl

theorem beginsInWord_letters {fold : Char → Char} (hfold : KeepsBlanks fold) {a : Char}
    (ha : isBlank a = false) (w : List Char) : BeginsInWord (letters fold (a :: w)) :=
  fun _ hc cs => letters_blank hfold ha hc w cs

/-- At a blank nothing fits, and the blank ends the word before it. -/
theorem firstAt_blank {f : List Char → Option β} (hbegins : BeginsInWord f) {c : Char}
    (hc : isBlank c = true) (b : Bool) (cs : List Char) :
    firstAt f b (c :: cs) = firstAt f false cs := by
  rw [firstAt, hbegins hc, ite_self, isWordChar_of_isBlank hc]

/-- A reader fits at the same places first. -/
theorem firstAt_collapse {f : List Char → Option β} {ψ : β → β} (hf : Carries collapse ψ f)
    (hbegins : BeginsInWord f) {cs : List Char} {b b' : Bool} (h : blankAhead cs = true ∨ b = b') :
    firstAt f b (collapse cs) = (firstAt f b' cs).map ψ := by
  -- the flags tell whether a word goes on; before a blank they do not matter
  induction cs generalizing b b' with
  | nil => rfl
  | cons c cs ih =>
      cases hc : isBlank c with
      | true =>
          rw [firstAt_blank hbegins hc]
          cases hcs : blankAhead cs with
          | true =>
              rw [collapse_within hc hcs]
              exact ih (Or.inl hcs)
          | false =>
              rw [collapse_last hc hcs, firstAt_blank hbegins rfl]
              exact ih (Or.inr rfl)
      | false =>
          obtain rfl : b = b' := h.resolve_left (not_blankAhead_cons hc cs)
          have hcarries := hf (c :: cs)
          rw [collapse_cons hc] at hcarries ⊢
          rw [firstAt, firstAt, ih (Or.inr rfl), hcarries]
          cases b with
          | true => rfl
          | false => cases f (c :: cs) <;> rfl

theorem length_sub_of_suffix {rest cs : List Char} (h : rest <:+ cs) (c : Char) :
    (c :: cs).length - rest.length = (cs.length - rest.length) + 1 :=
  Nat.succ_sub h.length_le

theorem everyAt_blank {f : List Char → Option (β × List Char)} (hbegins : BeginsInWord f) {c : Char}
    (hc : isBlank c = true) (b : Bool) (cs : List Char) :
    everyAt f 0 b (c :: cs) = everyAt f 0 false cs := by
  rw [everyAt, hbegins hc, ite_self, isWordChar_of_isBlank hc]

/-- A reader fits at the same places. What an answer has read ends where `rest` begins, in the text
and in the respaced text. -/
theorem everyAt_collapse_behind {f : List Char → Option (β × List Char)} (hf : Reads f)
    (hbegins : BeginsInWord f) (hadvances : Advances Prod.snd f)
    {cs rest : List Char} (hrest : rest <:+ cs) {b b' : Bool}
    (h : blankAhead cs = true ∨ b = b') :
    everyAt f ((collapse cs).length - (collapse rest).length) b (collapse cs) =
      everyAt f (cs.length - rest.length) b' cs := by
  -- induction on the text with `rest` kept general: an answer is followed by a jump to its end,
  -- and within the jump nothing is read
  induction cs generalizing rest b b' with
  | nil => rfl
  | cons c cs ih =>
      have hgo {b b' : Bool} (h : blankAhead cs = true ∨ b = b') :
          everyAt f 0 b (collapse cs) = everyAt f 0 b' cs := by
        have hall := ih List.suffix_rfl h
        rwa [Nat.sub_self, Nat.sub_self] at hall
      rcases List.suffix_cons_iff.mp hrest with rfl | hwithin
      · rw [Nat.sub_self, Nat.sub_self]
        cases hc : isBlank c with
        | true =>
            rw [everyAt_blank hbegins hc]
            cases hcs : blankAhead cs with
            | true =>
                rw [collapse_within hc hcs]
                exact hgo (Or.inl hcs)
            | false =>
                rw [collapse_last hc hcs, everyAt_blank hbegins rfl]
                exact hgo (Or.inr rfl)
        | false =>
            obtain rfl : b = b' := h.resolve_left (not_blankAhead_cons hc cs)
            have hcarries := hf (c :: cs)
            rw [collapse_cons hc] at hcarries ⊢
            rw [everyAt, everyAt, hgo (Or.inr rfl), hcarries]
            cases b with
            | true => rfl
            | false =>
                cases hread : f (c :: cs) with
                | none => rfl
                | some r =>
                    have hbehind := ih (hadvances hread)
                      (Or.inr (rfl : isWordChar c = isWordChar c))
                    exact congrArg (r.1 :: ·) hbehind
      · -- the character before `rest` is passed over in both texts, or is one of a run
        have hwithin' := collapse_suffix hwithin
        rw [length_sub_of_suffix hwithin, everyAt]
        cases hc : isBlank c with
        | true =>
            rw [isWordChar_of_isBlank hc]
            cases hcs : blankAhead cs with
            | true =>
                rw [collapse_within hc hcs]
                exact ih hwithin (Or.inl hcs)
            | false =>
                rw [collapse_last hc hcs, length_sub_of_suffix hwithin', everyAt,
                  isWordChar_of_isBlank rfl]
                exact ih hwithin (Or.inr rfl)
        | false =>
            rw [collapse_cons hc, length_sub_of_suffix hwithin', everyAt]
            exact ih hwithin (Or.inr rfl)

theorem everyAt_collapse {f : List Char → Option (β × List Char)} (hf : Reads f)
    (hbegins : BeginsInWord f) (hadvances : Advances Prod.snd f) (cs : List Char) :
    everyAt f 0 false (collapse cs) = everyAt f 0 false cs := by
  have hall := everyAt_collapse_behind hf hbegins hadvances (List.suffix_rfl (l := cs))
    (Or.inr (rfl : false = false))
  rwa [Nat.sub_self, Nat.sub_self] at hall

end Places

end IndexAdvisor.Sql
