import IndexAdvisor.Proofs.Text.Ascii
import IndexAdvisor.Sql.Clause
import IndexAdvisor.Sql.Join

/-!
# Texts of words with gaps between them

A plain statement in lower case is a sequence of words, each with a gap in front of it: blanks,
commas, points and the signs of operators. A keyword is looked for at words only, and read if it is
the whole word, however the word begins. So what the readers of a statement do on such a text is
said by its words.
-/

set_option autoImplicit false

namespace IndexAdvisor.Sql

open IndexAdvisor.Text

/-! ## Words and gaps -/

/-- What all characters of a text satisfy is decided along the text, not for each character there
is. -/
instance (priority := 2000) decidableForallMem (p : Char → Prop) [DecidablePred p]
    (cs : List Char) : Decidable (∀ c ∈ cs, p c) :=
  List.decidableBAll p cs

instance (priority := 2000) decidableForallMemOption (p : Char → Prop) [DecidablePred p]
    (c? : Option Char) : Decidable (∀ c ∈ c?, p c) :=
  decidable_of_decidable_of_iff (p := ∀ c ∈ c?.toList, p c)
    (forall_congr' fun _ => imp_congr_left Option.mem_toList)

/-- One or more lower-case letters, digits and underscores. -/
structure Word where
  chars : List Char
  ne_nil : chars ≠ []
  isNameChar_of_mem : ∀ c ∈ chars, isNameChar c = true

/-- The word that is spelled so. -/
def Word.ofString (s : String) (h : s.toList ≠ [] ∧ ∀ c ∈ s.toList, isNameChar c = true) : Word :=
  ⟨s.toList, h.1, h.2⟩

/-- What stands between two words. -/
inductive Gap where
  | blank
  | comma
  | point
  | star
  | eq
  | gt
  | lt
  | ge
  | le
  | ne
  deriving DecidableEq

/-- The characters of a gap. -/
def Gap.chars : Gap → List Char
  | blank => [' ']
  | comma => [',', ' ']
  | point => ['.']
  | star => [' ', '*', ' ']
  | eq => [' ', '=', ' ']
  | gt => [' ', '>', ' ']
  | lt => [' ', '<', ' ']
  | ge => [' ', '>', '=', ' ']
  | le => [' ', '<', '=', ' ']
  | ne => [' ', '!', '=', ' ']

/-- A word and the gap in front of it. -/
structure Piece where
  gap : Gap
  word : Word

/-- The text of some pieces. -/
def spell (ps : List Piece) : List Char := ps.flatMap fun p => p.gap.chars ++ p.word.chars

@[simp] theorem spell_nil : spell [] = [] := rfl

theorem spell_cons (p : Piece) (ps : List Piece) :
    spell (p :: ps) = p.gap.chars ++ (p.word.chars ++ spell ps) := by
  rw [spell, List.flatMap_cons, List.append_assoc]
  rfl

theorem spell_append (ps qs : List Piece) : spell (ps ++ qs) = spell ps ++ spell qs :=
  List.flatMap_append

/-! ## Their characters -/

/-- A character of a gap. -/
def isSign (c : Char) : Bool := [' ', ',', '.', '*', '=', '<', '>', '!'].contains c

theorem isSign_of_mem_gap {g : Gap} : ∀ c ∈ g.chars, isSign c = true := by
  cases g <;> decide

theorem Gap.chars_ne_nil (g : Gap) : g.chars ≠ [] := by
  cases g <;> decide

section Signs

variable {c : Char}

theorem mem_signs (h : isSign c = true) : c ∈ [' ', ',', '.', '*', '=', '<', '>', '!'] :=
  List.contains_iff_mem.mp h

theorem isWordChar_of_isSign (h : isSign c = true) : isWordChar c = false := by
  have hsigns : ∀ c ∈ [' ', ',', '.', '*', '=', '<', '>', '!'], isWordChar c = false := by decide
  exact hsigns c (mem_signs h)

theorem isNameChar_of_isSign (h : isSign c = true) : isNameChar c = false := by
  have hsigns : ∀ c ∈ [' ', ',', '.', '*', '=', '<', '>', '!'], isNameChar c = false := by decide
  exact hsigns c (mem_signs h)

theorem foldCase_of_isSign (h : isSign c = true) : foldCase c = c := by
  have hsigns : ∀ c ∈ [' ', ',', '.', '*', '=', '<', '>', '!'], foldCase c = c := by decide
  exact hsigns c (mem_signs h)

/-- What holds of all ASCII characters of names holds of the characters of names. -/
theorem forall_isNameChar {P : Char → Prop}
    (h : ∀ n : Fin 128, isNameChar (Char.ofNat n.val) = true → P (Char.ofNat n.val))
    (hc : isNameChar c = true) : P c :=
  forall_ascii (P := fun c => isNameChar c = true → P c) h (toNat_lt_of_isNameChar hc) hc

theorem isBlank_of_isNameChar (h : isNameChar c = true) : isBlank c = false :=
  forall_isNameChar (P := fun c => isBlank c = false) (by decide) h

theorem foldCase_of_isNameChar (h : isNameChar c = true) : foldCase c = c :=
  forall_isNameChar (P := fun c => foldCase c = c) (by decide) h

end Signs

/-- A way to compare letters that leaves lower-case statements as they are. -/
structure Plain (fold : Char → Char) : Prop where
  name : ∀ {c : Char}, isNameChar c = true → fold c = c
  sign : ∀ {c : Char}, isSign c = true → fold c = c

theorem plain_id : Plain id := ⟨fun _ => rfl, fun _ => rfl⟩

theorem plain_foldCase : Plain foldCase := ⟨foldCase_of_isNameChar, foldCase_of_isSign⟩

/-! ## Readers at words -/

section Readers

variable {β : Type}

/-- A text is empty or begins with a sign. -/
theorem spell_cases (ps : List Piece) :
    spell ps = [] ∨ ∃ c cs, spell ps = c :: cs ∧ isSign c = true := by
  cases ps with
  | nil => exact Or.inl rfl
  | cons p ps =>
      refine Or.inr ?_
      rw [spell_cons]
      cases hg : p.gap.chars with
      | nil => exact absurd hg p.gap.chars_ne_nil
      | cons c cs =>
          exact ⟨c, cs ++ (p.word.chars ++ spell ps), rfl,
            isSign_of_mem_gap (g := p.gap) c (hg ▸ List.mem_cons_self)⟩

/-- `g` does not fit inside of words. -/
def FailsInWords (g : List Char → Option β) : Prop :=
  ∀ c cs, isNameChar c = true → g (c :: cs) = none

theorem failsInWords_blanks : FailsInWords blanks := by
  intro c cs hc
  rw [blanks, isBlank_of_isNameChar hc]
  rfl

theorem failsInWords_wordEnd : FailsInWords wordEnd := by
  intro c cs hc
  rw [wordEnd, isWordChar_of_isNameChar hc]
  rfl

theorem FailsInWords.bind {γ : Type} {g : List Char → Option β} (hg : FailsInWords g)
    (h : β → Option γ) : FailsInWords fun cs => (g cs).bind h := by
  intro c cs hc
  show (g (c :: cs)).bind h = none
  rw [hg c cs hc]
  rfl

/-- Letters and what fits behind a word only are read where the word is these letters. -/
theorem letters_bind {fold : Char → Char} (hfold : Plain fold) {g : List Char → Option β}
    (hg : FailsInWords g) {k w : List Char} (hk : ∀ c ∈ k, isNameChar c = true)
    (hw : ∀ c ∈ w, isNameChar c = true) (ps : List Piece) :
    (letters fold k (w ++ spell ps)).bind g = if w = k then g (spell ps) else none := by
  induction k generalizing w with
  | nil =>
      cases w with
      | nil => rfl
      | cons c w => exact hg c _ (hw c List.mem_cons_self)
  | cons a k ih =>
      have ha := hk a List.mem_cons_self
      cases w with
      | nil =>
          rw [if_neg (List.cons_ne_nil a k).symm, List.nil_append]
          -- the word ends before the letters do, and no letter is a sign
          rcases spell_cases ps with h | ⟨c, cs, h, hc⟩
          · rw [h]
            rfl
          · have hne : c ≠ a := by
              rintro rfl
              rw [isNameChar_of_isSign hc] at ha
              cases ha
            rw [h, letters, hfold.sign hc, if_neg hne]
            rfl
      | cons c w =>
          rw [List.cons_append, letters, hfold.name (hw c List.mem_cons_self)]
          by_cases hc : c = a
          · rw [if_pos hc, ih (fun d hd => hk d (List.mem_cons_of_mem a hd))
              (fun d hd => hw d (List.mem_cons_of_mem c hd)), hc]
            simp only [List.cons.injEq, true_and]
          · rw [if_neg hc, if_neg fun h => hc (List.cons.inj h).1]
            rfl

/-- Blanks are read in front of a word. -/
theorem blanks_spell_blank (w : Word) (ps : List Piece) :
    blanks (spell (⟨.blank, w⟩ :: ps)) = some (w.chars ++ spell ps) := by
  rw [spell_cons]
  show some ((w.chars ++ spell ps).dropWhile isBlank) = _
  cases hw : w.chars with
  | nil => exact absurd hw w.ne_nil
  | cons c cs =>
      have hc := isBlank_of_isNameChar (w.isNameChar_of_mem c (hw ▸ List.mem_cons_self))
      rw [List.cons_append, List.dropWhile_cons_of_neg (by rw [hc]; exact Bool.false_ne_true)]

theorem wordEnd_spell (ps : List Piece) : wordEnd (spell ps) = some (spell ps) := by
  rcases spell_cases ps with h | ⟨c, cs, h, hc⟩
  · rw [h]
    rfl
  · rw [h, wordEnd, isWordChar_of_isSign hc]
    rfl

/-- A name that is read is a whole word. -/
theorem name_word {fold : Char → Char} (hfold : Plain fold) (w : Word) (ps : List Piece) :
    name fold (w.chars ++ spell ps) = some (w.chars, spell ps) := by
  have hword : ∀ c ∈ w.chars, isNameChar (fold c) = true := fun c hc => by
    have hname := w.isNameChar_of_mem c hc
    rwa [hfold.name hname]
  have htake : (spell ps).takeWhile (fun c => isNameChar (fold c)) = [] ∧
      (spell ps).dropWhile (fun c => isNameChar (fold c)) = spell ps := by
    rcases spell_cases ps with h | ⟨c, cs, h, hc⟩
    · rw [h]
      exact ⟨rfl, rfl⟩
    · have hsign : ¬isNameChar (fold c) = true := by
        rw [hfold.sign hc, isNameChar_of_isSign hc]
        exact Bool.false_ne_true
      rw [h, List.takeWhile_cons_of_neg (p := fun c => isNameChar (fold c)) hsign,
        List.dropWhile_cons_of_neg (p := fun c => isNameChar (fold c)) hsign]
      exact ⟨rfl, rfl⟩
  rw [name, List.takeWhile_append_of_pos hword, List.dropWhile_append_of_pos hword, htake.1,
    htake.2, List.append_nil]
  cases hw : w.chars with
  | nil => exact absurd hw w.ne_nil
  | cons c cs => rfl

end Readers

/-! ## Places at words -/

section Places

variable {β : Type}

/-- `f` fits at the beginning of a word only. -/
structure AtWords (f : List Char → Option β) : Prop where
  nil : f [] = none
  sign : ∀ {c : Char} {cs : List Char}, isSign c = true → f (c :: cs) = none

/-- A keyword is read at words only. -/
theorem atWords_letters {fold : Char → Char} (hfold : Plain fold) {k : List Char} (hne : k ≠ [])
    (hk : ∀ c ∈ k, isNameChar c = true) (g : List Char → Option β) :
    AtWords fun cs => (letters fold k cs).bind g := by
  cases k with
  | nil => exact absurd rfl hne
  | cons a k =>
      have ha := hk a List.mem_cons_self
      refine ⟨rfl, fun {c cs} hc => ?_⟩
      have hca : c ≠ a := by
        rintro rfl
        rw [isNameChar_of_isSign hc] at ha
        cases ha
      show (letters fold (a :: k) (c :: cs)).bind g = none
      rw [letters, hfold.sign hc, if_neg hca]
      rfl

section FirstAt

variable {f : List Char → Option β} (hf : AtWords f)

include hf

theorem firstAt_gap (b : Bool) (g : Gap) (cs : List Char) :
    firstAt f b (g.chars ++ cs) = firstAt f false cs := by
  have hsigns (ss : List Char) (hss : ∀ c ∈ ss, isSign c = true) (hne : ss ≠ []) (b : Bool) :
      firstAt f b (ss ++ cs) = firstAt f false cs := by
    induction ss generalizing b with
    | nil => exact absurd rfl hne
    | cons c ss ih =>
        have hc := hss c List.mem_cons_self
        have hstep : firstAt f b (c :: (ss ++ cs)) = firstAt f false (ss ++ cs) := by
          rw [firstAt, hf.sign hc, isWordChar_of_isSign hc]
          simp only [ite_self]
        rw [List.cons_append, hstep]
        cases ss with
        | nil => rfl
        | cons d ss => exact ih (fun e he => hss e (List.mem_cons_of_mem c he)) (by simp) false
  exact hsigns g.chars isSign_of_mem_gap g.chars_ne_nil b

theorem firstAt_spell_irrel (b : Bool) (ps : List Piece) :
    firstAt f b (spell ps) = firstAt f false (spell ps) := by
  cases ps with
  | nil => rfl
  | cons p ps => rw [spell_cons, firstAt_gap hf, firstAt_gap hf]

/-- At a word `f` is tried once. -/
theorem firstAt_word (w : Word) (ps : List Piece) :
    firstAt f false (w.chars ++ spell ps) =
      (f (w.chars ++ spell ps)).or (firstAt f false (spell ps)) := by
  have hinside (cs : List Char) (hcs : ∀ c ∈ cs, isNameChar c = true) :
      firstAt f true (cs ++ spell ps) = firstAt f false (spell ps) := by
    induction cs with
    | nil => exact firstAt_spell_irrel hf true ps
    | cons c cs ih =>
        rw [List.cons_append, firstAt, isWordChar_of_isNameChar (hcs c List.mem_cons_self)]
        exact ih fun d hd => hcs d (List.mem_cons_of_mem c hd)
  cases hw : w.chars with
  | nil => exact absurd hw w.ne_nil
  | cons c cs =>
      have hname : ∀ d ∈ c :: cs, isNameChar d = true := hw ▸ w.isNameChar_of_mem
      rw [List.cons_append, firstAt, isWordChar_of_isNameChar (hname c List.mem_cons_self),
        hinside cs fun d hd => hname d (List.mem_cons_of_mem c hd)]
      cases f (c :: (cs ++ spell ps)) <;> rfl

theorem firstAt_cons (b : Bool) (p : Piece) (ps : List Piece) :
    firstAt f b (spell (p :: ps)) =
      (f (p.word.chars ++ spell ps)).or (firstAt f false (spell ps)) := by
  rw [spell_cons, firstAt_gap hf, firstAt_word hf]

/-- Words at which `f` does not fit are passed over. -/
theorem firstAt_append (b : Bool) {ps : List Piece}
    (hps : ∀ p ∈ ps, ∀ qs, f (p.word.chars ++ spell qs) = none) (qs : List Piece) :
    firstAt f b (spell (ps ++ qs)) = firstAt f false (spell qs) := by
  induction ps generalizing b with
  | nil => exact firstAt_spell_irrel hf b qs
  | cons p ps ih =>
      rw [List.cons_append, firstAt_cons hf, hps p List.mem_cons_self,
        ih false fun q hq => hps q (List.mem_cons_of_mem p hq)]
      rfl

end FirstAt

section EveryAt

variable {f : List Char → Option (β × List Char)} (hf : AtWords f)

include hf

theorem everyAt_gap (b : Bool) (g : Gap) (cs : List Char) :
    everyAt f 0 b (g.chars ++ cs) = everyAt f 0 false cs := by
  have hsigns (ss : List Char) (hss : ∀ c ∈ ss, isSign c = true) (hne : ss ≠ []) (b : Bool) :
      everyAt f 0 b (ss ++ cs) = everyAt f 0 false cs := by
    induction ss generalizing b with
    | nil => exact absurd rfl hne
    | cons c ss ih =>
        have hc := hss c List.mem_cons_self
        have hstep : everyAt f 0 b (c :: (ss ++ cs)) = everyAt f 0 false (ss ++ cs) := by
          rw [everyAt, hf.sign hc, isWordChar_of_isSign hc]
          simp only [ite_self]
        rw [List.cons_append, hstep]
        cases ss with
        | nil => rfl
        | cons d ss => exact ih (fun e he => hss e (List.mem_cons_of_mem c he)) (by simp) false
  exact hsigns g.chars isSign_of_mem_gap g.chars_ne_nil b

theorem everyAt_spell_irrel (b : Bool) (ps : List Piece) :
    everyAt f 0 b (spell ps) = everyAt f 0 false (spell ps) := by
  cases ps with
  | nil => rfl
  | cons p ps => rw [spell_cons, everyAt_gap hf, everyAt_gap hf]

omit hf in
/-- What has been read is passed over. -/
theorem everyAt_skip (b : Bool) (read rest : List Char) :
    ∃ b', everyAt f read.length b (read ++ rest) = everyAt f 0 b' rest := by
  induction read generalizing b with
  | nil => exact ⟨b, rfl⟩
  | cons c read ih =>
      obtain ⟨b', h⟩ := ih (isWordChar c)
      exact ⟨b', h⟩

/-- A word at which `f` does not fit is passed over. -/
theorem everyAt_cons_of_none (b : Bool) {p : Piece} {ps : List Piece}
    (h : f (p.word.chars ++ spell ps) = none) :
    everyAt f 0 b (spell (p :: ps)) = everyAt f 0 false (spell ps) := by
  have hinside (cs : List Char) (hcs : ∀ c ∈ cs, isNameChar c = true) :
      everyAt f 0 true (cs ++ spell ps) = everyAt f 0 false (spell ps) := by
    induction cs with
    | nil => exact everyAt_spell_irrel hf true ps
    | cons c cs ih =>
        rw [List.cons_append, everyAt, isWordChar_of_isNameChar (hcs c List.mem_cons_self)]
        exact ih fun d hd => hcs d (List.mem_cons_of_mem c hd)
  rw [spell_cons, everyAt_gap hf]
  cases hw : p.word.chars with
  | nil => exact absurd hw p.word.ne_nil
  | cons c cs =>
      have hname : ∀ d ∈ c :: cs, isNameChar d = true := hw ▸ p.word.isNameChar_of_mem
      rw [hw, List.cons_append] at h
      rw [List.cons_append, everyAt, h, isWordChar_of_isNameChar (hname c List.mem_cons_self)]
      simp only [ite_self]
      exact hinside cs fun d hd => hname d (List.mem_cons_of_mem c hd)

/-- Where `f` fits, its answer is the next one, and the text goes on behind what it has read. -/
theorem everyAt_cons_of_some (b : Bool) {p : Piece} {ps qs : List Piece} {x : β}
    (h : f (p.word.chars ++ spell (ps ++ qs)) = some (x, spell qs)) :
    everyAt f 0 b (spell (p :: ps ++ qs)) = x :: everyAt f 0 false (spell qs) := by
  rw [List.cons_append, spell_cons, everyAt_gap hf]
  cases hw : p.word.chars with
  | nil => exact absurd hw p.word.ne_nil
  | cons c cs =>
      rw [hw, List.cons_append] at h
      rw [List.cons_append, everyAt, if_neg Bool.false_ne_true, h]
      have hread : (cs ++ spell (ps ++ qs)).length - (spell qs).length =
          (cs ++ spell ps).length := by
        simp only [spell_append, List.length_append]
        omega
      obtain ⟨b', hskip⟩ := everyAt_skip (f := f) (isWordChar c) (cs ++ spell ps) (spell qs)
      have htext : cs ++ spell (ps ++ qs) = cs ++ spell ps ++ spell qs := by
        rw [spell_append, List.append_assoc]
      simp only [hread]
      rw [htext, hskip, everyAt_spell_irrel hf]

/-- Words at which `f` does not fit are passed over. -/
theorem everyAt_append (b : Bool) {ps : List Piece}
    (hps : ∀ p ∈ ps, ∀ qs, f (p.word.chars ++ spell qs) = none) (qs : List Piece) :
    everyAt f 0 b (spell (ps ++ qs)) = everyAt f 0 false (spell qs) := by
  induction ps generalizing b with
  | nil => exact everyAt_spell_irrel hf b qs
  | cons p ps ih =>
      rw [List.cons_append, everyAt_cons_of_none hf b (hps p List.mem_cons_self _)]
      exact ih false fun q hq => hps q (List.mem_cons_of_mem p hq)

end EveryAt

end Places

end IndexAdvisor.Sql
