import IndexAdvisor.Proofs.Sql.Scanner

/-!
# Where a search reads its answers

A search that goes on behind each of its answers reads pieces of the text that lie one behind the
other. A place that could be read is passed over only where one of these pieces covers it.
-/

set_option autoImplicit false

namespace IndexAdvisor.Sql

open IndexAdvisor.Text

/-- An answer with the place at which it is read and the one behind what is read. -/
structure Match (β : Type) where
  start : Nat
  answer : β
  stop : Nat
  deriving DecidableEq, Repr

section Matches

variable {β : Type}

/-- The answers of `f` from left to right as `everyAt` finds them, with their places. The text
begins at the place `n`. -/
def matchesFrom (f : List Char → Option (β × List Char)) :
    Nat → Nat → Bool → List Char → List (Match β)
  | _, _, _, [] => []
  | n, skip + 1, _, c :: cs => matchesFrom f (n + 1) skip (isWordChar c) cs
  | n, 0, inWord, c :: cs =>
    match if inWord then none else f (c :: cs) with
    | some (b, rest) => ⟨n, b, n + 1 + (cs.length - rest.length)⟩ ::
        matchesFrom f (n + 1) (cs.length - rest.length) (isWordChar c) cs
    | none => matchesFrom f (n + 1) 0 (isWordChar c) cs

/-- The answers of `f` in a text, with their places. -/
def allMatches (f : List Char → Option (β × List Char)) (q : List Char) : List (Match β) :=
  matchesFrom f 0 0 false q

/-- The answer is read from the start of the match to its stop. -/
structure Match.ReadIn (m : Match β) (f : List Char → Option (β × List Char)) (q : List Char) :
    Prop where
  start_lt : m.start < m.stop
  stop_le : m.stop ≤ q.length
  answer : answerAt f [] q m.start = some (m.answer, q.drop m.stop)

variable {f : List Char → Option (β × List Char)} {m : Match β} {q : List Char}

theorem map_answer_matchesFrom (n skip : Nat) (inWord : Bool) (cs : List Char) :
    (matchesFrom f n skip inWord cs).map Match.answer = everyAt f skip inWord cs := by
  induction cs generalizing n skip inWord with
  | nil => cases skip <;> rfl
  | cons c cs ih =>
      cases skip with
      | succ skip => exact ih (n + 1) skip (isWordChar c)
      | zero =>
          rw [matchesFrom, everyAt]
          cases if inWord then none else f (c :: cs) with
          | some r => exact congrArg (r.1 :: ·) (ih (n + 1) _ (isWordChar c))
          | none => exact ih (n + 1) 0 (isWordChar c)

/-- **The answers with their places** are the answers of the search. -/
theorem map_answer_allMatches : (allMatches f q).map Match.answer = everyAt f 0 false q :=
  map_answer_matchesFrom 0 0 false q

/-- At each character an answer is read or the search goes on; `before` is what it has passed. -/
theorem matchesFrom_cons (before : List Char) (c : Char) (cs : List Char) :
    matchesFrom f before.length 0 (before.getLast?.any isWordChar) (c :: cs) =
      match answerAt f [] (before ++ c :: cs) before.length with
      | some (b, rest) => ⟨before.length, b, before.length + 1 + (cs.length - rest.length)⟩ ::
          matchesFrom f (before ++ [c]).length (cs.length - rest.length)
            ((before ++ [c]).getLast?.any isWordChar) cs
      | none => matchesFrom f (before ++ [c]).length 0
          ((before ++ [c]).getLast?.any isWordChar) cs := by
  have hplace : answerAt f [] (before ++ c :: cs) before.length =
      if before.getLast?.any isWordChar then none else f (c :: cs) := by
    rw [← answerAt_zero, answerAt, answerAt, List.nil_append, List.take_left, List.drop_left,
      List.take_zero, List.append_nil, List.drop_zero]
  rw [matchesFrom, hplace, List.length_append, List.getLast?_concat]
  rfl

theorem matchesFrom_skip (before : List Char) (skip : Nat) (c : Char) (cs : List Char) :
    matchesFrom f before.length (skip + 1) (before.getLast?.any isWordChar) (c :: cs) =
      matchesFrom f (before ++ [c]).length skip ((before ++ [c]).getLast?.any isWordChar) cs := by
  rw [matchesFrom, List.length_append, List.getLast?_concat]
  rfl

/-- What is read at a place leaves a rest of the text. -/
theorem exists_stop (hf : Advances Prod.snd f) {before : List Char} {c : Char} {cs rest : List Char}
    {b : β} (h : answerAt f [] (before ++ c :: cs) before.length = some (b, rest)) :
    before.length + 1 + (cs.length - rest.length) ≤ (before ++ c :: cs).length ∧
      (before ++ c :: cs).drop (before.length + 1 + (cs.length - rest.length)) = rest := by
  rw [answerAt_eq_some_iff, List.drop_left] at h
  obtain ⟨read, rfl⟩ := hf h.2
  have hlength : (read ++ rest).length - rest.length = read.length := by
    rw [List.length_append, Nat.add_sub_cancel]
  constructor
  · rw [hlength]
    simp only [List.length_append, List.length_cons]
    omega
  · have hread : before ++ c :: (read ++ rest) = (before ++ c :: read) ++ rest := by
      rw [List.append_assoc, List.cons_append]
    show (before ++ c :: (read ++ rest)).drop _ = rest
    rw [hlength, hread]
    refine List.drop_left' ?_
    rw [List.length_append, List.length_cons]
    omega

/-- What is found is read there, behind what was to be skipped. -/
theorem readIn_of_mem_matchesFrom (hf : Advances Prod.snd f) (before : List Char) {cs : List Char}
    {skip : Nat} (h : m ∈ matchesFrom f before.length skip (before.getLast?.any isWordChar) cs) :
    before.length + skip ≤ m.start ∧ m.ReadIn f (before ++ cs) := by
  induction cs generalizing before skip with
  | nil =>
      cases skip <;> exact absurd h List.not_mem_nil
  | cons c cs ih =>
      have hnext {skip : Nat} (h : m ∈ matchesFrom f (before ++ [c]).length skip
          ((before ++ [c]).getLast?.any isWordChar) cs) :
          before.length + 1 + skip ≤ m.start ∧ m.ReadIn f (before ++ c :: cs) := by
        have hmore := ih (before ++ [c]) h
        rwa [List.length_append, List.append_assoc] at hmore
      cases skip with
      | succ skip =>
          rw [matchesFrom_skip] at h
          exact ⟨by have := (hnext h).1; omega, (hnext h).2⟩
      | zero =>
          rw [matchesFrom_cons] at h
          split at h
          · rename_i b rest hanswer
            rcases List.mem_cons.mp h with rfl | h
            · obtain ⟨hstop, hrest⟩ := exists_stop hf hanswer
              exact ⟨Nat.le_refl _,
                { start_lt := Nat.lt_of_lt_of_le (Nat.lt_succ_self _) (Nat.le_add_right _ _)
                  stop_le := hstop
                  answer := by rw [hrest, hanswer] }⟩
            · exact ⟨by have := (hnext h).1; omega, (hnext h).2⟩
          · exact ⟨by have := (hnext h).1; omega, (hnext h).2⟩

theorem pairwise_matchesFrom (hf : Advances Prod.snd f) (before : List Char) (skip : Nat)
    (cs : List Char) : (matchesFrom f before.length skip (before.getLast?.any isWordChar)
      cs).Pairwise fun a b => a.stop ≤ b.start := by
  induction cs generalizing before skip with
  | nil => cases skip <;> exact List.Pairwise.nil
  | cons c cs ih =>
      cases skip with
      | succ skip =>
          rw [matchesFrom_skip]
          exact ih (before ++ [c]) skip
      | zero =>
          rw [matchesFrom_cons]
          split
          · refine List.pairwise_cons.mpr ⟨fun m hm => ?_, ih (before ++ [c]) _⟩
            have hstart := (readIn_of_mem_matchesFrom hf (before ++ [c]) hm).1
            rwa [List.length_append] at hstart
          · exact ih (before ++ [c]) 0

/-- A place that could be read is covered by what is found. -/
theorem exists_match_from (hnil : f [] = none) (before : List Char) {cs : List Char}
    {skip i : Nat} (hi : before.length + skip ≤ i) (h : (answerAt f [] (before ++ cs) i).isSome) :
    ∃ m ∈ matchesFrom f before.length skip (before.getLast?.any isWordChar) cs,
      m.start ≤ i ∧ i < m.stop := by
  induction cs generalizing before skip with
  | nil =>
      obtain ⟨r, hr⟩ := Option.isSome_iff_exists.mp h
      have hread := (answerAt_eq_some_iff.mp hr).2
      rw [List.append_nil, List.drop_of_length_le (by omega), hnil] at hread
      cases hread
  | cons c cs ih =>
      have hnext (skip : Nat) (hi : before.length + 1 + skip ≤ i) :
          ∃ m ∈ matchesFrom f (before ++ [c]).length skip
            ((before ++ [c]).getLast?.any isWordChar) cs, m.start ≤ i ∧ i < m.stop := by
        refine ih (before ++ [c]) (by rwa [List.length_append]) ?_
        rwa [List.append_assoc]
      cases skip with
      | succ skip =>
          rw [matchesFrom_skip]
          exact hnext skip (by omega)
      | zero =>
          rw [matchesFrom_cons]
          split
          · rename_i b rest hanswer
            -- what is found covers the place or ends before it
            by_cases hstop : i < before.length + 1 + (cs.length - rest.length)
            · exact ⟨_, List.mem_cons_self, hi, hstop⟩
            · obtain ⟨m, hm, hplace⟩ := hnext (cs.length - rest.length) (by omega)
              exact ⟨m, List.mem_cons_of_mem _ hm, hplace⟩
          · rename_i hanswer
            refine hnext 0 (Nat.lt_of_le_of_ne hi ?_)
            rintro rfl
            rw [hanswer] at h
            cases h

/-- **Each match is read where it says.** -/
theorem readIn_of_mem (hf : Advances Prod.snd f) (h : m ∈ allMatches f q) : m.ReadIn f q :=
  (readIn_of_mem_matchesFrom hf [] h).2

/-- **Matches lie one behind the other.** -/
theorem pairwise_allMatches (hf : Advances Prod.snd f) (q : List Char) :
    (allMatches f q).Pairwise fun a b => a.stop ≤ b.start :=
  pairwise_matchesFrom hf [] 0 q

theorem stop_le_start (hf : Advances Prod.snd f) {m' : Match β} (hm : m ∈ allMatches f q)
    (hm' : m' ∈ allMatches f q) (hlt : m.start < m'.start) : m.stop ≤ m'.start := by
  have hordered := List.pairwise_iff_getElem.mp (pairwise_allMatches hf q)
  obtain ⟨a, ha, rfl⟩ := List.getElem_of_mem hm
  obtain ⟨b, hb, rfl⟩ := List.getElem_of_mem hm'
  rcases Nat.lt_trichotomy a b with hab | rfl | hba
  · exact hordered a b ha hb hab
  · exact absurd hlt (Nat.lt_irrefl _)
  · have hback := hordered b a hb ha hba
    have hread := (readIn_of_mem hf hm').start_lt
    omega

/-- **A place that could be read** is the start of a match or lies within one. -/
theorem exists_match (hnil : f [] = none) {i : Nat} {r : β × List Char}
    (h : answerAt f [] q i = some r) :
    ∃ m ∈ allMatches f q, m.start ≤ i ∧ i < m.stop :=
  exists_match_from hnil [] (Nat.zero_le i) (by rw [List.nil_append, h]; rfl)

end Matches

end IndexAdvisor.Sql
