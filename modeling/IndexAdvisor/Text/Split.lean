/-!
# Cutting a text at one character
-/

set_option autoImplicit false

namespace IndexAdvisor.Text

/-- The parts before and after the first `d`. -/
def splitAtFirst? (d : Char) : List Char → Option (List Char × List Char)
  | [] => none
  | c :: cs => if c = d then some ([], cs) else (splitAtFirst? d cs).map fun r => (c :: r.1, r.2)

/-- The parts before and after the last `d`. -/
def splitAtLast? (d : Char) : List Char → Option (List Char × List Char)
  | [] => none
  | c :: cs =>
    match splitAtLast? d cs with
    | some r => some (c :: r.1, r.2)
    | none => if c = d then some ([], cs) else none

theorem splitAtFirst?_append {d : Char} {a : List Char} (h : d ∉ a) (b : List Char) :
    splitAtFirst? d (a ++ d :: b) = some (a, b) := by
  induction a with
  | nil => simp [splitAtFirst?]
  | cons c a ih =>
      rw [List.mem_cons, not_or] at h
      obtain ⟨hc, ha⟩ := h
      simp [splitAtFirst?, Ne.symm hc, ih ha]

theorem getD_splitAtFirst? (d : Char) (cs : List Char) :
    ((splitAtFirst? d cs).map Prod.fst).getD cs = cs.takeWhile (· != d) := by
  induction cs with
  | nil => rfl
  | cons c cs ih =>
      by_cases hc : c = d
      · rw [splitAtFirst?, if_pos hc, List.takeWhile_cons_of_neg (by simp [hc])]
        rfl
      · rw [splitAtFirst?, if_neg hc, List.takeWhile_cons_of_pos (by simp [hc]), ← ih]
        cases splitAtFirst? d cs with
        | none => rfl
        | some parts => rfl

theorem splitAtLast?_eq_none {d : Char} {a : List Char} (h : d ∉ a) :
    splitAtLast? d a = none := by
  induction a with
  | nil => rfl
  | cons c a ih =>
      rw [List.mem_cons, not_or] at h
      obtain ⟨hc, ha⟩ := h
      simp [splitAtLast?, Ne.symm hc, ih ha]

theorem splitAtLast?_eq_none_iff {d : Char} {cs : List Char} :
    splitAtLast? d cs = none ↔ d ∉ cs := by
  refine ⟨fun h => ?_, splitAtLast?_eq_none⟩
  induction cs with
  | nil => exact List.not_mem_nil
  | cons c cs ih =>
      rw [splitAtLast?] at h
      split at h
      · cases h
      · rename_i hrest
        split at h
        · cases h
        · rename_i hc
          rw [List.mem_cons, not_or]
          exact ⟨Ne.symm hc, ih hrest⟩

theorem splitAtLast?_append {d : Char} {b : List Char} (h : d ∉ b) (a : List Char) :
    splitAtLast? d (a ++ d :: b) = some (a, b) := by
  induction a with
  | nil => simp [splitAtLast?, splitAtLast?_eq_none h]
  | cons c a ih => simp [splitAtLast?, ih]

theorem eq_of_splitAtLast?_eq_some {d : Char} {cs a b : List Char}
    (h : splitAtLast? d cs = some (a, b)) : cs = a ++ d :: b ∧ d ∉ b := by
  induction cs generalizing a with
  | nil => cases h
  | cons c cs ih =>
      rw [splitAtLast?] at h
      split at h
      · rename_i r hr
        cases h
        obtain ⟨hrest, hb⟩ := ih hr
        exact ⟨by rw [List.cons_append, ← hrest], hb⟩
      · rename_i hrest
        split at h
        · rename_i hc
          cases h
          exact ⟨by rw [hc, List.nil_append], splitAtLast?_eq_none_iff.mp hrest⟩
        · cases h

end IndexAdvisor.Text
