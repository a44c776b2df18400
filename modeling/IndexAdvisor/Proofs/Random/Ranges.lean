import IndexAdvisor.Proofs.Random.Tosses
import IndexAdvisor.Random.Scripted
import IndexAdvisor.Random.Seeded
import Mathlib.Data.List.Forall2

/-!
# Ranges of draws

A source is lawful if what it draws from a range lies in this range, unless the range is empty. The
scripted and the seeded sources are, and so is each source that is made of lawful ones. What holds
of the answers of a program that draws, however the draws fall, is said by `Ensures`.
-/

set_option autoImplicit false

namespace IndexAdvisor.Random

/-- A source that stays within the ranges it draws from. -/
class LawfulSource (σ : Type) [Source σ] : Prop where
  nextInRange_bounds : ∀ {low high : Nat}, low < high → ∀ s : σ,
    low ≤ (Source.nextInRange low high s).1 ∧ (Source.nextInRange low high s).1 < high

/-! ## What a program ensures -/

section Ensures

variable {σ α β : Type}

/-- The answer of the program has the property in every state. -/
def Ensures (x : StateM σ α) (P : α → Prop) : Prop := ∀ s, P (x s).1

variable {x : StateM σ α} {P : α → Prop}

theorem ensures_true (x : StateM σ α) : Ensures x fun _ => True := fun _ => trivial

theorem ensures_pure {a : α} (h : P a) : Ensures (pure a : StateM σ α) P := fun _ => h

theorem Ensures.bind {f : α → StateM σ β} {Q : β → Prop} (hx : Ensures x P)
    (hf : ∀ a, P a → Ensures (f a) Q) : Ensures (x >>= f) Q :=
  fun s => hf (x s).1 (hx s) (x s).2

theorem ensures_nextInRange [Source σ] [LawfulSource σ] {low high : Nat} (h : low < high) :
    Ensures (σ := σ) (Source.nextInRange low high) fun n => low ≤ n ∧ n < high :=
  LawfulSource.nextInRange_bounds h

theorem ensures_mapM {f : α → StateM σ β} {R : α → β → Prop} (h : ∀ a, Ensures (f a) (R a))
    (as : List α) : Ensures (as.mapM f) (List.Forall₂ R as) := by
  induction as with
  | nil => exact ensures_pure .nil
  | cons a as ih =>
      rw [List.mapM_cons]
      exact (h a).bind fun b hb => ih.bind fun bs hbs => ensures_pure (.cons hb hbs)

end Ensures

/-! ## Lawful sources -/

instance {σ τ : Type} [Source σ] [Source τ] [LawfulSource σ] [LawfulSource τ] :
    LawfulSource (σ ⊕ τ) where
  nextInRange_bounds h
    | .inl s => LawfulSource.nextInRange_bounds h s
    | .inr s => LawfulSource.nextInRange_bounds h s

instance {σ : Type} [Source σ] [LawfulSource σ] : LawfulSource (Tossing σ) where
  nextInRange_bounds h t := LawfulSource.nextInRange_bounds h t.source

instance : LawfulSource Scripted where
  nextInRange_bounds {low high} h s := by
    have hoffset := Nat.mod_lt (Scripted.entry s.ranges s.rangesTaken) (Nat.sub_pos_of_lt h)
    show low ≤ (if high ≤ low then low else _) ∧ (if high ≤ low then low else _) < high
    rw [if_neg (Nat.not_le.mpr h)]
    omega

namespace Seeded

/-- The upper half of a product with a word is below the other factor. -/
theorem ensures_below {width : Nat} (h : 0 < width) (zone refusals : Nat) :
    Ensures (below width zone refusals) (· < width) := by
  induction refusals with
  | zero => exact ensures_pure h
  | succ refusals ih =>
      refine (ensures_true nextWord).bind fun word _ => ?_
      have hproduct : word.toNat * width < UInt32.size * width :=
        Nat.mul_lt_mul_of_pos_right (UInt32.toNat_lt_size word) h
      by_cases htaken : word.toNat * width % UInt32.size ≤ zone
      · rw [if_pos htaken]
        exact ensures_pure (Nat.div_lt_of_lt_mul hproduct)
      · rw [if_neg htaken]
        exact ih

theorem ensures_nextInRange {low high : Nat} (h : low < high) :
    Ensures (σ := Seeded) (Source.nextInRange low high) fun n => low ≤ n ∧ n < high := by
  show Ensures (if high ≤ low then _ else _) _
  rw [if_neg (Nat.not_le.mpr h)]
  refine (ensures_below (Nat.sub_pos_of_lt h) _ _).bind fun offset hoffset => ensures_pure ?_
  omega

instance : LawfulSource Seeded where
  nextInRange_bounds h := ensures_nextInRange h

end Seeded

end IndexAdvisor.Random
