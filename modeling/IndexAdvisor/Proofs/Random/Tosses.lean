import IndexAdvisor.Random.Source
import Mathlib.Algebra.GroupWithZero.Nat

/-!
# Tosses

A source does not tell how its coins fell. A `Tossing` source is a source that also keeps a list of
that, and otherwise draws as the source does. What is found out about the draws of a program is said
by `Notes`: the program does the same with both sources, and the tosses that it adds to the list fit
what it answers.
-/

set_option autoImplicit false

namespace IndexAdvisor.Random

/-- A source, and how its coins have fallen so far. -/
structure Tossing (σ : Type) where
  source : σ
  tosses : List Bool

instance {σ : Type} [Source σ] : Source (Tossing σ) where
  nextInRange low high t :=
    let r := Source.nextInRange low high t.source
    (r.1, { t with source := r.2 })
  nextUnit t :=
    let r := Source.nextUnit t.source
    (r.1, ⟨r.2, t.tosses ++ [decide ((0.5 : Float) ≤ r.1)]⟩)

/-! ## Noted programs -/

section Notes

variable {σ τ α β : Type} {R : σ → τ → List Bool → Prop}

/-- The programs answer the same. Where the states before them are in the relation with some tosses,
those after them are with `more` tosses behind, and these fit the answer. -/
def Notes (R : σ → τ → List Bool → Prop) (x : StateM σ α) (y : StateM τ α)
    (P : List Bool → α → Prop) : Prop :=
  ∀ s t tosses, R s t tosses →
    ∃ more, (y t).1 = (x s).1 ∧ R (x s).2 (y t).2 (tosses ++ more) ∧ P more (x s).1

variable {x : StateM σ α} {y : StateM τ α} {P : List Bool → α → Prop}

theorem notes_pure {a : α} (h : P [] a) : Notes R (pure a) (pure a) P := by
  intro s t tosses hR
  refine ⟨[], rfl, ?_, h⟩
  rw [List.append_nil]
  exact hR

theorem Notes.bind {f : α → StateM σ β} {g : α → StateM τ β} {Q : List Bool → β → Prop}
    (hx : Notes R x y P)
    (hf : ∀ first a, P first a → Notes R (f a) (g a) fun more b => Q (first ++ more) b) :
    Notes R (x >>= f) (y >>= g) Q := by
  intro s t tosses hR
  obtain ⟨first, hanswer, hR', hP⟩ := hx s t tosses hR
  obtain ⟨more, hanswer', hR'', hQ⟩ := hf first _ hP _ _ _ hR'
  refine ⟨first ++ more, ?_, ?_, hQ⟩
  · show (g (y t).1 (y t).2).1 = (f (x s).1 (x s).2).1
    rw [hanswer, hanswer']
  · show R (f (x s).1 (x s).2).2 (g (y t).1 (y t).2).2 _
    rw [hanswer, ← List.append_assoc]
    exact hR''

end Notes

/-! ## Lists of programs -/

section Parts

variable {σ τ α β γ : Type} {R : σ → τ → List Bool → Prop}

/-- The tosses fall into parts, one for each of some values, which fit its answer. -/
def Parts (P : α → List Bool → β → Prop) : List α → List Bool → List β → Prop
  | [], tosses, bs => tosses = [] ∧ bs = []
  | a :: as, tosses, bs =>
    ∃ first more b rest, tosses = first ++ more ∧ bs = b :: rest ∧ P a first b ∧
      Parts P as more rest

theorem notes_mapM {f : α → StateM σ β} {g : α → StateM τ β} {P : α → List Bool → β → Prop}
    (h : ∀ a, Notes R (f a) (g a) (P a)) (as : List α) :
    Notes R (as.mapM f) (as.mapM g) (Parts P as) := by
  induction as with
  | nil => exact notes_pure ⟨rfl, rfl⟩
  | cons a as ih =>
      rw [List.mapM_cons, List.mapM_cons]
      refine (h a).bind fun first b hb => ih.bind fun more bs hbs => notes_pure ?_
      exact ⟨first, more, b, bs, by rw [List.append_nil], rfl, hb, hbs⟩

/-- There are as many tosses as the parts have. -/
theorem Parts.length_eq {P : α → List Bool → β → Prop} {count : α → Nat}
    (hP : ∀ a tosses b, P a tosses b → tosses.length = count a) {as : List α} {tosses : List Bool}
    {bs : List β} (h : Parts P as tosses bs) : tosses.length = (as.map count).sum := by
  induction as generalizing tosses bs with
  | nil =>
      obtain ⟨rfl, -⟩ := h
      rfl
  | cons a as ih =>
      obtain ⟨first, more, b, rest, rfl, -, hb, hrest⟩ := h
      rw [List.length_append, List.map_cons, List.sum_cons, hP a first b hb, ih hrest]

/-- What is shown of the answers tells the tosses, if each answer tells its part and the lengths of
the parts are known. -/
theorem Parts.map_eq_iff {P : α → List Bool → β → Prop} {count : α → Nat} {view : β → γ}
    {viewOf : α → List Bool → γ}
    (hP : ∀ a tosses b, P a tosses b → tosses.length = count a ∧ view b = viewOf a tosses)
    (hinj : ∀ a tosses tosses', tosses.length = count a → tosses'.length = count a →
      viewOf a tosses = viewOf a tosses' → tosses = tosses')
    {as : List α} {tosses tosses' : List Bool} {bs bs' : List β} (h : Parts P as tosses bs)
    (h' : Parts P as tosses' bs') : bs.map view = bs'.map view ↔ tosses = tosses' := by
  induction as generalizing tosses tosses' bs bs' with
  | nil =>
      obtain ⟨rfl, rfl⟩ := h
      obtain ⟨rfl, rfl⟩ := h'
      simp
  | cons a as ih =>
      obtain ⟨first, more, b, rest, rfl, rfl, hb, hrest⟩ := h
      obtain ⟨first', more', b', rest', rfl, rfl, hb', hrest'⟩ := h'
      obtain ⟨hlength, hshown⟩ := hP a first b hb
      obtain ⟨hlength', hshown'⟩ := hP a first' b' hb'
      rw [List.map_cons, List.map_cons, List.cons.injEq, ih hrest hrest', hshown, hshown']
      -- parts of known lengths are told apart in the tosses as in the answers
      constructor
      · rintro ⟨hfirst, rfl⟩
        rw [hinj a first first' hlength hlength' hfirst]
      · intro happend
        obtain ⟨rfl, rfl⟩ := List.append_inj happend (hlength.trans hlength'.symm)
        exact ⟨rfl, rfl⟩

/-- What does not depend on the tosses is known of each answer. -/
theorem Parts.map_eq {P : α → List Bool → β → Prop} {view : β → γ} {viewOf : α → γ}
    (hP : ∀ a tosses b, P a tosses b → view b = viewOf a) {as : List α} {tosses : List Bool}
    {bs : List β} (h : Parts P as tosses bs) : bs.map view = as.map viewOf := by
  induction as generalizing tosses bs with
  | nil =>
      obtain ⟨-, rfl⟩ := h
      rfl
  | cons a as ih =>
      obtain ⟨first, more, b, rest, -, rfl, hb, hrest⟩ := h
      rw [List.map_cons, List.map_cons, hP a first b hb, ih hrest]

end Parts

/-! ## Draws -/

section Draws

variable {σ : Type} [Source σ]

/-- The second source is the first one with these tosses kept. -/
def Kept (s : σ) (t : Tossing σ) (tosses : List Bool) : Prop := t = ⟨s, tosses⟩

theorem notes_nextInRange (low high : Nat) :
    Notes (Kept (σ := σ)) (Source.nextInRange low high) (Source.nextInRange low high)
      fun tosses _ => tosses = [] := by
  rintro s t tosses rfl
  refine ⟨[], rfl, ?_, rfl⟩
  rw [List.append_nil]
  rfl

theorem notes_coinFlip :
    Notes (Kept (σ := σ)) coinFlip coinFlip fun tosses coin => tosses = [coin] := by
  rintro s t tosses rfl
  exact ⟨[(coinFlip s).1], rfl, rfl, rfl⟩

end Draws

end IndexAdvisor.Random
