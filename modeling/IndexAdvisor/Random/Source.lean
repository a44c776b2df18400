/-!
# Random sources

Where the simulated figures come from. A source gives natural numbers in a range and fractions of
one; a coin is a fraction of at least one half.
-/

set_option autoImplicit false

namespace IndexAdvisor.Random

/-- A source of random draws with states of type `σ`. -/
class Source (σ : Type) where
  /-- A number that is at least the first bound and below the second; the first bound where the
  range is empty. -/
  nextInRange : Nat → Nat → StateM σ Nat
  /-- A number that is at least 0 and below 1. -/
  nextUnit : StateM σ Float

/-- The toss of a coin. -/
def coinFlip {σ : Type} [Source σ] : StateM σ Bool := do
  return decide ((0.5 : Float) ≤ (← Source.nextUnit))

/-- One of two sources. -/
instance {σ τ : Type} [Source σ] [Source τ] : Source (σ ⊕ τ) where
  nextInRange low high
    | .inl s => let r := Source.nextInRange low high s; (r.1, .inl r.2)
    | .inr s => let r := Source.nextInRange low high s; (r.1, .inr r.2)
  nextUnit
    | .inl s => let r := Source.nextUnit s; (r.1, .inl r.2)
    | .inr s => let r := Source.nextUnit s; (r.1, .inr r.2)

end IndexAdvisor.Random
