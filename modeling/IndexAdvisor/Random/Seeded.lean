import IndexAdvisor.Random.Keystream
import IndexAdvisor.Random.Source

/-!
# Seeded sources

A source that is fixed by a seed of 64 bits: the seed is spread into a key by a congruential
generator, and draws are made from the words of the keystream, one after the other.
-/

set_option autoImplicit false

namespace IndexAdvisor.Random

/-- A stream and the position of its next word. -/
structure Seeded where
  key : Key
  position : Nat
  deriving Repr

namespace Seeded

/-- The generator that spreads a seed: its next state. -/
def spread (state : UInt64) : UInt64 := state * 6364136223846793005 + 11634580027462260723

/-- The word that a state of the generator gives. -/
def keyWord (state : UInt64) : UInt32 :=
  let x := (((state >>> 18) ^^^ state) >>> 27).toUInt32
  let r := (state >>> 59).toUInt32
  if r = 0 then x else (x >>> r) ||| (x <<< (32 - r))

/-- The state of the generator after so many steps. -/
def spreadBy : Nat → UInt64 → UInt64
  | 0, state => state
  | n + 1, state => spread (spreadBy n state)

/-- The source of a seed. -/
def ofSeed (seed : UInt64) : Seeded :=
  ⟨Vector.ofFn fun i => keyWord (spreadBy (i.val + 1) seed), 0⟩

/-- Takes the next word. -/
def nextWord : StateM Seeded UInt32 := fun s =>
  (streamWord s.key s.position, { s with position := s.position + 1 })

/-- How often a draw from a range may be refused. A refusal has a chance below one half, so that
this bound is never met in practice. -/
def maxRefusals : Nat := 256

/-- Draws a number below `width` without a bias: the product of the width and a word, cut into two
halves of 32 bits, is taken if its low half does not exceed `zone`. -/
def below (width zone : Nat) : Nat → StateM Seeded Nat
  | 0 => return 0
  | n + 1 => do
    let product := (← nextWord).toNat * width
    if product % UInt32.size ≤ zone then return product / UInt32.size else below width zone n

/-- The largest low half that `below` takes: the width moved up until its top bit is the top bit
of a word, less one. -/
def zone (width : Nat) : Nat := width <<< (31 - width.log2) - 1

/-- The fraction that two words make: their top 53 bits over 2^53. -/
def unit (low high : UInt32) : Float :=
  let bits := (high.toUInt64 <<< 32 ||| low.toUInt64) >>> 11
  bits.toFloat * (1 / 9007199254740992)

instance : Source Seeded where
  nextInRange low high :=
    if high ≤ low then return low
    else do return low + (← below (high - low) (zone (high - low)) maxRefusals)
  nextUnit := do
    let low ← nextWord
    let high ← nextWord
    return unit low high

end Seeded

end IndexAdvisor.Random
