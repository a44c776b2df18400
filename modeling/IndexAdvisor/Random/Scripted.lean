import IndexAdvisor.Random.Source

/-!
# Scripted sources

A source that repeats given draws and keeps a record of what was asked of it. An analysis can be
replayed with one, and its use of chance inspected.
-/

set_option autoImplicit false

namespace IndexAdvisor.Random

/-- What was asked of a source. -/
inductive Draw where
  | range (low high : Nat)
  | unit
  deriving DecidableEq, Repr

/-- Two lists of draws, gone through again and again, and the draws made so far, the last first. -/
structure Scripted where
  /-- Offsets into the ranges. -/
  ranges : List Nat
  /-- Fractions in thousandths. -/
  units : List Nat
  rangesTaken : Nat
  unitsTaken : Nat
  made : List Draw
  deriving Repr

namespace Scripted

/-- A source at the start of its lists. -/
def start (ranges units : List Nat) : Scripted := ⟨ranges, units, 0, 0, []⟩

/-- The entry of a list that is gone through again and again; 0 of an empty list. -/
def entry (xs : List Nat) (taken : Nat) : Nat := xs.getD (taken % xs.length) 0

/-- The draws made so far, in order. -/
def draws (s : Scripted) : List Draw := s.made.reverse

instance : Source Scripted where
  nextInRange low high s :=
    let offset := entry s.ranges s.rangesTaken
    (if high ≤ low then low else low + offset % (high - low),
      { s with rangesTaken := s.rangesTaken + 1, made := .range low high :: s.made })
  nextUnit s :=
    (Float.ofNat (entry s.units s.unitsTaken) / 1000,
      { s with unitsTaken := s.unitsTaken + 1, made := .unit :: s.made })

end Scripted

end IndexAdvisor.Random
