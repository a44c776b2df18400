import IndexAdvisor.Json.Double

/-!
# Numbers

What a written number means: a natural number below 2^64, a negative number down to -2^63, or
anything else, which is a number in double precision. A number too large for double precision means
nothing.
-/

set_option autoImplicit false

namespace IndexAdvisor.Json

/-- A number as its parts are written. -/
structure Numeral where
  negative : Bool
  whole : List Char
  /-- The digits after the point; empty without a point. -/
  fraction : List Char
  /-- The digits of the exponent and whether it is negative. -/
  exponent : Option (Bool × List Char)
  deriving DecidableEq, Repr

/-- A number. -/
inductive Number where
  /-- A number from 0 to 2^64 - 1. -/
  | natural (n : Nat)
  /-- The number -n, with n from 1 to 2^63. -/
  | negative (n : Nat)
  /-- Any other number, in double precision; zero has a sign as well. -/
  | double (isNegative : Bool) (size : Double)
  deriving DecidableEq, Repr

/-- The written form of a number. -/
def Number.render : Number → List Char
  | natural n => Nat.toDigits 10 n
  | negative n => '-' :: Nat.toDigits 10 n
  | double isNegative size => (if isNegative then ['-'] else []) ++ size.text

/-! ## Meaning -/

/-- The number that decimal digits write. -/
def ofDigits (ds : List Char) : Nat := Nat.ofDigitChars 10 ds 0

/-- The number that `n` and the digits behind it write, as long as it stays below 2^64, and how
many digits are left then. -/
def significand (n : Nat) : List Char → Nat × Nat
  | [] => (n, 0)
  | d :: ds =>
    let m := 10 * n + (d.toNat - 0x30)
    if m < UInt64.size then significand m ds else (n, ds.length + 1)

namespace Numeral

/-- The power of ten that the written exponent asks for. -/
def power (n : Numeral) : Int :=
  match n.exponent with
  | none => 0
  | some (true, ds) => -(ofDigits ds : Int)
  | some (false, ds) => ofDigits ds

/-- The leading digits, as many as fit 64 bits, and the power of ten that they count. The digits of
the whole part and of the fraction are cut apart from each other. -/
def decimal (n : Numeral) : Nat × Int :=
  let (s, dropped) := significand 0 n.whole
  let (s, left) := significand s n.fraction
  (s, n.power + dropped + left - n.fraction.length)

/-- The number in double precision, unless it is too large. -/
def double? (n : Numeral) : Option Number :=
  let (s, e) := n.decimal
  (Double.ofDecimal? s e).map (Number.double n.negative)

/-- The number is written without point and exponent. -/
def isWhole (n : Numeral) : Bool := n.fraction.isEmpty && n.exponent.isNone

/-- What a numeral means, unless it is too large. -/
def value? (n : Numeral) : Option Number :=
  let m := ofDigits n.whole
  if n.isWhole && !n.negative && decide (m < UInt64.size) then some (.natural m)
  else if n.isWhole && n.negative && decide (0 < m) && decide (m ≤ UInt64.size / 2) then
    some (.negative m)
  else n.double?

end Numeral

end IndexAdvisor.Json
