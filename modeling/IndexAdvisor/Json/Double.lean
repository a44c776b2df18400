/-!
# Numbers in double precision

A number in double precision is `significand * 2 ^ exponent` with at most 53 bits. A decimal number
is brought to double precision step by step: its digits, its power of ten, and their product or
quotient are each rounded to the nearest such number, to the even one on a tie. So is every result
of an operation on such numbers. A number is shown with the fewest digits to which no other number
is nearer.
-/

set_option autoImplicit false

namespace IndexAdvisor.Json

/-- A number in double precision that is not negative. -/
structure Double where
  significand : Nat
  exponent : Int
  deriving DecidableEq, Repr

namespace Double

/-! ## Rounding -/

/-- The exponent of the numbers nearest to zero. -/
def leastExponent : Int := -1074

/-- The exponent of the largest numbers. -/
def greatestExponent : Int := 971

/-- `a / b`, rounded to the nearest natural number; a tie goes to the even one. -/
def divideRounding (a b : Nat) : Nat :=
  let q := a / b
  let r := a % b
  if b < 2 * r ∨ (b = 2 * r ∧ q % 2 = 1) then q + 1 else q

/-- The number nearest to `a / b * 2 ^ e`. -/
def nearest (a b : Nat) (e : Int) : Double :=
  if a = 0 then ⟨0, leastExponent⟩
  else
    let scale : Int := (a.log2 : Int) - b.log2
    let isBelow := decide (a <<< (-scale).toNat < b <<< scale.toNat)
    let drop := max (scale - (if isBelow then 53 else 52)) (leastExponent - e)
    let s := divideRounding (a <<< (-drop).toNat) (b <<< drop.toNat)
    if s = 1 <<< 53 then ⟨1 <<< 52, drop + e + 1⟩ else ⟨s, drop + e⟩

/-- The number is beyond the largest one. -/
def isInfinite (d : Double) : Bool := decide (greatestExponent < d.exponent)

/-- The number nearest to a natural number. -/
def ofNat (n : Nat) : Double := nearest n 1 0

/-- The bit in front of the 52 bits of a fraction. -/
def leadingBit : Nat := 1 <<< 52

/-- A number of the machine that is finite and not negative. -/
def ofFloat (x : Float) : Double :=
  let bits := x.toBits.toNat
  let fraction := bits % leadingBit
  match bits / leadingBit with
  | 0 => ⟨fraction, leastExponent⟩
  | e + 1 => ⟨leadingBit + fraction, leastExponent + e⟩

/-- The machine number. -/
def toFloat (d : Double) : Float := (Float.ofNat d.significand).scaleB d.exponent

/-- The sum of two numbers. -/
def plus (c d : Double) : Double :=
  let e := min c.exponent d.exponent
  nearest (c.significand <<< (c.exponent - e).toNat + d.significand <<< (d.exponent - e).toNat) 1 e

/-- The difference of two numbers, the first of which is not the smaller one. -/
def minus (c d : Double) : Double :=
  let e := min c.exponent d.exponent
  nearest (c.significand <<< (c.exponent - e).toNat - d.significand <<< (d.exponent - e).toNat) 1 e

/-- The product of two numbers. -/
def times (c d : Double) : Double :=
  nearest (c.significand * d.significand) 1 (c.exponent + d.exponent)

/-- The quotient of two numbers. -/
def quotient (c d : Double) : Double :=
  nearest c.significand d.significand (c.exponent - d.exponent)

/-- The nearest natural number; a half goes up. -/
def round (d : Double) : Nat :=
  let unit := 1 <<< (-d.exponent).toNat
  (2 * d.significand <<< d.exponent.toNat + unit) / (2 * unit)

/-- A power of ten. -/
def powerOfTen (k : Nat) : Double := nearest (Nat.pow 10 k) 1 0

/-- The largest power of ten whose exponent is taken in one step. -/
def powerLimit : Nat := 308

/-- The number that `digits * 10 ^ power` stands for, unless it is too large. -/
def ofDecimal? (digits : Nat) (power : Int) : Option Double :=
  let d := nearest digits 1 0
  if digits = 0 then some d
  else if powerLimit < power then none
  else if 0 ≤ power then
    let product := d.times (powerOfTen power.toNat)
    if product.isInfinite then none else some product
  else if -powerLimit ≤ power then some (d.quotient (powerOfTen (-power).toNat))
  else if -2 * powerLimit ≤ power then
    some ((d.quotient (powerOfTen powerLimit)).quotient (powerOfTen (-power - powerLimit).toNat))
  else some ⟨0, leastExponent⟩

/-! ## Shortest digits -/

/-- How `a * 10 ^ k` compares with `b * 2 ^ e`. -/
def compareScaled (a : Nat) (k : Int) (b : Nat) (e : Int) : Ordering :=
  compare ((a * Nat.pow 10 k.toNat) <<< (-e).toNat) ((b * Nat.pow 10 (-k).toNat) <<< e.toNat)

/-- No other number is nearer to `a * 10 ^ k`. Half way between two numbers the even one counts as
the nearer; the neighbour below a power of two is half as far as the one above. -/
def isNearestTo (d : Double) (a : Nat) (k : Int) : Bool :=
  let isNarrow := d.significand == 1 <<< 52 && decide (leastExponent < d.exponent)
  let low := compareScaled a k (4 * d.significand - if isNarrow then 1 else 2) (d.exponent - 2)
  let high := compareScaled a k (4 * d.significand + 2) (d.exponent - 2)
  if d.significand % 2 = 0 then low != .lt && high != .gt else low == .gt && high == .lt

/-- The multiple of `10 ^ k` that stands for the number, if there is one: the nearer of the two
around it, the even one of two equally near. -/
def multiple? (d : Double) (k : Int) : Option Nat :=
  let a := (d.significand * Nat.pow 10 (-k).toNat) <<< d.exponent.toNat /
    (Nat.pow 10 k.toNat <<< (-d.exponent).toNat)
  if d.isNearestTo a k then
    if d.isNearestTo (a + 1) k then
      match compareScaled (2 * a + 1) k (2 * d.significand) d.exponent with
      | .gt => some a
      | .lt => some (a + 1)
      | .eq => some (a + a % 2)
    else some a
  else if d.isNearestTo (a + 1) k then some (a + 1)
  else none

/-- The powers of ten that the fewest digits may count, from the largest on. The number is below
`2 ^ (significand.log2 + exponent + 1)`, which bounds them, and seventeen digits are always enough;
30103/100000 stands for the logarithm of two. -/
def powers (d : Double) : List Int :=
  let bits : Int := d.significand.log2 + d.exponent + 1
  let top := bits * 30103 / 100000 + 1
  (List.range 20).map fun (i : Nat) => top - (i : Int)

/-- The fewest digits that stand for the number, and the power of ten that they count. -/
def shortest (d : Double) : Nat × Int :=
  (d.powers.findSome? fun k => (d.multiple? k).map fun a => (a, k)).getD (0, 0)

/-! ## Text -/

/-- How `a * 10 ^ k` is written: in full if its first digit stands at most 16 places before the
point and the number is not below 1/100000, else with an exponent. A point is always followed by a
digit. -/
def layout (a : Nat) (k : Int) : List Char :=
  let ds := Nat.toDigits 10 a
  let point : Int := ds.length + k
  if 0 ≤ k ∧ point ≤ 16 then ds ++ List.replicate k.toNat '0' ++ ['.', '0']
  else if 0 < point ∧ point ≤ 16 then ds.take point.toNat ++ '.' :: ds.drop point.toNat
  else if -5 < point ∧ point ≤ 0 then '0' :: '.' :: (List.replicate (-point).toNat '0' ++ ds)
  else
    ds.take 1 ++ (if ds.length = 1 then [] else '.' :: ds.drop 1) ++
      'e' :: (if point ≤ 0 then '-' else '+') :: Nat.toDigits 10 (point - 1).natAbs

/-- How the number is written. -/
def text (d : Double) : List Char :=
  if d.significand = 0 then ['0', '.', '0']
  else
    let (a, k) := d.shortest
    layout a k

end Double

end IndexAdvisor.Json
