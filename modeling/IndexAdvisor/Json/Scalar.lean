import IndexAdvisor.Json.Quoted

/-!
# Reading scalars

Space, words, numbers and quoted texts. A number that is only passed over may be of any size.
-/

set_option autoImplicit false

namespace IndexAdvisor.Json

/-! ## Space and words -/

/-- The four characters that may stand between the parts of a value. -/
def isSpace (c : Char) : Bool := c == ' ' || c == '\n' || c == '\t' || c == '\r'

/-- Drops the space in front. -/
def skipSpace (cs : List Char) : List Char := cs.dropWhile isSpace

/-- Reads the letters of a word. -/
def readWord : List Char → List Char → Except Stop (List Char)
  | [], cs => .ok cs
  | _ :: _, [] => stop .unfinishedValue []
  | w :: ws, c :: cs => if c = w then readWord ws cs else refuse .badWord (c :: cs)

/-- Reads space and a colon. -/
def readColon (cs : List Char) : Except Stop (List Char) :=
  match skipSpace cs with
  | [] => stop .unfinishedObject []
  | c :: cs => if c = ':' then .ok cs else refuse .noColon (c :: cs)

/-! ## Numbers -/

/-- Reads one or more digits; `atEnd` is the flaw of a text that ends before them. -/
def readDigits (atEnd : Flaw) (cs : List Char) : Except Stop (List Char × List Char) :=
  match cs with
  | [] => stop atEnd []
  | c :: cs =>
    if c.isDigit then .ok (c :: cs.takeWhile Char.isDigit, cs.dropWhile Char.isDigit)
    else refuse .badNumber (c :: cs)

/-- Reads the digits before the point: a zero alone, or digits that begin with another one. -/
def readWholePart (atEnd : Flaw) (cs : List Char) : Except Stop (List Char × List Char) := do
  let (ds, rest) ← readDigits atEnd cs
  match ds with
  | '0' :: d :: ds => refuse .badNumber (d :: (ds ++ rest))
  | _ => .ok (ds, rest)

/-- Reads a point and digits, if a point is there. -/
def readFractionPart (atEnd : Flaw) : List Char → Except Stop (List Char × List Char)
  | '.' :: cs => readDigits atEnd cs
  | cs => .ok ([], cs)

/-- Reads a sign, if one is there: it is negative. -/
def readSign : List Char → Bool × List Char
  | '+' :: cs => (false, cs)
  | '-' :: cs => (true, cs)
  | cs => (false, cs)

/-- Reads an exponent, if one is there. -/
def readExponent (atEnd : Flaw) (cs : List Char) :
    Except Stop (Option (Bool × List Char) × List Char) :=
  match cs with
  | [] => .ok (none, [])
  | c :: cs =>
    if c = 'e' ∨ c = 'E' then do
      let (negative, cs) := readSign cs
      let (ds, cs) ← readDigits atEnd cs
      .ok (some (negative, ds), cs)
    else .ok (none, c :: cs)

/-- Reads the parts of a number. -/
def readNumeral (atEnd : Flaw) (cs : List Char) : Except Stop (Numeral × List Char) := do
  let (negative, cs) := match cs with
    | '-' :: cs => (true, cs)
    | cs => (false, cs)
  let (whole, cs) ← readWholePart atEnd cs
  let (fraction, cs) ← readFractionPart atEnd cs
  let (exponent, cs) ← readExponent atEnd cs
  .ok (⟨negative, whole, fraction, exponent⟩, cs)

/-- The greatest exponent that is looked at as a whole. -/
def exponentLimit : Nat := UInt32.size / 2 - 1

/-- The digits behind the one with which an exponent exceeds the limit; `n` is what the digits
before write. -/
def behindLimit (n : Nat) : List Char → List Char
  | [] => []
  | d :: ds =>
    let m := 10 * n + (d.toNat - 0x30)
    if exponentLimit < m then ds else behindLimit m ds

/-- Reads a number. -/
def readNumber (cs : List Char) : Except Stop (Number × List Char) := do
  let (n, rest) ← readNumeral .unfinishedValue cs
  match n.value? with
  | some v => .ok (v, rest)
  | none =>
    match n.exponent with
    | some (_, ds) => stop .tooLarge (behindLimit 0 ds ++ rest)
    | none => stop .tooLarge rest

/-- Passes over a number. -/
def skipNumber (cs : List Char) : Except Stop (List Char) :=
  (readNumeral .badNumber cs).map Prod.snd

/-- A number begins here. -/
def isNumberAhead : List Char → Bool
  | [] => false
  | c :: _ => c == '-' || c.isDigit

/-! ## Scalars -/

/-- Reads a scalar. -/
def readScalar (cs : List Char) : Except Stop (Scalar × List Char) :=
  match cs with
  | [] => stop .unfinishedValue []
  | 'n' :: cs => (readWord "ull".toList cs).map fun cs => (.null, cs)
  | 't' :: cs => (readWord "rue".toList cs).map fun cs => (.bool true, cs)
  | 'f' :: cs => (readWord "alse".toList cs).map fun cs => (.bool false, cs)
  | '"' :: cs => (readQuoted cs).map fun r => (.string (String.ofList r.1), r.2)
  | cs =>
    if isNumberAhead cs then (readNumber cs).map fun r => (.number r.1, r.2)
    else refuse .noValue cs

/-- Passes over a scalar. -/
def skipScalar (cs : List Char) : Except Stop (List Char) :=
  match cs with
  | [] => stop .unfinishedValue []
  | 'n' :: cs => readWord "ull".toList cs
  | 't' :: cs => readWord "rue".toList cs
  | 'f' :: cs => readWord "alse".toList cs
  | '"' :: cs => skipQuoted cs
  | cs => if isNumberAhead cs then skipNumber cs else refuse .noValue cs

end IndexAdvisor.Json
