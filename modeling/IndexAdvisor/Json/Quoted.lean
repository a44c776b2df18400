import IndexAdvisor.Json.Fault
import IndexAdvisor.Text.Hex

/-!
# Quoted text

The text of a JSON string between its quotes. Writing escapes the quote, the backslash and the
control characters below U+0020, and nothing else. A text that is kept is read with its surrogates
in pairs; a text that is only passed over may hold them as they come. Each character that is read
takes at least one of the written form, so the written form itself bounds the reading.
-/

set_option autoImplicit false

namespace IndexAdvisor.Json

/-! ## Writing -/

/-- The written form of one character. -/
def escapeChar (c : Char) : List Char :=
  if c = '"' then ['\\', '"']
  else if c = '\\' then ['\\', '\\']
  else if 0x20 ≤ c.toNat then [c]
  else
    match c.toNat with
    | 8 => ['\\', 'b']
    | 9 => ['\\', 't']
    | 10 => ['\\', 'n']
    | 12 => ['\\', 'f']
    | 13 => ['\\', 'r']
    | n => ['\\', 'u', '0', '0', Text.hexDigit (n / 16), Text.hexDigit (n % 16)]

/-- The written form of a text, without quotes around it. -/
def escape (cs : List Char) : List Char := cs.flatMap escapeChar

/-- The written form of a text. -/
def quote (cs : List Char) : List Char := '"' :: (escape cs ++ ['"'])

/-! ## Reading -/

/-- The character that a letter after a backslash stands for. -/
def escaped? (c : Char) : Option Char :=
  if c = '"' ∨ c = '\\' ∨ c = '/' then some c
  else if c = 'b' then some (Char.ofNat 8)
  else if c = 'f' then some (Char.ofNat 12)
  else if c = 'n' then some '\n'
  else if c = 'r' then some '\r'
  else if c = 't' then some '\t'
  else none

/-- What an escape stands for: a character, or a 16-bit unit written with four digits. -/
inductive Escaped where
  | char (c : Char)
  | unit (n : Nat)
  deriving DecidableEq, Repr

/-- Reads the four digits of a unit. -/
def readUnit (cs : List Char) : Except Stop (Nat × List Char) :=
  match Text.ofHexDigits? (cs.take 4) with
  | some n => if (cs.take 4).length = 4 then .ok (n, cs.drop 4) else stop .unfinishedString []
  | none =>
    if (Text.Utf8.encode (cs.take 4)).length < 4 then stop .unfinishedString []
    else .error ⟨.flaw .badEscape, cs, 4⟩

/-- Reads an escape after its backslash. -/
def readEscape : List Char → Except Stop (Escaped × List Char)
  | [] => stop .unfinishedString []
  | c :: cs =>
    if c = 'u' then (readUnit cs).map fun r => (.unit r.1, r.2)
    else
      match escaped? c with
      | some c => .ok (.char c, cs)
      | none => refuse .badEscape (c :: cs)

/-- Reads one given character, of the escape that has to follow a high surrogate. -/
def readMark (mark : Char) : List Char → Except Stop (List Char)
  | [] => stop .unfinishedString []
  | c :: cs => if c = mark then .ok cs else refuse .halfPair (c :: cs)

/-- The character that begins with a unit. A high surrogate needs a low one right after it, and a
low one may stand nowhere else. -/
def readPair (n : Nat) (cs : List Char) : Except Stop (Char × List Char) :=
  if 0xDC00 ≤ n ∧ n < 0xE000 then stop .loneSurrogate cs
  else if 0xD800 ≤ n ∧ n < 0xDC00 then do
    let cs ← readMark '\\' cs
    let cs ← readMark 'u' cs
    let (low, cs) ← readUnit cs
    if 0xDC00 ≤ low ∧ low < 0xE000 then
      .ok (Char.ofNat (0x10000 + (n - 0xD800) * 0x400 + (low - 0xDC00)), cs)
    else stop .loneSurrogate cs
  else .ok (Char.ofNat n, cs)

/-- Reads one character of a text that is kept, or its closing quote. -/
def readCharacter : List Char → Except Stop (Option Char × List Char)
  | [] => stop .unfinishedString []
  | c :: cs =>
    if c = '"' then .ok (none, cs)
    else if c = '\\' then do
      match ← readEscape cs with
      | (.char c, cs) => .ok (some c, cs)
      | (.unit n, cs) =>
        let (c, cs) ← readPair n cs
        .ok (some c, cs)
    else if c.toNat < 0x20 then refuse .controlCharacter (c :: cs)
    else .ok (some c, cs)

/-- Passes over one character, or tells that it is the closing quote. -/
def skipCharacter : List Char → Except Stop (Bool × List Char)
  | [] => stop .unfinishedString []
  | c :: cs =>
    if c = '"' then .ok (true, cs)
    else if c = '\\' then (readEscape cs).map fun r => (false, r.2)
    else if c.toNat < 0x20 then stop .controlCharacter (c :: cs)
    else .ok (false, cs)

/-- Reads the characters of a text and its closing quote, one for each character of `bound` at
most. -/
def readQuotedWithin : (bound : List Char) → List Char → Except Stop (List Char × List Char)
  | [], _ => stop .unfinishedString []
  | _ :: bound, cs => do
    match ← readCharacter cs with
    | (none, cs) => .ok ([], cs)
    | (some c, cs) =>
      let (text, cs) ← readQuotedWithin bound cs
      .ok (c :: text, cs)

/-- Reads a text up to its closing quote. -/
def readQuoted (cs : List Char) : Except Stop (List Char × List Char) := readQuotedWithin cs cs

/-- Passes over the characters of a text and its closing quote, one for each character of `bound`
at most. -/
def skipQuotedWithin : (bound : List Char) → List Char → Except Stop (List Char)
  | [], _ => stop .unfinishedString []
  | _ :: bound, cs => do
    let (isClosed, cs) ← skipCharacter cs
    if isClosed then .ok cs else skipQuotedWithin bound cs

/-- Passes over a text and its closing quote. -/
def skipQuoted (cs : List Char) : Except Stop (List Char) := skipQuotedWithin cs cs

end IndexAdvisor.Json
