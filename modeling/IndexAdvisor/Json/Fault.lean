import IndexAdvisor.Json.Number
import IndexAdvisor.Text.Shown
import IndexAdvisor.Text.Utf8

/-!
# Faults of written values

A text is read from left to right, and reading stops at the first fault. A `Stop` is what a reader
knows of it: the reason, and the text that was left. A `Fault` places it in the whole text, by line
and by octet in the line.
-/

set_option autoImplicit false

namespace IndexAdvisor.Json

/-! ## Reasons -/

/-- How a text breaks the grammar. -/
inductive Flaw where
  | unfinishedArray
  | unfinishedObject
  | unfinishedString
  | unfinishedValue
  | noColon
  | noItemEnd
  | noMemberEnd
  | badWord
  | noValue
  | badEscape
  | badNumber
  | tooLarge
  | controlCharacter
  | keyNotString
  | loneSurrogate
  | halfPair
  | trailingComma
  | trailingText
  | tooDeep
  deriving DecidableEq, Repr

/-- The words for a flaw. -/
def Flaw.message : Flaw → String
  | unfinishedArray => "EOF while parsing a list"
  | unfinishedObject => "EOF while parsing an object"
  | unfinishedString => "EOF while parsing a string"
  | unfinishedValue => "EOF while parsing a value"
  | noColon => "expected `:`"
  | noItemEnd => "expected `,` or `]`"
  | noMemberEnd => "expected `,` or `\x7d`"
  | badWord => "expected ident"
  | noValue => "expected value"
  | badEscape => "invalid escape"
  | badNumber => "invalid number"
  | tooLarge => "number out of range"
  | controlCharacter => "control character (\\u0000-\\u001F) found while parsing a string"
  | keyNotString => "key must be a string"
  | loneSurrogate => "lone leading surrogate in hex escape"
  | halfPair => "unexpected end of hex escape"
  | trailingComma => "trailing comma"
  | trailingText => "trailing characters"
  | tooDeep => "recursion limit exceeded"

/-- A value without parts. -/
inductive Scalar where
  | null
  | bool (b : Bool)
  | number (n : Number)
  | string (s : String)
  deriving DecidableEq, Repr

/-- What a value is seen to be before its parts are read. -/
inductive Form where
  | scalar (s : Scalar)
  | array
  | object
  deriving DecidableEq, Repr

/-- The words for a number. -/
def Number.shown : Number → String
  | double isNegative size =>
    "floating point `" ++ String.ofList (double isNegative size).render ++ "`"
  | n => "integer `" ++ String.ofList n.render ++ "`"

/-- The words for a form. -/
def Form.shown : Form → String
  | scalar .null => "null"
  | scalar (.bool b) => "boolean `" ++ toString b ++ "`"
  | scalar (.number n) => n.shown
  | scalar (.string s) => "string " ++ Text.shown s
  | array => "sequence"
  | object => "map"

/-- Why a text is not read. -/
inductive Reason where
  | flaw (f : Flaw)
  | missingField (name : String)
  | duplicateField (name : String)
  | unknownVariant (name : String) (names : List String)
  | invalidType (found : Form) (expected : String)
  | invalidValue (found : Number) (expected : String)
  | invalidLength (length : Nat) (expected : String)
  deriving DecidableEq, Repr

/-- The words for a choice of names. -/
def choiceText (names : List String) : String :=
  let quoted := names.map fun n => "`" ++ n ++ "`"
  match quoted with
  | [] => "nothing"
  | [n] => n
  | [m, n] => m ++ " or " ++ n
  | ns => "one of " ++ ", ".intercalate ns

/-- The words for a reason. -/
def Reason.message : Reason → String
  | flaw f => f.message
  | missingField name => "missing field `" ++ name ++ "`"
  | duplicateField name => "duplicate field `" ++ name ++ "`"
  | unknownVariant name names => "unknown variant `" ++ name ++ "`, expected " ++ choiceText names
  | invalidType found expected => "invalid type: " ++ found.shown ++ ", expected " ++ expected
  | invalidValue found expected => "invalid value: " ++ found.shown ++ ", expected " ++ expected
  | invalidLength length expected =>
    "invalid length " ++ toString length ++ ", expected " ++ expected

/-! ## Places -/

/-- Where reading stops: at the text that is left, or so many octets into it. -/
structure Stop where
  reason : Reason
  rest : List Char
  ahead : Nat
  deriving DecidableEq, Repr

/-- Stops at a flaw in front of the text that is left. -/
def stop {α : Type} (f : Flaw) (rest : List Char) : Except Stop α := .error ⟨.flaw f, rest, 0⟩

/-- Stops at a flaw in the next octet of the text that is left, if there is one. -/
def refuse {α : Type} (f : Flaw) (rest : List Char) : Except Stop α := .error ⟨.flaw f, rest, 1⟩

/-- Why and where a text is not read. Lines are counted from 1. -/
structure Fault where
  reason : Reason
  line : Nat
  /-- How many octets of the line have been read. -/
  column : Nat
  deriving DecidableEq, Repr

/-- The words for a fault. -/
def Fault.message (f : Fault) : String :=
  f.reason.message ++ " at line " ++ toString f.line ++ " column " ++ toString f.column

/-- The fault at which reading a whole text stops. -/
def Stop.inText (s : Stop) (whole : List Char) : Fault :=
  let octets := Text.Utf8.encode whole
  let read := octets.take (octets.length - (Text.Utf8.encode s.rest).length + s.ahead)
  ⟨s.reason, read.count 10 + 1, (read.reverse.takeWhile (· != 10)).length⟩

end IndexAdvisor.Json
