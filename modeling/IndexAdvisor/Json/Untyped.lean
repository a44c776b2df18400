import IndexAdvisor.Json.Basic
import IndexAdvisor.Json.Parts

/-!
# Values of any form

Two ways to read a value whose form nothing prescribes. `skipValue` passes over it and looks at its
grammar only: it takes any nesting, numbers of any size and surrogates on their own. `readValue`
keeps the value, and refuses all of these.
-/

set_option autoImplicit false

namespace IndexAdvisor.Json

/-! ## Passing over a value -/

/-- What stands behind the opening of an array or object: its end, or a part of it. -/
def skipOpening (close : Char) (atEnd : Flaw) (cs : List Char) : Except Stop (Bool × List Char) :=
  match skipSpace cs with
  | [] => stop atEnd []
  | c :: cs => if c = close then .ok (true, cs) else .ok (false, c :: cs)

/-- What stands behind a part of an array or object: its end, or a comma before another part. -/
def skipSeparator (close : Char) (atEnd other : Flaw) (cs : List Char) :
    Except Stop (Bool × List Char) :=
  match skipSpace cs with
  | [] => stop atEnd []
  | c :: cs =>
    if c = close then .ok (true, cs)
    else if c = ',' then .ok (false, cs)
    else refuse other (c :: cs)

/-- Passes over the name of a member. -/
def skipName (cs : List Char) : Except Stop (List Char) :=
  match skipSpace cs with
  | [] => stop .unfinishedObject []
  | c :: cs => if c = '"' then skipQuoted cs else refuse .keyNotString (c :: cs)

/-- What has been opened and not yet closed. -/
inductive Opened where
  | array
  | object
  deriving DecidableEq, Repr

/-- What stands behind a part of what is open: its end, or a comma before another part. -/
def skipBehind : Opened → List Char → Except Stop (Bool × List Char)
  | .array, cs => skipSeparator ']' .unfinishedArray .noItemEnd cs
  | .object, cs => skipSeparator '}' .unfinishedObject .noMemberEnd cs

/-- Passes over what stands in front of the value of a part: its name and a colon in an object. -/
def skipFront : Opened → List Char → Except Stop (List Char)
  | .array, cs => .ok cs
  | .object, cs => do readColon (← skipName cs)

mutual

/-- Passes over a value and all that follows it in what is open, the innermost first. Each step
takes a character of the text, and `bound` has one for each. -/
def skipWithin : (bound : List Char) → List Opened → List Char → Except Stop (List Char)
  | [], _, _ => stop .unfinishedValue []
  | _ :: bound, opened, cs =>
    match skipSpace cs with
    | '[' :: cs => do
      let (isClosed, cs) ← skipOpening ']' .unfinishedArray cs
      if isClosed then skipOn bound opened cs else skipWithin bound (.array :: opened) cs
    | '{' :: cs => do
      let (isClosed, cs) ← skipOpening '}' .unfinishedObject cs
      if isClosed then skipOn bound opened cs
      else skipWithin bound (.object :: opened) (← skipFront .object cs)
    | cs => do skipOn bound opened (← skipScalar cs)

/-- Passes over all that follows a part of what is open. -/
def skipOn : (bound : List Char) → List Opened → List Char → Except Stop (List Char)
  | _, [], cs => .ok cs
  | [], o :: _, _ => (skipBehind o []).map Prod.snd
  | _ :: bound, o :: opened, cs => do
    let (isClosed, cs) ← skipBehind o cs
    if isClosed then skipOn bound opened cs
    else skipWithin bound (o :: opened) (← skipFront o cs)

end

/-- Passes over one value. -/
def skipValue (cs : List Char) : Except Stop (List Char) := skipWithin cs [] cs

/-! ## Keeping a value -/

/-- A scalar as a value. -/
def Scalar.toJson : Scalar → Json
  | null => .null
  | bool b => .bool b
  | number n => .number n
  | string s => .string s

/-- How many levels of arrays and objects a text may have where they are kept. -/
def maxNesting : Nat := 127

/-- Reads one value that may hold `room` levels of arrays and objects. -/
def readValue (room : Nat) (cs : List Char) : Except Stop (Json × List Char) :=
  match skipSpace cs with
  | '[' :: cs =>
    match room with
    | 0 => refuse .tooDeep ('[' :: cs)
    | room + 1 => do
      let (items, cs) ← readAll (readValue room) cs
      .ok (.array items, cs)
  | '{' :: cs =>
    match room with
    | 0 => refuse .tooDeep ('{' :: cs)
    | room + 1 => do
      let readMember (name : List Char) (members : List (String × Json)) (cs : List Char) := do
        let (v, cs) ← readValue room (← readColon cs)
        .ok ((String.ofList name, v) :: members, cs)
      let (members, cs) ← readInto readMember [] cs
      .ok (.object members.reverse, cs)
  | cs => (readScalar cs).map fun r => (r.1.toJson, r.2)

/-! ## Whole texts -/

/-- What a whole text writes: nothing but space follows what `read` reads. -/
def readWhole {α : Type} (read : List Char → Except Stop (α × List Char)) (cs : List Char) :
    Except Fault α :=
  let whole : Except Stop α := do
    let (v, rest) ← read cs
    match skipSpace rest with
    | [] => .ok v
    | c :: rest => refuse .trailingText (c :: rest)
  match whole with
  | .ok v => .ok v
  | .error s => .error (s.inText cs)

/-- The value that a whole text writes. -/
def ofText? (cs : List Char) : Option Json := (readWhole (readValue maxNesting) cs).toOption

/-- The last member of an object with this name. -/
def member? (v : Json) (name : String) : Option Json :=
  match v with
  | .object members => (members.reverse.find? fun m => m.1 == name).map Prod.snd
  | _ => none

end IndexAdvisor.Json
