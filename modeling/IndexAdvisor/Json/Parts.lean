import IndexAdvisor.Json.Scalar

/-!
# Items and members

The parts of arrays and objects, read one after the other. What a part holds is left to a reader of
its own. Each part takes at least one character, so the text itself bounds their number.
-/

set_option autoImplicit false

namespace IndexAdvisor.Json

/-- Moves to the next item of an array, if there is one, else behind its end; `first` tells that no
item has been read. -/
def nextItem (first : Bool) (cs : List Char) : Except Stop (Bool × List Char) :=
  match skipSpace cs with
  | [] => stop .unfinishedArray []
  | c :: cs =>
    if c = ']' then .ok (false, cs)
    else if first then .ok (true, c :: cs)
    else if c = ',' then
      match skipSpace cs with
      | [] => stop .unfinishedValue []
      | d :: ds => if d = ']' then refuse .trailingComma (d :: ds) else .ok (true, d :: ds)
    else refuse .noItemEnd (c :: cs)

/-- Moves to the next member of an object and reads its name, if there is one, else moves behind
the end of the object. -/
def nextMember (first : Bool) (cs : List Char) :
    Except Stop (Option (List Char) × List Char) :=
  let readName (cs : List Char) := (readQuoted cs).map fun r => (some r.1, r.2)
  match skipSpace cs with
  | [] => stop .unfinishedObject []
  | c :: cs =>
    if c = '}' then .ok (none, cs)
    else if first then if c = '"' then readName cs else refuse .keyNotString (c :: cs)
    else if c = ',' then
      match skipSpace cs with
      | [] => stop .unfinishedValue []
      | d :: ds =>
        if d = '"' then readName ds
        else if d = '}' then refuse .trailingComma (d :: ds)
        else refuse .keyNotString (d :: ds)
    else refuse .noMemberEnd (c :: cs)

/-- Reads the items of an array and its closing bracket, one item for each character of `bound` at
most. -/
def readItemsWithin {α : Type} (read : List Char → Except Stop (α × List Char)) :
    (bound : List Char) → Bool → List Char → Except Stop (List α × List Char)
  | [], _, _ => stop .unfinishedArray []
  | _ :: bound, first, cs => do
    match ← nextItem first cs with
    | (false, cs) => .ok ([], cs)
    | (true, cs) =>
      let (v, cs) ← read cs
      let (vs, cs) ← readItemsWithin read bound false cs
      .ok (v :: vs, cs)

/-- Reads the items of an array and its closing bracket. -/
def readAll {α : Type} (read : List Char → Except Stop (α × List Char)) (cs : List Char) :
    Except Stop (List α × List Char) :=
  readItemsWithin read cs true cs

/-- Reads the members of an object and its closing brace, one member for each character of `bound`
at most. -/
def readMembersWithin {σ : Type}
    (read : List Char → σ → List Char → Except Stop (σ × List Char)) :
    (bound : List Char) → Bool → σ → List Char → Except Stop (σ × List Char)
  | [], _, _, _ => stop .unfinishedObject []
  | _ :: bound, first, s, cs => do
    match ← nextMember first cs with
    | (none, cs) => .ok (s, cs)
    | (some name, cs) =>
      let (s, cs) ← read name s cs
      readMembersWithin read bound false s cs

/-- Reads the members of an object and its closing brace. `read` is given the name of a member and
what has been read before it, and adds its value. -/
def readInto {σ : Type} (read : List Char → σ → List Char → Except Stop (σ × List Char)) (s : σ)
    (cs : List Char) : Except Stop (σ × List Char) :=
  readMembersWithin read cs true s cs

end IndexAdvisor.Json
