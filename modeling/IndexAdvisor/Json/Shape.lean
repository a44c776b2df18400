import IndexAdvisor.Json.Untyped

/-!
# Shapes of records

A `Shape` says what form a value has: a text, a number of so many bits, one of some names, a list,
or a record with named fields. One reader and one printer serve all shapes. `Shape.Carrier` is the
type of what is read.

A record is read from an object or from an array of its fields in order. A text is read from left
to right and its first fault is the one reported; a field that is missing is noticed behind the end
of its record.
-/

set_option autoImplicit false

namespace IndexAdvisor.Json

/-- Whether a field has to be there, and how its absence is read and written. -/
inductive Presence where
  /-- The field has to be there. -/
  | required
  /-- An object may lack the field or hold null; null is written for it. -/
  | nullable
  /-- The field may be lacking or null; nothing is written for it. -/
  | optional
  /-- The field may be lacking, but not null; it is always written. -/
  | defaulted
  deriving DecidableEq, Repr

mutual

/-- The form of a value. -/
inductive Shape where
  | text
  | count (bits : Nat)
  | choice (names : List String)
  | list (item : Shape)
  /-- A record; `kind` is what messages call it. -/
  | record (kind : String) (fields : Fields)
  /-- A value of any form. -/
  | any

/-- The fields of a record, in order; a field may have further names under which it is read. -/
inductive Fields where
  | nil
  | cons (name : String) (others : List String) (presence : Presence) (shape : Shape)
      (rest : Fields)

end

/-! ## Carriers -/

/-- What is kept of a field whose value has type `α`. -/
def Presence.Held (p : Presence) (α : Type) : Type :=
  match p with
  | .required => α
  | _ => Option α

mutual

/-- The values of a shape. -/
def Shape.Carrier : Shape → Type
  | .text => String
  | .count bits => Fin (Nat.pow 2 bits)
  | .choice names => Fin names.length
  | .list s => List s.Carrier
  | .record _ fs => fs.Carrier
  | .any => Json

/-- The values of a list of fields. -/
def Fields.Carrier : Fields → Type
  | .nil => Unit
  | .cons _ _ p s rest => p.Held s.Carrier × rest.Carrier

end

/-- What has been read of the fields of an object so far. -/
def Fields.Slots : Fields → Type
  | .nil => Unit
  | .cons _ _ p s rest => Option (p.Held s.Carrier) × rest.Slots

/-- Nothing has been read. -/
def Fields.noSlots : (fs : Fields) → fs.Slots
  | .nil => ()
  | .cons _ _ _ _ rest => (none, rest.noSlots)

/-! ## Readers -/

/-- Where a value of another form than the expected one ends. Arrays and objects are not read. -/
def readForm (cs : List Char) : Except Stop (Form × List Char) :=
  match cs with
  | '[' :: cs => .ok (.array, '[' :: cs)
  | '{' :: cs => .ok (.object, '{' :: cs)
  | cs => (readScalar cs).map fun r => (.scalar r.1, r.2)

/-- Stops at a value of another form than the expected one, unless the value itself is broken. -/
def wrongForm {α : Type} (expected : String) (cs : List Char) : Except Stop α := do
  let (found, rest) ← readForm cs
  .error ⟨.invalidType found expected, rest, 0⟩

/-- Reads a text. -/
def readText (expected : String) (cs : List Char) : Except Stop (List Char × List Char) :=
  match skipSpace cs with
  | '"' :: cs => readQuoted cs
  | cs => wrongForm expected cs

/-- Reads a natural number below `2 ^ bits`. -/
def readCount (bits : Nat) (cs : List Char) : Except Stop (Fin (Nat.pow 2 bits) × List Char) :=
  let cs := skipSpace cs
  let expected := "u" ++ toString bits
  if isNumberAhead cs then do
    match ← readNumber cs with
    | (.natural n, rest) =>
      if h : n < Nat.pow 2 bits then .ok (⟨n, h⟩, rest)
      else .error ⟨.invalidValue (.natural n) expected, rest, 0⟩
    | (.negative n, rest) => .error ⟨.invalidValue (.negative n) expected, rest, 0⟩
    | (n, rest) => .error ⟨.invalidType (.scalar (.number n)) expected, rest, 0⟩
  else wrongForm expected cs

/-- Reads null. -/
def readNull (cs : List Char) : Except Stop (List Char) :=
  match skipSpace cs with
  | 'n' :: cs => readWord "ull".toList cs
  | cs => wrongForm "unit" cs

/-- Reads one of the names, behind the quote that opens it. -/
def readName (names : List String) (cs : List Char) :
    Except Stop (Fin names.length × List Char) := do
  let (name, cs) ← readQuoted cs
  match names.finIdxOf? (String.ofList name) with
  | some i => .ok (i, cs)
  | none => .error ⟨.unknownVariant (String.ofList name) names, cs, 0⟩

/-- Reads one of the names as that of the only member of an object, which is null. -/
def readNamedNull (names : List String) (cs : List Char) :
    Except Stop (Fin names.length × List Char) :=
  match skipSpace cs with
  | [] => stop .unfinishedObject []
  | '"' :: cs => do
    let (i, cs) ← readName names cs
    let cs ← readColon cs
    let cs ← readNull cs
    match skipSpace cs with
    | [] => stop .unfinishedObject []
    | '}' :: cs => .ok (i, cs)
    | cs => stop .noValue cs
  | '}' :: cs => refuse .noValue ('}' :: cs)
  | cs => refuse .keyNotString cs

/-- Reads one of the names, as a text or as the name of a null member. -/
def readChoice (room : Nat) (names : List String) (cs : List Char) :
    Except Stop (Fin names.length × List Char) :=
  match skipSpace cs with
  | [] => stop .unfinishedValue []
  | '"' :: cs => readName names cs
  | '{' :: cs =>
    match room with
    | 0 => refuse .tooDeep ('{' :: cs)
    | _ + 1 => readNamedNull names cs
  | cs => refuse .noValue cs

/-- Reads a field of the given presence, whose value `read` reads. -/
def Presence.readHeld {α : Type} (p : Presence) (read : List Char → Except Stop (α × List Char))
    (cs : List Char) : Except Stop (p.Held α × List Char) :=
  let orNull : Except Stop (Option α × List Char) :=
    match skipSpace cs with
    | 'n' :: cs => (readWord "ull".toList cs).map fun cs => (none, cs)
    | _ => (read cs).map fun r => (some r.1, r.2)
  match p with
  | .required => read cs
  | .nullable => orNull
  | .optional => orNull
  | .defaulted => (read cs).map fun r => (some r.1, r.2)

/-- What is kept of a field that an array ends before, unless the array is too short then. -/
def Presence.pastEnd? {α : Type} (p : Presence) : Option (p.Held α) :=
  match p with
  | .required => none
  | .nullable => none
  | .optional => some none
  | .defaulted => some none

/-- What is kept of a field that an object lacks, unless it has to be there. -/
def Presence.lacking? {α : Type} (p : Presence) : Option (p.Held α) :=
  match p with
  | .required => none
  | .nullable => some none
  | .optional => some none
  | .defaulted => some none

/-! ## Records -/

/-- How many fields there are. -/
def Fields.size : Fields → Nat
  | .nil => 0
  | .cons _ _ _ _ rest => rest.size + 1

/-- The fields from number `k` on where an array ends before them; fails with the number of the
first one that has to be there. -/
def Fields.pastEnd : (fs : Fields) → Nat → Except Nat fs.Carrier
  | .nil, _ => .ok ()
  | .cons _ _ p _ rest, k =>
    match p.pastEnd? with
    | none => .error k
    | some v => (rest.pastEnd (k + 1)).map fun vs => (v, vs)

/-- The record that the slots make; fails with the name of the first field that is missing. -/
def Fields.finish : (fs : Fields) → fs.Slots → Except String fs.Carrier
  | .nil, _ => .ok ()
  | .cons name _ p _ rest, slots =>
    match slots.1.or p.lacking? with
    | none => .error name
    | some v => (rest.finish slots.2).map fun vs => (v, vs)

/-- Reads the end of an array whose items have all been read. -/
def closeArray (cs : List Char) : Except Stop (List Char) :=
  match skipSpace cs with
  | [] => stop .unfinishedArray []
  | c :: cs =>
    if c = ']' then .ok cs
    else if c = ',' then
      match skipSpace cs with
      | [] => stop .trailingText []
      | d :: ds => refuse (if d = ']' then .trailingComma else .trailingText) (d :: ds)
    else refuse .trailingText (c :: cs)

/-- Moves behind the end of an object, if it ends here. -/
def pastBrace (cs : List Char) : List Char :=
  match skipSpace cs with
  | '}' :: cs => cs
  | cs => cs

mutual

/-- Reads a value of a shape that may hold `room` levels of arrays and objects. -/
def Shape.read : (s : Shape) → Nat → List Char → Except Stop (s.Carrier × List Char)
  | .text, _, cs => (readText "a string" cs).map fun r => (String.ofList r.1, r.2)
  | .count bits, _, cs => readCount bits cs
  | .choice names, room, cs => readChoice room names cs
  | .list s, room, cs =>
    match skipSpace cs with
    | '[' :: cs =>
      match room with
      | 0 => refuse .tooDeep ('[' :: cs)
      | room + 1 => readAll (s.read room) cs
    | cs => wrongForm "a sequence" cs
  | .record kind fs, room, cs =>
    match skipSpace cs with
    | '[' :: cs =>
      match room with
      | 0 => refuse .tooDeep ('[' :: cs)
      | room + 1 =>
        let expected := "struct " ++ kind ++ " with " ++ toString fs.size ++ " elements"
        fs.readItems expected 0 room true cs
    | '{' :: cs =>
      match room with
      | 0 => refuse .tooDeep ('{' :: cs)
      | room + 1 => do
        let (slots, cs) ← readInto (fs.readMember room) fs.noSlots cs
        match fs.finish slots with
        | .ok v => .ok (v, cs)
        | .error name => .error ⟨.missingField name, cs, 0⟩
    | cs => wrongForm ("struct " ++ kind) cs
  | .any, room, cs => readValue room cs

/-- Reads the fields from number `k` on as items of an array, and its closing bracket. -/
def Fields.readItems : (fs : Fields) → String → Nat → Nat → Bool → List Char →
    Except Stop (fs.Carrier × List Char)
  | .nil, _, _, _, _, cs => (closeArray cs).map fun cs => ((), cs)
  | .cons n others p s rest, expected, k, room, first, cs => do
    match ← nextItem first cs with
    | (false, cs) =>
      match (Fields.cons n others p s rest).pastEnd k with
      | .ok vs => .ok (vs, cs)
      | .error k => .error ⟨.invalidLength k expected, cs, 0⟩
    | (true, cs) =>
      let (v, cs) ← p.readHeld (s.read room) cs
      let (vs, cs) ← rest.readItems expected (k + 1) room false cs
      .ok ((v, vs), cs)

/-- Reads the value of the member with this name into its slot, or passes over it. -/
def Fields.readMember : (fs : Fields) → Nat → List Char → fs.Slots → List Char →
    Except Stop (fs.Slots × List Char)
  | .nil, _, _, _, cs => do
    let cs ← skipValue (← readColon cs)
    .ok ((), cs)
  | .cons n others p s rest, room, key, slots, cs =>
    if (n :: others).any fun k => k.toList == key then
      match slots.1 with
      | some _ => .error ⟨.duplicateField n, pastBrace cs, 0⟩
      | none => do
        let cs ← readColon cs
        let (v, cs) ← p.readHeld (s.read room) cs
        .ok ((some v, slots.2), cs)
    else
      (rest.readMember room key slots.2 cs).map fun r => ((slots.1, r.1), r.2)

end

/-! ## Printing -/

mutual

/-- The JSON form of a value of a shape. -/
def Shape.toJson : (s : Shape) → s.Carrier → Json
  | .text, v => .string v
  | .count _, v => .number (.natural v.val)
  | .choice names, v => .string (names.get v)
  | .list s, vs => .array (vs.map s.toJson)
  | .record _ fs, v => .object (fs.toMembers v)
  | .any, v => v

/-- The members of a record, in the order of its fields. -/
def Fields.toMembers : (fs : Fields) → fs.Carrier → List (String × Json)
  | .nil, _ => []
  | .cons n _ .required s rest, v => (n, s.toJson v.1) :: rest.toMembers v.2
  | .cons n _ .nullable s rest, v =>
    (n, match v.1 with
      | some x => s.toJson x
      | none => .null) :: rest.toMembers v.2
  | .cons n _ .optional s rest, v =>
    match v.1 with
    | some x => (n, s.toJson x) :: rest.toMembers v.2
    | none => rest.toMembers v.2
  | .cons n _ .defaulted s rest, v =>
    match v.1 with
    | some x => (n, s.toJson x) :: rest.toMembers v.2
    | none => rest.toMembers v.2

end

/-! ## Layouts -/

/-- How the values of a type are written and read: as values of a shape. -/
structure Layout (α : Type) where
  shape : Shape
  ofCarrier : shape.Carrier → α
  toCarrier : α → shape.Carrier
  /-- Nothing is lost in writing. -/
  ofCarrier_toCarrier : ∀ a, ofCarrier (toCarrier a) = a

namespace Layout

variable {α : Type}

/-- The JSON form of a value. -/
def toJson (L : Layout α) (a : α) : Json := L.shape.toJson (L.toCarrier a)

/-- The written form of a value. -/
def write (L : Layout α) (a : α) : List Char := (L.toJson a).render

/-- The value that a whole text writes, or the first fault of the text. -/
def read (L : Layout α) (cs : List Char) : Except Fault α :=
  (readWhole (L.shape.read maxNesting) cs).map L.ofCarrier

/-- Lists of values. -/
def list (L : Layout α) : Layout (List α) where
  shape := .list L.shape
  ofCarrier vs := vs.map L.ofCarrier
  toCarrier as := as.map L.toCarrier
  ofCarrier_toCarrier as := by
    rw [List.map_map]
    conv => rhs; rw [← List.map_id as]
    exact List.map_congr_left fun a _ => L.ofCarrier_toCarrier a

/-- Values of any form. -/
def any : Layout Json where
  shape := .any
  ofCarrier v := v
  toCarrier v := v
  ofCarrier_toCarrier _ := rfl

/-- Texts. -/
def text : Layout String where
  shape := .text
  ofCarrier s := s
  toCarrier s := s
  ofCarrier_toCarrier _ := rfl

/-- Numbers of 32 bits. -/
def word : Layout UInt32 where
  shape := .count 32
  ofCarrier n := .ofNat n.val
  toCarrier n := ⟨n.toNat, n.toNat_lt⟩
  ofCarrier_toCarrier n := by
    simp only [UInt32.ofNat_toNat]

end Layout

end IndexAdvisor.Json
