import IndexAdvisor.Json.Number
import IndexAdvisor.Json.Quoted

/-!
# JSON values

Values and their compact written form.
-/

set_option autoImplicit false

namespace IndexAdvisor

/-- A JSON value. The members of an object are kept in the order given. -/
inductive Json where
  | null
  | bool (b : Bool)
  | number (n : Json.Number)
  | string (s : String)
  | array (items : List Json)
  | object (members : List (String × Json))
  deriving Repr

namespace Json

/-- A natural number. -/
def nat (n : Nat) : Json := .number (.natural n)

/-- An array of texts. -/
def strings (ss : List String) : Json := .array (ss.map .string)

/-! ## Writing -/

mutual

/-- The compact written form. -/
def render : Json → List Char
  | .null => "null".toList
  | .bool true => "true".toList
  | .bool false => "false".toList
  | .number n => n.render
  | .string s => quote s.toList
  | .array items => '[' :: (renderItems items ++ [']'])
  | .object members => '{' :: (renderMembers members ++ ['}'])

/-- The written items of an array, commas between them. -/
def renderItems : List Json → List Char
  | [] => []
  | [v] => render v
  | v :: w :: vs => render v ++ ',' :: renderItems (w :: vs)

/-- The written members of an object, commas between them. -/
def renderMembers : List (String × Json) → List Char
  | [] => []
  | [(k, v)] => quote k.toList ++ ':' :: render v
  | (k, v) :: m :: ms => quote k.toList ++ ':' :: (render v ++ ',' :: renderMembers (m :: ms))

end

/-- The written form as a text. -/
def text (v : Json) : String := String.ofList v.render

/-! ## Order of members -/

mutual

/-- The value with the members of every object in the order of their names. -/
def sorted : Json → Json
  | .array items => .array (sortedItems items)
  | .object members => .object ((sortedMembers members).mergeSort fun a b => decide (a.1 ≤ b.1))
  | v => v

/-- The items, each with its members in order. -/
def sortedItems : List Json → List Json
  | [] => []
  | v :: vs => sorted v :: sortedItems vs

/-- The members, each with the members inside it in order. -/
def sortedMembers : List (String × Json) → List (String × Json)
  | [] => []
  | (k, v) :: ms => (k, sorted v) :: sortedMembers ms

end

end Json

end IndexAdvisor
