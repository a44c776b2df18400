import IndexAdvisor.Json.Shape

/-!
# Kinds of indexes
-/

set_option autoImplicit false

namespace IndexAdvisor.Index

/-- The kind of an index. -/
inductive Kind where
  | bTree
  | hash
  | bitmap
  deriving DecidableEq, Repr

namespace Kind

/-- All kinds. -/
def all : List Kind := [bTree, hash, bitmap]

/-- The written form. -/
def text : Kind → String
  | bTree => "B-tree"
  | hash => "Hash"
  | bitmap => "Bitmap"

/-- Reads the written form. -/
def ofText? (name : String) : Option Kind := all.find? fun k => k.text == name

/-- The clause that asks for the kind; a B-tree is what one gets without a clause. -/
def usingClause : Kind → String
  | bTree => ""
  | hash => " USING HASH"
  | bitmap => " USING BITMAP"

/-- The written form reads back. -/
theorem ofText?_text (k : Kind) : ofText? k.text = some k := by
  cases k <;> decide

/-- A kind is written as its name. -/
def layout : Json.Layout Kind where
  shape := .choice (all.map text)
  ofCarrier i := all.get (Fin.cast (by decide) i)
  toCarrier
    | bTree => ⟨0, by decide⟩
    | hash => ⟨1, by decide⟩
    | bitmap => ⟨2, by decide⟩
  ofCarrier_toCarrier k := by cases k <;> rfl

end Kind

end IndexAdvisor.Index
