import IndexAdvisor.Json.Shape
import IndexAdvisor.Text.Blank

/-!
# Logged queries

A statement from a query log, with where and when it was found. A key names it within a batch.
-/

set_option autoImplicit false

namespace IndexAdvisor

/-- One statement of a query log. -/
structure LoggedQuery where
  givenId : Option String
  /-- The statement. -/
  text : String
  timestamp : String
  fileName : String
  deriving DecidableEq, Repr

namespace LoggedQuery

/-- The file name of a statement that comes without one. -/
def unknownFile : String := "Unknown File"

/-- The id, if there is one that is not blank. -/
def id? (q : LoggedQuery) : Option String := q.givenId.filter fun i => !Text.isBlankText i.toList

/-- The key of a statement at a position of a batch. -/
def key (q : LoggedQuery) (position : Nat) : String :=
  match q.id? with
  | some id => id ++ "-" ++ toString position
  | none => "q" ++ toString position

/-- How a statement is written. It need not have more than its text: its time is then now. -/
def layout (now : String) : Json.Layout LoggedQuery where
  shape := .record "RawQuery" <| .cons "id" ["_id"] .optional .text <|
    .cons "query" [] .required .text <|
    .cons "timestamp" [] .defaulted .text <| .cons "fileName" [] .defaulted .text .nil
  ofCarrier c := ⟨c.1, c.2.1, c.2.2.1.getD now, c.2.2.2.1.getD unknownFile⟩
  toCarrier q := (q.givenId, q.text, some q.timestamp, some q.fileName, ())
  ofCarrier_toCarrier _ := rfl

end LoggedQuery

end IndexAdvisor
