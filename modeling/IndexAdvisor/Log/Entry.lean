import IndexAdvisor.Log.Event
import IndexAdvisor.Text.Hex

/-!
# Entries of the log

An entry is one line: a JSON object of texts with the event first, then the severity, then the
fields in the order of their names. All control characters are escaped, so that nothing in a field
can end the line.
-/

set_option autoImplicit false

namespace IndexAdvisor.Log

/-! ## Quoting -/

/-- A control character. -/
def isControl (c : Char) : Bool := c.toNat < 0x20 || (0x7F ≤ c.toNat && c.toNat ≤ 0x9F)

/-- The written form of one character. -/
def escapeChar (c : Char) : List Char :=
  if c = '"' then ['\\', '"']
  else if c = '\\' then ['\\', '\\']
  else if c = '\n' then ['\\', 'n']
  else if c = '\r' then ['\\', 'r']
  else if c = '\t' then ['\\', 't']
  else if isControl c then
    ['\\', 'u', '0', '0', Text.hexDigit (c.toNat / 16), Text.hexDigit (c.toNat % 16)]
  else [c]

/-- The written form of a text. -/
def quote (s : String) : List Char := '"' :: (s.toList.flatMap escapeChar ++ ['"'])

/-! ## Entries -/

/-- What is logged at once. -/
structure Entry where
  severity : Severity
  event : String
  fields : List (String × String)
  deriving DecidableEq, Repr

namespace Entry

/-- The entry of an event. -/
def ofEvent (e : Event) (fields : List (String × String)) : Entry := ⟨e.severity, e.text, fields⟩

/-- The fields in the order of their names; fields of one name stay as they are. -/
def sortedFields (e : Entry) : List (String × String) :=
  e.fields.mergeSort fun a b => decide (a.1 ≤ b.1)

/-- The written form of a member. -/
def member (m : String × String) : List Char := quote m.1 ++ ':' :: quote m.2

/-- The members of the line, in order. -/
def members (e : Entry) : List (String × String) :=
  ("event", e.event) :: ("severity", e.severity.text) :: e.sortedFields

/-- The line of an entry, without its end. -/
def text (e : Entry) : List Char :=
  '\x7b' :: (List.intercalate [','] (e.members.map member) ++ ['\x7d'])

/-- The line of an entry. -/
def line (e : Entry) : List Char := e.text ++ ['\n']

end Entry

end IndexAdvisor.Log
