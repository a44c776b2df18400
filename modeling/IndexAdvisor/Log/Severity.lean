/-!
# Severities
-/

set_option autoImplicit false

namespace IndexAdvisor.Log

/-- How serious an entry of the log is. -/
inductive Severity where
  | trace
  | info
  | warn
  | error
  deriving DecidableEq, Repr

namespace Severity

/-- All severities, the least first. -/
def all : List Severity := [trace, info, warn, error]

/-- The written form. -/
def text : Severity → String
  | trace => "TRACE"
  | info => "INFO"
  | warn => "WARN"
  | error => "ERROR"

/-- The position among all severities. -/
def rank : Severity → Nat
  | trace => 0
  | info => 1
  | warn => 2
  | error => 3

/-- Reads a severity in any ASCII letter case. -/
def ofText? (name : String) : Option Severity :=
  all.find? fun s => s.text.toList == name.toList.map Char.toUpper

theorem mem_all (s : Severity) : s ∈ all := by
  cases s <;> decide

/-- The written form reads back. -/
theorem ofText?_text (s : Severity) : ofText? s.text = some s := by
  cases s <;> decide

end Severity

end IndexAdvisor.Log
