import IndexAdvisor.Log.Entry

/-!
# Journals

The lines that have been logged. An entry below the threshold leaves no line.
-/

set_option autoImplicit false

namespace IndexAdvisor.Log

/-- The threshold and the lines so far, each without its end. -/
structure Journal where
  threshold : Severity
  lines : List String
  deriving DecidableEq, Repr

namespace Journal

/-- No line yet; plain information is logged. -/
def empty : Journal := ⟨.info, []⟩

/-- Logs an entry. -/
def record (j : Journal) (e : Entry) : Journal :=
  if e.severity.rank < j.threshold.rank then j
  else { j with lines := j.lines ++ [String.ofList e.text] }

end Journal

end IndexAdvisor.Log
