import IndexAdvisor.Log.Entry

/-!
# Scopes

The entries around one piece of work: one when it begins, and one when it ends well, fails, or is
left unfinished.
-/

set_option autoImplicit false

namespace IndexAdvisor.Log.Scope

/-- The work begins. -/
def opened (name : String) : Entry := ⟨.trace, name ++ "_BEGIN", []⟩

/-- The work is done. -/
def completed (name : String) (elapsedMs : String) (fields : List (String × String)) : Entry :=
  ⟨.info, name ++ "_COMPLETE", fields ++ [("elapsed_ms", elapsedMs)]⟩

/-- The work has failed. -/
def failed (name : String) (elapsedMs : String) (reason : String) : Entry :=
  ⟨.error, name ++ "_FAILED", [("reason", reason), ("elapsed_ms", elapsedMs)]⟩

/-- The work was left. -/
def dropped (name : String) : Entry :=
  ⟨.warn, name ++ "_INCOMPLETE", [("reason", "scope dropped without completion")]⟩

end IndexAdvisor.Log.Scope
