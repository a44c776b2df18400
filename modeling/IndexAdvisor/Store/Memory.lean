import IndexAdvisor.Store.Error

/-!
# Stores in memory

Records with their owners, in the order of insertion.
-/

set_option autoImplicit false

namespace IndexAdvisor.Store

/-- The records of all principals. -/
structure Memory (α : Type) where
  entries : List (String × α)
  deriving Repr

namespace Memory

variable {α : Type}

/-- No record. -/
def empty : Memory α := ⟨[]⟩

/-- Adds a record of a principal. -/
def insert (m : Memory α) (principal : String) (record : α) : Except Error (Memory α) := do
  checkPrincipal principal
  .ok ⟨m.entries ++ [(principal, record)]⟩

/-- The records of a principal. -/
def list (m : Memory α) (principal : String) : Except Error (List α) := do
  checkPrincipal principal
  .ok ((m.entries.filter fun e => e.1 == principal).map Prod.snd)

/-- Removes the records of a principal and tells how many there were. -/
def clear (m : Memory α) (principal : String) : Except Error (Nat × Memory α) := do
  checkPrincipal principal
  .ok ((m.entries.filter fun e => e.1 == principal).length,
    ⟨m.entries.filter fun e => e.1 != principal⟩)

end Memory

end IndexAdvisor.Store
