import IndexAdvisor.Command.Basic
import IndexAdvisor.Log.Journal
import IndexAdvisor.Log.Scope
import IndexAdvisor.Random.Seeded
import IndexAdvisor.Store.File

/-!
# What commands work on

A command changes a disk and a journal. Ids, times and the seed of unseeded draws come from its
surroundings. A command that fails stops there: what it has changed before stays changed.
-/

set_option autoImplicit false

namespace IndexAdvisor.Command

/-- What a command is told by its surroundings. -/
structure Surroundings where
  now : String
  /-- The time that commands are said to take, in milliseconds. -/
  elapsedMs : String
  /-- Ids that are given out one after the other. -/
  freshId : Nat → String
  /-- The seed where none is configured. -/
  entropy : UInt64

/-- What a command changes. -/
structure World where
  disk : Disk
  journal : Log.Journal
  /-- How many ids have been given out. -/
  idsUsed : Nat
  deriving Repr

/-- A step of a command. -/
abbrev Step := ReaderT Surroundings (ExceptT Error (StateM World))

namespace Step

/-- Logs an entry. -/
def log (e : Log.Entry) : Step Unit :=
  modify fun w => { w with journal := w.journal.record e }

/-- Logs an event. -/
def logEvent (e : Log.Event) (fields : List (String × String)) : Step Unit :=
  log (.ofEvent e fields)

/-- Goes on with the answer of an operation, or fails with its error. -/
def orFail {ε α : Type} (toError : ε → Error) : Except ε α → Step α
  | .ok a => pure a
  | .error e => throw (toError e)

/-- Changes the disk, or fails as the disk does. -/
def changeDisk (f : Disk → Except Disk.Fault Disk) : Step Unit := do
  let d ← orFail .disk (f (← get).disk)
  modify fun w => { w with disk := d }

/-- Makes the directory of a path. The directories made before a failure stay. -/
def makeDirectories (p : Path) : Step Unit := do
  let (r, d) := (← get).disk.makeDirectories p
  modify fun w => { w with disk := d }
  orFail .disk r

/-- Works on a piece that is logged when it begins, and when it ends or is left. The piece gives
the fields for the entry at its end. -/
def within {α : Type} (name : String) (s : Step (α × List (String × String))) : Step α := do
  log (Log.Scope.opened name)
  let (a, fields) ← tryCatch s fun e => do
    log (Log.Scope.dropped name)
    throw e
  log (Log.Scope.completed name (← read).elapsedMs fields)
  return a

/-! ## Stores -/

/-- Goes on with the answer of a store, or fails with its error and logs damage to its file. -/
def orReport {α β : Type} (f : Store.File α) (r : Except Store.Error β) : Step β := do
  match r with
  | .ok b => return b
  | .error e =>
    match f.report? e with
    | some entry => log entry
    | none => pure ()
    throw (.store e)

/-- Opens a store: makes the directory of its file. -/
def openStore {α : Type} (layout : Json.Layout α) (path : Path) : Step (Store.File α) := do
  let f : Store.File α := ⟨layout, path⟩
  let (r, d) := f.prepare (← get).disk
  modify fun w => { w with disk := d }
  orReport f r
  return f

/-- The records of a principal. -/
def list {α : Type} (f : Store.File α) (principal : String) : Step (List α) := do
  orReport f (f.list principal (← get).disk)

/-- Adds a record of a principal. -/
def insert {α : Type} (f : Store.File α) (principal : String) (record : α) : Step Unit := do
  let d ← orReport f (f.insert principal record (← get).disk)
  modify fun w => { w with disk := d }

/-- Adds records of a principal, one after the other. -/
def insertAll {α : Type} (f : Store.File α) (principal : String) (records : List α) :
    Step Unit := do
  let d ← orReport f (f.insertAll principal records (← get).disk)
  modify fun w => { w with disk := d }

/-- Removes the records of a principal and tells how many there were. -/
def clear {α : Type} (f : Store.File α) (principal : String) : Step Nat := do
  let (removed, d) ← orReport f (f.clear principal (← get).disk)
  modify fun w => { w with disk := d }
  return removed

end Step

end IndexAdvisor.Command
