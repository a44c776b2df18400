import IndexAdvisor.Disk.Basic
import IndexAdvisor.LoggedQuery
import IndexAdvisor.Text.Lines

/-!
# Query logs

A query log is a text with a statement on each line that is not blank.
-/

set_option autoImplicit false

namespace IndexAdvisor.QueryLog

open IndexAdvisor.Text

/-- The file names that are accepted unless others are configured end in these. -/
def defaultExtensions : List String := ["txt", "csv"]

/-- Why a query log is not read. -/
inductive Error where
  | unsupportedFile (path : Path) (accepted : List String)
  | unreadable (path : Path) (fault : Disk.Fault)
  deriving DecidableEq, Repr

namespace Error

/-- The code of the error. -/
def code : Error → String
  | unsupportedFile _ _ => "DBO_INGEST_UNSUPPORTED_FILE"
  | unreadable _ _ => "DBO_INGEST_READ_FAILED"

/-- The words for the error. -/
def message : Error → String
  | unsupportedFile path accepted =>
    "Unsupported file " ++ path.text ++ ": only " ++
      ", ".intercalate (accepted.map fun e => "." ++ e) ++ " files are accepted"
  | unreadable path fault => "Failed to read " ++ path.text ++ ": " ++ fault.message

end Error

/-! ## Reading -/

/-- The statements of a log: its lines without the blanks around them, unless they are blank. -/
def statements (content : List Char) : List (List Char) :=
  ((lines content).map trim).filter fun l => !l.isEmpty

/-- The queries of a log; `freshId` gives an id for each of them. -/
def queries (freshId : Nat → String) (now fileName : String) (content : List Char) :
    List LoggedQuery :=
  (statements content).mapIdx fun k statement =>
    ⟨some (freshId k), String.ofList statement, now, fileName⟩

/-- The file name ends in one of the extensions, in any ASCII letter case. -/
def isAccepted (path : Path) (accepted : List String) : Bool :=
  match path.extension? with
  | none => false
  | some e => accepted.any fun a => a.toList.map Char.toLower == e.toList.map Char.toLower

/-- The content of a log file. -/
def content (path : Path) (accepted : List String) (d : Disk) : Except Error (List Char) :=
  if isAccepted path accepted then
    match d.readText path with
    | .ok cs => .ok cs
    | .error fault => .error (.unreadable path fault)
  else .error (.unsupportedFile path accepted)

/-- The queries of a log file. -/
def load (freshId : Nat → String) (now : String) (path : Path) (accepted : List String)
    (d : Disk) : Except Error (List LoggedQuery) := do
  .ok (queries freshId now (path.fileName?.getD "") (← content path accepted d))

end IndexAdvisor.QueryLog
