import IndexAdvisor.Config
import IndexAdvisor.Store.Error

/-!
# Commands

What can be asked for on the command line, and why it may not be done.
-/

set_option autoImplicit false

namespace IndexAdvisor

/-- What a command does. -/
inductive Action where
  /-- Stores the statements of a log file. -/
  | upload (file : Path)
  /-- Analyzes all stored statements. -/
  | analyze
  /-- Shows plan and recommendations for one statement. -/
  | explain (sql : String)
  /-- Records a recommendation of the last analysis as applied. -/
  | apply (queryKey : String) (recommendation : UInt32)
  /-- Lists the applied indexes. -/
  | applied
  /-- Removes the stored statements or the applied indexes. -/
  | clear (appliedIndexes : Bool)
  /-- Shows simulated figures. -/
  | dashboard
  deriving DecidableEq, Repr

/-- An action under a configuration. -/
structure Command where
  config : Path
  action : Action
  deriving DecidableEq, Repr

namespace Command

/-- Why a command fails. -/
inductive Error where
  | config (e : Config.Error)
  | disk (fault : Disk.Fault)
  | json (fault : Json.Fault)
  | store (e : Store.Error)
  | queryLog (e : QueryLog.Error)
  | analysisNotFound
  | alreadyApplied (queryKey : String) (recommendation : UInt32)
  deriving DecidableEq, Repr

namespace Error

/-- The code of an error. -/
def code : Error → String
  | config _ => "DBO_CLI_CONFIG_ERROR"
  | disk _ => "DBO_CLI_IO_ERROR"
  | json _ => "DBO_CLI_IO_ERROR"
  | store _ => "DBO_CLI_STORE_ERROR"
  | queryLog _ => "DBO_CLI_INGEST_ERROR"
  | analysisNotFound => "DBO_CLI_ANALYSIS_NOT_FOUND"
  | alreadyApplied _ _ => "DBO_CLI_ALREADY_APPLIED"

/-- The words for an error. -/
def message : Error → String
  | config e => e.message
  | disk fault => fault.message
  | json fault => "JSON error: " ++ fault.message
  | store e => "[" ++ e.code ++ "] " ++ e.message
  | queryLog e => "[" ++ e.code ++ "] " ++ e.message
  | analysisNotFound => "No analysis found. Run 'dboptima analyze' first."
  | alreadyApplied queryKey recommendation =>
    "Recommendation " ++ toString recommendation.toNat ++ " of query " ++ queryKey ++
      " is already applied"

/-- The line that reports an error. -/
def text (e : Error) : String := e.code ++ ": " ++ e.message

end Error

end Command

end IndexAdvisor
