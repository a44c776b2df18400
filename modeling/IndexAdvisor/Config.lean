import IndexAdvisor.Disk.Basic
import IndexAdvisor.Json.Shape
import IndexAdvisor.Log.Severity
import IndexAdvisor.QueryLog

/-!
# Configurations

Where the records are kept, whose they are, and how a run behaves. A configuration is read from a
file and checked before anything is done with it.
-/

set_option autoImplicit false

namespace IndexAdvisor

/-- A configuration. -/
structure Config where
  /-- The directory of the records and of the last analysis. -/
  dataDir : String
  /-- The owner of the records. -/
  principal : String
  /-- The seed of the random source; without one every run draws anew. -/
  seed : Option UInt64
  acceptedExtensions : List String
  logLevel : String
  deriving DecidableEq, Repr

namespace Config

/-! ## Reading -/

/-- Why there is no configuration. -/
inductive Error where
  | unreadable (fault : Disk.Fault)
  | malformed (fault : Json.Fault)
  | blankDataDir
  | blankPrincipal
  | noExtensions
  | badExtension (extension : String)
  | badLogLevel (level : String)
  deriving DecidableEq, Repr

/-- The words for an error. -/
def Error.message : Error → String
  | unreadable fault => "Failed to read config: " ++ fault.message
  | malformed fault => "Invalid config JSON: " ++ fault.message
  | blankDataDir => "data_dir must not be empty"
  | blankPrincipal => "principal must not be empty"
  | noExtensions => "accepted_extensions must list at least one extension"
  | badExtension extension =>
    "Invalid extension '" ++ extension ++ "': give the bare extension, e.g. 'txt'"
  | badLogLevel level =>
    "Invalid log_level: '" ++ level ++ "'. Expected trace, info, warn or error."

/-- How a configuration is written. Only the directory has to be given. -/
def layout : Json.Layout Config where
  shape := .record "Config" <| .cons "data_dir" [] .required .text <|
    .cons "principal" [] .defaulted .text <| .cons "seed" [] .optional (.count 64) <|
    .cons "accepted_extensions" [] .defaulted (.list .text) <|
    .cons "log_level" [] .defaulted .text .nil
  ofCarrier c :=
    { dataDir := c.1
      principal := c.2.1.getD "guest"
      seed :=
        match c.2.2.1 with
        | some n => some (.ofNat n.val)
        | none => none
      acceptedExtensions := c.2.2.2.1.getD QueryLog.defaultExtensions
      logLevel := c.2.2.2.2.1.getD "info" }
  toCarrier c :=
    (c.dataDir, some c.principal,
      match c.seed with
      | some n => some ⟨n.toNat, n.toNat_lt⟩
      | none => none,
      some c.acceptedExtensions, some c.logLevel, ())
  ofCarrier_toCarrier c := by
    obtain ⟨dir, principal, seed, extensions, level⟩ := c
    cases seed with
    | none => rfl
    | some n => simp only [UInt64.ofNat_toNat]; rfl

/-- An extension is bare: it is not empty and begins with no point. -/
def isBare (extension : String) : Bool :=
  match extension.toList with
  | [] => false
  | c :: _ => c != '.'

/-- The least severity that is logged, if the level names one. -/
def severity? (c : Config) : Option Log.Severity := Log.Severity.ofText? c.logLevel

/-- The first thing that is wrong with a configuration. -/
def problem? (c : Config) : Option Error :=
  if Text.isBlankText c.dataDir.toList then some .blankDataDir
  else if Text.isBlankText c.principal.toList then some .blankPrincipal
  else if c.acceptedExtensions.isEmpty then some .noExtensions
  else
    match c.acceptedExtensions.find? fun e => !isBare e with
    | some e => some (.badExtension e)
    | none => if c.severity?.isSome then none else some (.badLogLevel c.logLevel)

/-- The configuration that a text writes. -/
def ofText (cs : List Char) : Except Error Config :=
  match layout.read cs with
  | .error fault => .error (.malformed fault)
  | .ok c =>
    match c.problem? with
    | some e => .error e
    | none => .ok c

/-- The configuration in a file. -/
def load (path : Path) (d : Disk) : Except Error Config :=
  match d.readText path with
  | .error fault => .error (.unreadable fault)
  | .ok cs => ofText cs

/-! ## Using -/

/-- The least severity that is logged. -/
def severity (c : Config) : Log.Severity := c.severity?.getD .info

/-- The directory of the records. -/
def dataPath (c : Config) : Path := ⟨c.dataDir⟩

/-- The file of the logged queries. -/
def queriesPath (c : Config) : Path := c.dataPath.child "queries.jsonl"

/-- The file of the applied indexes. -/
def appliedPath (c : Config) : Path := c.dataPath.child "applied_indexes.jsonl"

/-- The file of the last analysis. -/
def analysisPath (c : Config) : Path := c.dataPath.child "last_analysis.json"

/-- The configuration with all its parts. -/
def toJson (c : Config) : Json := .object [
  ("data_dir", .string c.dataDir),
  ("principal", .string c.principal),
  ("seed", match c.seed with
    | some n => .nat n.toNat
    | none => .null),
  ("accepted_extensions", .strings c.acceptedExtensions),
  ("log_level", .string c.logLevel)]

end Config

end IndexAdvisor
