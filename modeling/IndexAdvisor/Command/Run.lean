import IndexAdvisor.Analysis.Analyzer
import IndexAdvisor.Analysis.Application
import IndexAdvisor.Command.World
import IndexAdvisor.Dashboard
import IndexAdvisor.Sql.Record

/-!
# Running commands

Each command works on the files in the data directory: the logged queries, the applied indexes and
the last analysis. What it answers is a JSON value.
-/

set_option autoImplicit false

namespace IndexAdvisor.Command

open IndexAdvisor.Analysis
open IndexAdvisor.Random
open Step

/-! ## Parts of commands -/

/-- The store of the logged queries. -/
def queryStore (c : Config) : Step (Store.File LoggedQuery) := do
  openStore (LoggedQuery.layout (← read).now) c.queriesPath

/-- The store of the applied indexes. -/
def appliedStore (c : Config) : Step (Store.File AppliedIndex) :=
  openStore AppliedIndex.layout c.appliedPath

/-- The random source of a run. -/
def source (c : Config) : Step Seeded := do
  return .ofSeed (c.seed.getD (← read).entropy)

/-- Runs an analyzer on the journal; its counters come with the answer. -/
def analyzing {α : Type} (c : Config) (x : StateM (Analyzer Seeded) α) : Step (α × Counters) := do
  let start := Analyzer.start (← source c) (← get).journal
  let r := x.run start
  modify fun w => { w with journal := r.2.journal }
  return (r.1, r.2.counters)

/-- Keeps a batch as the last analysis. -/
def saveAnalysis (c : Config) (b : Batch) : Step Unit := do
  makeDirectories c.dataPath
  changeDisk fun d => d.write c.analysisPath (Text.Utf8.encode (Bundle.layout.list.write b.bundles))

/-- The last analysis. -/
def loadAnalysis (c : Config) : Step Batch := do
  let d := (← get).disk
  if d.isPresent c.analysisPath then
    let cs ← orFail .disk (d.readText c.analysisPath)
    return .ofBundles (← orFail .json (Bundle.layout.list.read cs))
  else throw .analysisNotFound

/-- Removes the last analysis, if there is one. -/
def removeAnalysis (c : Config) : Step Unit :=
  changeDisk fun d =>
    match d.remove c.analysisPath with
    | .error .missing => .ok d
    | r => r

/-- A bundle as it is shown, with the numbers of its applied recommendations. -/
def bundleView (s : AppliedSet) (b : Bundle) : Json :=
  match Bundle.layout.toJson b with
  | .object members =>
    .object (members ++
      [("appliedRecommendations", .array ((b.appliedIds s).map fun id => .nat id.toNat))])
  | v => v

/-- A query as it is shown, with the applied indexes that belong to it. -/
def queryView (records : List AppliedIndex) (q : LoggedQuery) : Json := .object [
  ("id", match q.id? with
    | some id => .string id
    | none => .null),
  ("query", .string q.text),
  ("fileName", .string q.fileName),
  ("timestamp", .string q.timestamp),
  ("appliedIndexes", AppliedIndex.layout.list.toJson (q.applied records))]

/-! ## Answers -/

/-- What is answered to an upload. -/
def uploadView (now : String) (queries : List LoggedQuery) : Json := .object [
  ("uploaded", .nat queries.length),
  ("fileName", .string ((queries.head?.map LoggedQuery.fileName).getD "")),
  ("queries", (LoggedQuery.layout now).list.toJson queries)]

/-- What is answered to an analysis. -/
def analysisView (applied : AppliedSet) (batch : Batch) (counters : Counters) : Json := .object [
  ("queryKeys", .strings batch.keys),
  ("queries", .array (batch.bundles.map (bundleView applied))),
  ("metrics", counters.toJson)]

/-- What is answered about one statement. -/
def explainView (sql : String) (findings : Findings) : Json := .object [
  ("sql", .string sql),
  ("features", findings.features.toJson),
  ("executionPlan", Plan.Node.layout.list.toJson findings.plan),
  ("totalCost", .nat (Plan.totalCost findings.plan)),
  ("plan", .string (Plan.text sql findings.plan)),
  ("recommendations", Recommendation.layout.list.toJson findings.recommendations)]

/-- The list of the applied indexes. -/
def appliedView (records : List AppliedIndex) : Json := .object [
  ("count", .nat records.length),
  ("appliedIndexes", AppliedIndex.layout.list.toJson records)]

/-- What is answered when records have been removed. -/
def clearedView (what : String) (removed : Nat) : Json := .object [
  ("cleared", .string what),
  ("removed", .nat removed)]

/-- The simulated figures over what is stored. -/
def dashboardView (metrics : Dashboard.Metrics) (queries : List LoggedQuery)
    (records : List AppliedIndex) : Json := .object [
  ("metrics", metrics.toJson),
  ("queries", .array (queries.map (queryView records)))]

/-! ## Commands -/

/-- Stores the statements of a log file. -/
def upload (c : Config) (file : Path) : Step Json := do
  let w ← get
  let s ← read
  let queries ← orFail .queryLog
    (QueryLog.load (fun k => s.freshId (w.idsUsed + k)) s.now file c.acceptedExtensions w.disk)
  modify fun w => { w with idsUsed := w.idsUsed + queries.length }
  let store ← queryStore c
  insertAll store c.principal queries
  let fileName := (queries.head?.map LoggedQuery.fileName).getD ""
  logEvent .queriesUploaded [("count", toString queries.length), ("file", fileName)]
  return uploadView s.now queries

/-- Analyzes all stored statements and keeps what is found out. -/
def analyze (c : Config) : Step Json :=
  within "ANALYZE" do
    let queries ← list (← queryStore c) c.principal
    let (batch, counters) ← analyzing c (Analyzer.analyzeBatch queries)
    saveAnalysis c batch
    let applied := AppliedSet.ofRecords (← list (← appliedStore c) c.principal)
    return (analysisView applied batch counters, [("queries", toString batch.size)])

/-- Shows plan and recommendations for one statement. -/
def explain (c : Config) (sql : String) : Step Json := do
  let (findings, _) ← analyzing c (Analyzer.analyze sql)
  logEvent .explainComplete [("total_cost", toString (Plan.totalCost findings.plan))]
  return explainView sql findings

/-- Records a recommendation of the last analysis as applied. -/
def apply (c : Config) (queryKey : String) (id : UInt32) : Step Json := do
  let batch ← loadAnalysis c
  let store ← appliedStore c
  let applied := AppliedSet.ofRecords (← list store c.principal)
  if applied.contains queryKey id then
    throw (.alreadyApplied queryKey id)
  let record ← orFail .store (batch.application queryKey id (← read).now)
  insert store c.principal record
  log (appliedEntry record)
  return AppliedIndex.layout.toJson record

/-- Lists the applied indexes. -/
def applied (c : Config) : Step Json := do
  return appliedView (← list (← appliedStore c) c.principal)

/-- Removes the stored statements and the last analysis. -/
def clearQueries (c : Config) : Step Json := do
  let removed ← clear (← queryStore c) c.principal
  removeAnalysis c
  logEvent .queriesCleared [("removed", toString removed)]
  return clearedView "queries" removed

/-- Removes the applied indexes. -/
def clearApplied (c : Config) : Step Json := do
  let removed ← clear (← appliedStore c) c.principal
  logEvent .appliedCleared [("removed", toString removed)]
  return clearedView "appliedIndexes" removed

/-- Shows simulated figures over what is stored. -/
def dashboard (c : Config) : Step Json := do
  let queries ← list (← queryStore c) c.principal
  let records ← list (← appliedStore c) c.principal
  let metrics := ((Dashboard.metrics queries records).run (← source c)).1
  logEvent .dashboardComputed
    [("applied", toString records.length), ("queries", toString queries.length)]
  return dashboardView metrics queries records

/-! ## Running -/

/-- Loads the configuration of a command and logs from its level on. -/
def loadConfig (path : Path) : Step Config := do
  let c ← orFail .config (Config.load path (← get).disk)
  modify fun w => { w with journal := { w.journal with threshold := c.severity } }
  logEvent .configLoaded [("path", path.text)]
  return c

/-- Runs an action. -/
def act (c : Config) : Action → Step Json
  | .upload file => upload c file
  | .analyze => analyze c
  | .explain sql => explain c sql
  | .apply queryKey id => apply c queryKey id
  | .applied => applied c
  | .clear false => clearQueries c
  | .clear true => clearApplied c
  | .dashboard => dashboard c

/-- What a command answers, and the world after it. -/
def run (cmd : Command) (s : Surroundings) (w : World) : Except Error Json × World :=
  ((do act (← loadConfig cmd.config) cmd.action : Step Json).run s).run w

/-! ## Responses -/

/-- The response to a command: a JSON object with its members in order, and the end of the line. -/
def response (r : Except Error Json) : String :=
  let v : Json := match r with
    | .ok data => .object [("status", .string "ok"), ("data", data)]
    | .error e =>
      .object [("status", .string "error"), ("code", .string e.code),
        ("message", .string e.message)]
  v.sorted.text ++ "\n"

end IndexAdvisor.Command
