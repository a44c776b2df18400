import IndexAdvisor.Proofs.Analysis.Positions
import IndexAdvisor.Proofs.Command.Extensions
import IndexAdvisor.Proofs.Command.Growth
import IndexAdvisor.Proofs.QueryLog
import IndexAdvisor.Proofs.Store.Additions

/-!
# Explaining and analyzing

A statement can be explained by itself, or logged, stored and analyzed among others. Both find out
the same about it: its plan depends on nothing but the statement without the blanks around it, and
under the same seed the first query of a batch meets the source that an explained statement meets.

What is uploaded is analyzed if the file of the queries was ended. If its last line was not, the
upload damages the file, and the analysis fails.
-/

set_option autoImplicit false

namespace IndexAdvisor

/-! ## Statements as they are logged -/

namespace Sql

open IndexAdvisor.Text

theorem normalize_trim (cs : List Char) : normalize (trim cs) = normalize cs := by
  rw [normalize, normalize, trim_trim]

/-- Blanks around a statement tell nothing about it. -/
theorem features_trim (sql : String) :
    features (String.ofList (trim sql.toList)) = features sql := by
  simp only [features, String.toList_ofList, normalize_trim]

end Sql

namespace QueryLog

open IndexAdvisor.Text

/-- The ends of the last line of a log. -/
def lineEnds : List (List Char) := [[], ['\n'], ['\r', '\n']]

/-- **A log of one line** that is not blank has one statement, however the line is ended. -/
theorem statements_of_oneLine {cs : List Char} (hfeed : '\n' ∉ cs)
    (hblank : isBlankText cs = false) {ending : List Char} (hending : ending ∈ lineEnds) :
    statements (cs ++ ending) = [trim cs] := by
  have hpiece : trimmedPieces [cs] = [trim cs] := by
    have hne : trim cs ≠ [] := fun hnil => by
      rw [trim_eq_nil_iff.mp hnil] at hblank
      cases hblank
    have hkept : (trim cs).isEmpty = false := List.isEmpty_eq_false_iff.mpr hne
    rw [trimmedPieces, List.map_singleton, List.filter_singleton, hkept]
    rfl
  have hended {l : List Char} (hl : '\n' ∉ l) : statements (l ++ ['\n']) = trimmedPieces [l] := by
    rw [statements_append_feed hl]
    exact List.append_nil _
  rw [lineEnds, List.mem_cons, List.mem_cons, List.mem_singleton] at hending
  -- a carriage return is trimmed with the blanks in front of the line feed
  rcases hending with rfl | rfl | rfl
  · rw [List.append_nil, statements_of_notMem hfeed, hpiece]
  · rw [hended hfeed, hpiece]
  · have hreturn : '\n' ∉ cs ++ ['\r'] := by simpa using hfeed
    have hsplit : cs ++ ['\r', '\n'] = cs ++ ['\r'] ++ ['\n'] := by simp
    rw [hsplit, hended hreturn, ← hpiece, trimmedPieces, trimmedPieces, List.map_singleton,
      List.map_singleton, trim_append_blank (by decide)]

/-- The query of a statement has it as its text. -/
theorem getElem?_queries {freshId : Nat → String} {now fileName : String} {content : List Char}
    {k : Nat} {statement : List Char} (h : (statements content)[k]? = some statement) :
    (queries freshId now fileName content)[k]? =
      some ⟨some (freshId k), String.ofList statement, now, fileName⟩ := by
  rw [queries, List.getElem?_mapIdx, h]
  rfl

end QueryLog

namespace Command

open IndexAdvisor.Analysis
open IndexAdvisor.Random
open IndexAdvisor.Store
open Step

/-! ## Views -/

/-- Two objects have a member of this name, and the same one. -/
def SameMember (name : String) (v w : Json) : Prop :=
  ∃ x, member? name v = some x ∧ member? name w = some x

/-- A bundle is shown with the plan of its statement. -/
theorem sameMember_plan {applied : AppliedSet} {x : Bundle} {sql : String} {findings : Findings}
    (h : x.plan = findings.plan) :
    SameMember "executionPlan" (explainView sql findings) (bundleView applied x) :=
  ⟨Plan.Node.layout.list.toJson findings.plan, rfl, h ▸ rfl⟩

theorem sameMember_recommendations {applied : AppliedSet} {x : Bundle} {sql : String}
    {findings : Findings} (h : x.recommendations = findings.recommendations) :
    SameMember "recommendations" (explainView sql findings) (bundleView applied x) :=
  ⟨Recommendation.layout.list.toJson findings.recommendations, rfl, h ▸ rfl⟩

section Views

variable {σ : Type} [Source σ] {qs : List LoggedQuery} {a : Analyzer σ} {sql : String}

/-- The plan of a query is that of its statement, wherever it stands in a batch. -/
theorem plan_of_mem_bundles {x : Bundle} (h : x ∈ (Analyzer.analyzeBatch qs a).1.bundles) :
    x.plan = Plan.ofFeatures (Sql.features x.sql) := by
  obtain ⟨k, hk⟩ := List.getElem?_of_mem h
  rw [Analyzer.getElem?_bundles] at hk
  obtain ⟨q, -, rfl⟩ := Option.map_eq_some_iff.mp hk
  rfl

/-- **The plan in a view** is that with which the statement is explained. -/
theorem sameMember_plan_of_mem (b : Analyzer σ) {applied : AppliedSet} {view : Json}
    (hview : view ∈ (Analyzer.analyzeBatch qs a).1.bundles.map (bundleView applied))
    (hsql : member? "sql" view = some (.string (String.ofList (Text.trim sql.toList)))) :
    SameMember "executionPlan" (explainView sql (Analyzer.analyze sql b).1) view := by
  obtain ⟨x, hx, rfl⟩ := List.mem_map.mp hview
  have htext : x.sql = String.ofList (Text.trim sql.toList) :=
    Json.string.inj (Option.some.inj hsql)
  refine sameMember_plan ?_
  rw [plan_of_mem_bundles hx, htext, Sql.features_trim]
  rfl

/-- The view of a query in a batch. The first one is given the recommendations that its statement
is given by itself. -/
theorem exists_view {k : Nat} {q : LoggedQuery} (hq : qs[k]? = some q) (applied : AppliedSet)
    (hsql : q.text = String.ofList (Text.trim sql.toList)) :
    ∃ view, ((Analyzer.analyzeBatch qs a).1.bundles.map (bundleView applied))[k]? = some view ∧
      member? "sql" view = some (.string q.text) ∧
      (k = 0 → SameMember "recommendations" (explainView sql (Analyzer.analyze sql a).1) view) := by
  have hbundle := Analyzer.getElem?_bundles qs a k
  rw [hq, Option.map_some] at hbundle
  refine ⟨_, by rw [List.getElem?_map, hbundle, Option.map_some], rfl, ?_⟩
  rintro rfl
  refine sameMember_recommendations ?_
  -- the first query finds the source as the run begins
  rw [Analyzer.fst_analyzeAt, Analyzer.fst_analyze, Analyzer.fst_analyze, hsql, Sql.features_trim,
    List.take_zero]
  rfl

end Views

/-! ## Analyses -/

section Analyses

variable {c : Config} {s : Surroundings} {d e : Disk} {m : Place}

/-- Where the applied indexes can be listed, the paths of all data files are accepted. -/
theorem accept_child_of_list {records : List AppliedIndex} (hdir : c.dataPath.text ≠ "")
    (hlist : (appliedFile c).list c.principal d = .ok records) {name : String}
    (hname : name ∈ dataNames) : Disk.accept (c.dataPath.child name) = .ok () := by
  have happlied : Path.IsName "applied_indexes.jsonl" := isName_of_mem (by decide)
  have haccept := accept_of_list (Path.child_ne_empty hdir happlied) hlist
  exact Disk.accept_child hdir haccept happlied (isName_of_mem hname) (short_of_mem hname).1
    (short_of_mem hname).2

/-- The data directory is at this place, the applied indexes in it can be read, and there is room
for the last analysis. -/
structure Ready (c : Config) (m : Place) (d : Disk) : Prop where
  home : d.IsHome c.dataPath m
  applied : ∃ records, (appliedFile c).list c.principal d = .ok records
  analysis : d.node? (m.below "last_analysis.json") ≠ some .directory

namespace Ready

variable {name : String}

theorem accept_child (h : Ready c m d) (hname : name ∈ dataNames) :
    Disk.accept (c.dataPath.child name) = .ok () := by
  obtain ⟨records, hlist⟩ := h.applied
  exact accept_child_of_list h.home.text_ne hlist hname

theorem locate_child (h : Ready c m d) (hname : name ∈ dataNames) :
    d.locate (c.dataPath.child name) = .ok (m.below name) :=
  h.home.locate_child (isName_of_mem hname) (h.accept_child hname)
    (Nat.le_trans (short_of_mem hname).2 (by decide))

theorem makeDirectories_parent (h : Ready c m d) (hname : name ∈ dataNames) :
    d.makeDirectories (c.dataPath.child name).parent = (.ok (), d) :=
  h.home.makeDirectories_parent (isName_of_mem hname) (h.accept_child hname)

theorem names_analysis (h : Ready c m d) :
    d.Names c.analysisPath (m.below "last_analysis.json") :=
  h.home.names (isName_of_mem (by decide)) (h.accept_child (by decide)) (by decide) h.analysis

theorem list_applied_put (h : Ready c m d) (hother : name ≠ "applied_indexes.jsonl")
    (hnode : d.node? (m.below name) ≠ some .directory) (bytes : List UInt8)
    (principal : String) :
    (appliedFile c).list principal (d.put (m.below name) (.file bytes)) =
      (appliedFile c).list principal d := by
  have hkeeps := Disk.keeps_put hnode (.file bytes)
  have hlocate : d.locate (appliedFile c).path = .ok (m.below "applied_indexes.jsonl") :=
    h.locate_child (by decide)
  have hread : (d.put (m.below name) (.file bytes)).readBytes (appliedFile c).path =
      d.readBytes (appliedFile c).path := by
    simp only [Disk.readBytes, hlocate, hkeeps.locate hlocate, bind, Except.bind,
      Disk.node?_put_of_ne d _ (below_ne_below hother.symm m)]
  simp only [File.list, File.content, hread]

/-- A file that is put beside the applied indexes leaves the directory as it was. -/
theorem put (h : Ready c m d) (hother : name ≠ "applied_indexes.jsonl")
    (hnode : d.node? (m.below name) ≠ some .directory) (bytes : List UInt8) :
    Ready c m (d.put (m.below name) (.file bytes)) where
  home := h.home.mono (Disk.keeps_put hnode _)
  applied := by
    obtain ⟨records, hlist⟩ := h.applied
    exact ⟨records, (h.list_applied_put hother hnode bytes c.principal).trans hlist⟩
  analysis hdirectory :=
    h.analysis ((Disk.sameDirectories_put_file hnode bytes).back.directory hdirectory)

theorem yields_queryStore (h : Ready c m d) :
    Yields (queryStore c) s d (.ok (queryFile c s.now)) d :=
  yields_queryStore_of_made (h.makeDirectories_parent (by decide))

theorem yields_appliedStore (h : Ready c m d) :
    Yields (appliedStore c) s d (.ok (appliedFile c)) d :=
  yields_appliedStore_of_made (h.makeDirectories_parent (by decide))

/-- The last analysis is kept, and the directory is as ready as before. -/
theorem yields_saveAnalysis (h : Ready c m d) (b : Batch) :
    ∃ e, Yields (saveAnalysis c b) s d (.ok ()) e ∧ Ready c m e := by
  have hname : "last_analysis.json" ∈ dataNames := by decide
  have hmade : d.makeDirectories c.dataPath = (.ok (), d) := h.home.makeDirectories
    (Disk.accept_of_child h.home.text_ne (isName_of_mem hname) (h.accept_child hname))
  have hput := h.put (by decide) h.analysis
    (Text.Utf8.encode (Bundle.layout.list.write b.bundles))
  refine ⟨_, (yields_makeDirectories hmade).bind ?_, hput⟩
  exact yields_changeDisk_ok (h.names_analysis.write _)

/-- **An analysis in a directory that is ready** shows what is found out about the queries. -/
theorem exists_yields_analyze (h : Ready c m d) {queries : List LoggedQuery}
    (hlist : (queryFile c s.now).list c.principal d = .ok queries) :
    let r := Ledger.analysis c s.entropy queries
    ∃ applied e, Yields (analyze c) s d (.ok (analysisView applied r.1 r.2.counters)) e := by
  intro r
  obtain ⟨e, hsave, hready⟩ := h.yields_saveAnalysis (s := s) r.1
  obtain ⟨records, hrecords⟩ := hready.applied
  have hfigures : Yields (analyzing c (Analyzer.analyzeBatch queries)) s d
      (.ok (r.1, r.2.counters)) d := yields_analyzing (Analyzer.blind_analyzeBatch _)
  refine ⟨.ofRecords records, e, yields_within [("queries", toString r.1.size)] ?_⟩
  refine h.yields_queryStore.bind ((yields_list hlist).bind (hfigures.bind (hsave.bind ?_)))
  exact hready.yields_appliedStore.bind ((yields_list hrecords).bind (yields_pure _))

/-- What cannot be read is not analyzed. -/
theorem yields_analyze_of_error (h : Ready c m d) {fault : Store.Error}
    (hlist : (queryFile c s.now).list c.principal d = .error fault) :
    Yields (analyze c) s d (.error (.store fault)) d := by
  have hread := yields_list (s := s) hlist
  exact yields_within_error (h.yields_queryStore.bind hread.bind_error)

end Ready

end Analyses

/-! ## Uploads -/

/-- The visit uploads a log with this content under this configuration, and is answered. -/
structure Visit.Uploads (v : Visit) (c : Config) (content : List Char) (d : Disk) : Prop where
  loaded : Config.load v.command.config d = .ok c
  uploads : ∃ file, v.command.action = .upload file ∧
    QueryLog.content file c.acceptedExtensions d = .ok content
  answered : ∃ answer, (v.run d).1 = .ok answer

/-- The data directory can be opened, which leaves the disk `e`, and both stores can be read there.
These are the queries of the principal. No directory is in the way of the last analysis. -/
structure Readable (c : Config) (now : String) (queries : List LoggedQuery) (d e : Disk) :
    Prop where
  opened : (queryFile c now).prepare d = (.ok (), e)
  queries : (queryFile c now).list c.principal e = .ok queries
  applied : ∃ records, (appliedFile c).list c.principal e = .ok records
  analysis : e.readBytes c.analysisPath ≠ .error .isDirectory

/-- A directory that can be read is ready for an analysis. -/
theorem Readable.ready {c : Config} {now : String} {queries : List LoggedQuery} {d e : Disk}
    {m : Place} (h : Readable c now queries d e) (hm : e.IsHome c.dataPath m) : Ready c m e where
  home := hm
  applied := h.applied
  analysis hdirectory := by
    obtain ⟨records, hlist⟩ := h.applied
    have hlocate : e.locate c.analysisPath = .ok (m.below "last_analysis.json") :=
      hm.locate_child (isName_of_mem (by decide))
        (accept_child_of_list hm.text_ne hlist (by decide)) (by decide)
    refine h.analysis ?_
    simp only [Disk.readBytes, hlocate, hdirectory, bind, Except.bind]

/-- What can be listed can be listed at any time, and there are as many queries then. -/
theorem exists_list_undated {c : Config} {d : Disk} {now principal : String} (later : String)
    {queries : List LoggedQuery} (h : (queryFile c now).list principal d = .ok queries) :
    ∃ queries', (queryFile c later).list principal d = .ok queries' ∧
      queries'.length = queries.length := by
  obtain ⟨u, hp, -⟩ := bind_eq_ok_iff.mp h
  obtain ⟨bytes, es, hbytes, hes, rfl⟩ := exists_entries_of_list h
  obtain ⟨es', hes', hsame⟩ := exists_entries_undated later hes
  have hcontent : (queryFile c later).content d = .ok bytes := hbytes
  refine ⟨_, list_of_entries hp hcontent hes', ?_⟩
  have hlength := congrArg (fun es => (queriesAmong principal es).length) hsame
  simp only [queriesAmong_undated, List.length_map] at hlength
  exact hlength

namespace Visit.Uploads

variable {v : Visit} {c : Config} {content : List Char} {d e : Disk}

/-- An upload adds the queries of its log to the file. -/
theorem exists_insertAll (h : v.Uploads c content d)
    (hopened : (queryFile c v.surroundings.now).prepare d = (.ok (), e)) :
    ∃ freshId fileName, (queryFile c v.surroundings.now).insertAll c.principal
      (QueryLog.queries freshId v.surroundings.now fileName content) e = .ok (v.run d).2 := by
  obtain ⟨file, haction, hcontent⟩ := h.uploads
  obtain ⟨answer, hanswer⟩ := h.answered
  obtain ⟨w, w', rfl, hdisk, hexec⟩ := Visit.exec_of_answer h.loaded hanswer
  rw [haction, act] at hexec
  obtain ⟨freshId, queries, b, hload, -, hprepare, hinsert⟩ := upload_eq_ok hexec
  obtain rfl : e = b := (Prod.mk.inj (hopened.symm.trans hprepare)).2
  rw [QueryLog.load, hcontent] at hload
  obtain rfl := Except.ok.inj hload
  exact ⟨freshId, _, hdisk ▸ hinsert⟩

/-- **What is uploaded is listed behind the other queries** if the file of the queries was ended.
Otherwise, if there is anything to upload, the file is damaged. The directory is ready for an
analysis. -/
theorem list_queries (h : v.Uploads c content d) {before : List LoggedQuery}
    (hreadable : Readable c v.surroundings.now before d e)
    (hsome : QueryLog.statements content ≠ []) (later : String) :
    ∃ (m : Place) (bytes : List UInt8) (freshId : Nat → String) (fileName : String)
      (before' : List LoggedQuery), Ready c m (v.run d).2 ∧
      (queryFile c v.surroundings.now).content e = .ok bytes ∧ before'.length = before.length ∧
      (Ended bytes → (queryFile c later).list c.principal (v.run d).2 = .ok
        (before' ++ QueryLog.queries freshId v.surroundings.now fileName content)) ∧
      (¬Ended bytes → ∃ fault, fault.isCorruption = true ∧
        (queryFile c later).list c.principal (v.run d).2 = .error fault) := by
  obtain ⟨freshId, fileName, hinsert⟩ := h.exists_insertAll hreadable.opened
  obtain ⟨before', hlist, hlength⟩ := exists_list_undated later hreadable.queries
  have hne : QueryLog.queries freshId v.surroundings.now fileName content ≠ [] := fun hnil =>
    hsome (List.mapIdx_eq_nil_iff.mp hnil)
  -- the line of a query does not tell when it was written
  have hinsert' : (queryFile c later).insertAll c.principal
      (QueryLog.queries freshId v.surroundings.now fileName content) e = .ok (v.run d).2 := hinsert
  obtain ⟨bytes, hbytes, hended, hdamaged⟩ :=
    list_insertAll (faithful_loggedQuery later) hlist hne hinsert'
  obtain ⟨-, l, hl, hdisk⟩ := names_of_insertAll hne hinsert
  have hdir := dataPath_ne_of_load h.loaded
  obtain ⟨m, hm, rfl⟩ :=
    Disk.isHome_of_locate_child hdir (isName_of_mem (by decide)) hl.locate
  refine ⟨m, bytes, freshId, fileName, before', ?_, hbytes, hlength, hended, hdamaged⟩
  rw [hdisk]
  exact (hreadable.ready hm).put (by decide) hl.node_ne _

end Visit.Uploads

/-! ## Explaining and analyzing -/

/-- The analyzer of a run under a seed. -/
def analyzerOf (seed : UInt64) : Analyzer Seeded := .start (.ofSeed seed) .empty

theorem analyzer_of_seed {c : Config} {seed : UInt64} (h : c.seed = some seed) (s : Surroundings) :
    Analyzer.start (.ofSeed (c.seed.getD s.entropy)) .empty = analyzerOf seed := by
  rw [h, Option.getD_some, analyzerOf]

/-- What a statement is explained with under a seed. -/
def explanation (seed : UInt64) (sql : String) : Json :=
  explainView sql (Analyzer.analyze sql (analyzerOf seed)).1

/-- The answer to an analysis shows the statement, trimmed, at this position, with the plan of the
explanation. At the first position it is shown with its recommendations as well. -/
def AgreesAt (explained answer : Json) (sql : String) (k : Nat) : Prop :=
  ∃ views view, member? "queries" answer = some (.array views) ∧ views[k]? = some view ∧
    member? "sql" view = some (.string (String.ofList (Text.trim sql.toList))) ∧
    SameMember "executionPlan" explained view ∧
    (k = 0 → SameMember "recommendations" explained view)

section Agreement

variable {sql : String} {seed : UInt64} {c : Config} {d e : Disk}

/-- A statement is explained without a look at the data directory. -/
theorem Visit.run_of_explain {v : Visit} (hseed : c.seed = some seed)
    (hload : Config.load v.command.config d = .ok c) (hexplain : v.command.action = .explain sql) :
    v.run d = (.ok (explanation seed sql), d) := by
  have hyields : Yields (explain c sql) v.surroundings d (.ok (explanation seed sql)) d := by
    have hexplained := Opens.yields_explain (c := c) (s := v.surroundings) (d := d) sql
    simp only [StateT.run] at hexplained
    rwa [analyzer_of_seed hseed] at hexplained
  refine Visit.run_of_yields hload ?_
  rw [hexplain]
  exact hyields

/-- **Every analysis** shows a statement with the plan with which it is explained. -/
theorem Visit.Analyzes.sameMember_plan {v : Visit} {answer : Json} (h : v.Analyzes c d answer)
    (seed : UInt64) (sql : String) : ∃ views, member? "queries" answer = some (.array views) ∧
      ∀ view ∈ views, member? "sql" view = some (.string (String.ofList (Text.trim sql.toList))) →
        SameMember "executionPlan" (explanation seed sql) view := by
  obtain ⟨w, w', -, -, hexec⟩ := Visit.exec_of_analyze h.loaded h.analyzes h.answered
  obtain ⟨-, -, queries, records, a, counters, -, rfl, -⟩ := analyze_eq_ok hexec
  exact ⟨_, rfl, fun view hview hsql => sameMember_plan_of_mem (analyzerOf seed) hview hsql⟩

/-- The view of a query agrees with the explanation of its statement. -/
theorem agreesAt_analysisView {qs : List LoggedQuery} {k : Nat} {q : LoggedQuery}
    (hq : qs[k]? = some q) (hsql : q.text = String.ofList (Text.trim sql.toList))
    (applied : AppliedSet) (counters : Counters) :
    AgreesAt (explanation seed sql) (analysisView applied
      (Analyzer.analyzeBatch qs (analyzerOf seed)).1 counters) sql k := by
  obtain ⟨view, hview, htext, hfirst⟩ := exists_view (a := analyzerOf seed) hq applied hsql
  rw [hsql] at htext
  exact ⟨_, view, rfl, hview, htext,
    sameMember_plan_of_mem (analyzerOf seed) (List.mem_of_getElem? hview) htext, hfirst⟩

/-- **What has been uploaded** to a directory that can be read **is analyzed** as it is explained if
the file of the queries was ended. Otherwise the analysis fails. -/
theorem Visit.Uploads.agreesAt {uploads analyzes : Visit} {content : List Char}
    {before : List LoggedQuery} {k : Nat} (h : uploads.Uploads c content d)
    (hseed : c.seed = some seed)
    (hreadable : Readable c uploads.surroundings.now before d e)
    (hk : (QueryLog.statements content)[k]? = some (Text.trim sql.toList))
    (hload : Config.load analyzes.command.config (uploads.run d).2 = .ok c)
    (hanalyze : analyzes.command.action = .analyze) :
    ∃ bytes, (queryFile c uploads.surroundings.now).content e = .ok bytes ∧
      (Ended bytes → ∃ answer, (analyzes.run (uploads.run d).2).1 = .ok answer ∧
        AgreesAt (explanation seed sql) answer sql (before.length + k)) ∧
      (¬Ended bytes → ∃ fault, fault.isCorruption = true ∧
        (analyzes.run (uploads.run d).2).1 = .error (.store fault)) := by
  have hsome : QueryLog.statements content ≠ [] := fun hnil => by
    rw [hnil] at hk
    cases hk
  obtain ⟨m, bytes, freshId, fileName, before', hready, hbytes, hlength, hended, hdamaged⟩ :=
    h.list_queries hreadable hsome analyzes.surroundings.now
  have hrun {r : Except Error Json} {d' : Disk}
      (hr : Yields (analyze c) analyzes.surroundings (uploads.run d).2 r d') :
      (analyzes.run (uploads.run d).2).1 = r := by
    have hact : Yields (act c analyzes.command.action) analyzes.surroundings (uploads.run d).2 r
        d' := by
      rw [hanalyze]
      exact hr
    rw [Visit.run_of_yields hload hact]
  refine ⟨bytes, hbytes, fun hbytes => ?_, fun hbytes => ?_⟩
  · obtain ⟨applied, d', hyields⟩ := hready.exists_yields_analyze (hended hbytes)
    refine ⟨_, hrun hyields, ?_⟩
    -- with a seed the analyzer does not depend on the surroundings
    have hanalysis (qs : List LoggedQuery) : Ledger.analysis c analyzes.surroundings.entropy qs =
        Analyzer.analyzeBatch qs (analyzerOf seed) := by
      rw [Ledger.analysis, analyzer_of_seed hseed]
      rfl
    have hquery : (before' ++ QueryLog.queries freshId uploads.surroundings.now fileName
        content)[before.length + k]? = some ⟨some (freshId k),
          String.ofList (Text.trim sql.toList), uploads.surroundings.now, fileName⟩ := by
      rw [← hlength, List.getElem?_append_right (Nat.le_add_right _ _), Nat.add_sub_cancel_left]
      exact QueryLog.getElem?_queries hk
    rw [hanalysis]
    exact agreesAt_analysisView hquery rfl applied _
  · obtain ⟨fault, hfault, hlist⟩ := hdamaged hbytes
    exact ⟨fault, hfault, hrun (hready.yields_analyze_of_error hlist)⟩

end Agreement

/-- **Explaining agrees with analyzing.** Wherever a statement is shown in the answer to an
analysis, it is shown with the plan with which it is explained. Let it be a statement of a log that
is uploaded under a seed to a directory whose stores can be read and where no directory stands in
the place of the last analysis. If the file of the queries was ended, the next analysis of the
principal is answered and shows the statement behind all queries that were stored or stood in front
of it in the log; where there are none, it is shown with the recommendations with which it is
explained. If the file was not ended, the upload has damaged it, and the analysis fails. A log of
one line that is not blank has this line as its only statement. -/
theorem explain_agrees_with_analyze {sql : String} {seed : UInt64} {c : Config} {d₀ : Disk}
    {explains : Visit} (hseed : c.seed = some seed)
    (hexplains : Config.load explains.command.config d₀ = .ok c)
    (hexplain : explains.command.action = .explain sql) :
    ∃ explained, explains.run d₀ = (.ok explained, d₀) ∧
    (∀ (v : Visit) (c' : Config) (d : Disk) (answer : Json), v.Analyzes c' d answer →
      ∃ views, member? "queries" answer = some (.array views) ∧ ∀ view ∈ views,
        member? "sql" view = some (.string (String.ofList (Text.trim sql.toList))) →
          SameMember "executionPlan" explained view) ∧
    ('\n' ∉ sql.toList → Text.isBlankText sql.toList = false → ∀ ending ∈ QueryLog.lineEnds,
      QueryLog.statements (sql.toList ++ ending) = [Text.trim sql.toList]) ∧
    ∀ (uploads analyzes : Visit) (d e : Disk) (content : List Char) (before : List LoggedQuery)
      (k : Nat), uploads.Uploads c content d →
      Readable c uploads.surroundings.now before d e →
      (QueryLog.statements content)[k]? = some (Text.trim sql.toList) →
      Config.load analyzes.command.config (uploads.run d).2 = .ok c →
      analyzes.command.action = .analyze →
      ∃ bytes, (queryFile c uploads.surroundings.now).content e = .ok bytes ∧
        (Ended bytes → ∃ answer, (analyzes.run (uploads.run d).2).1 = .ok answer ∧
          AgreesAt explained answer sql (before.length + k)) ∧
        (¬Ended bytes → ∃ fault, fault.isCorruption = true ∧
          (analyzes.run (uploads.run d).2).1 = .error (.store fault)) :=
  ⟨explanation seed sql, Visit.run_of_explain hseed hexplains hexplain,
    fun _ _ _ _ h => h.sameMember_plan seed sql,
    fun hfeed hblank _ hending => QueryLog.statements_of_oneLine hfeed hblank hending,
    fun _ _ _ _ _ _ _ huploads hreadable hk hload hanalyze =>
      huploads.agreesAt hseed hreadable hk hload hanalyze⟩

/-! ### A file that is ended and one that is not -/

/-- Ada explains the first statement of a log, with blanks around it, and uploads the log. Her
analysis shows it first, with the plan and the recommendations of the explanation. -/
theorem explain_agrees_with_analyze_log :
    let explains := pairVisit "ada" (.explain " SELECT * FROM t WHERE status = 1\t")
    let uploads := pairVisit "ada" (.upload ⟨"log.txt"⟩)
    let analyzes := pairVisit "ada" .analyze
    ∃ explained answer, (explains.run logDisk).1 = .ok explained ∧
      (analyzes.run (uploads.run logDisk).2).1 = .ok answer ∧
      AgreesAt explained answer " SELECT * FROM t WHERE status = 1\t" 0 := by
  intro explains uploads analyzes
  let content := "SELECT * FROM t WHERE status = 1\nSELECT * FROM u".toList
  have hload : Config.load ⟨"ada"⟩ logDisk = .ok (pairConfig "ada") := by decide +kernel
  have hload' : Config.load ⟨"ada"⟩ (uploads.run logDisk).2 = .ok (pairConfig "ada") := by
    decide +kernel
  have hcontent : QueryLog.content ⟨"log.txt"⟩ ["txt", "csv"] logDisk = .ok content := by
    decide +kernel
  have huploads : uploads.Uploads (pairConfig "ada") content logDisk :=
    ⟨hload, ⟨_, rfl, hcontent⟩, exists_eq_ok_of_failure? (by decide +kernel)⟩
  have hreadable : Readable (pairConfig "ada") "now" [] logDisk logOpened :=
    ⟨by decide +kernel, by decide +kernel, ⟨[], by decide +kernel⟩, by decide +kernel⟩
  have hseed : (pairConfig "ada").seed = some 1 := rfl
  have hexplains : Config.load explains.command.config logDisk = .ok (pairConfig "ada") := hload
  obtain ⟨explained, hexplained, -, -, hanalysis⟩ := explain_agrees_with_analyze hseed hexplains rfl
  obtain ⟨bytes, hbytes, hended, -⟩ := hanalysis uploads analyzes logDisk logOpened content [] 0
    huploads hreadable (by decide +kernel) hload' rfl
  have hnone : (queryFile (pairConfig "ada") "now").content logOpened = .ok [] := by decide +kernel
  obtain rfl : [] = bytes := Except.ok.inj (hnone.symm.trans hbytes)
  obtain ⟨answer, hanswer, hagrees⟩ := hended (by decide)
  exact ⟨explained, answer, by rw [hexplained], hanswer, hagrees⟩

/-- The line of a query of Bob, without its end. -/
def tornLine : List UInt8 := Text.Utf8.encode
  (sealed "\x7b\"principal\":\"bob\",\"record\":\x7b\"query\":\"x\"\x7d\x7d".toList)

/-- A disk with a log of one line, and the line of Bob in the file of the queries. -/
def tornDisk : Disk where
  workingDirectory := .root
  nodes := pairDisk.nodes ++ [
    (.ofNames ["log.txt"], .file (Text.Utf8.encode "SELECT 1\n".toList)),
    (.ofNames ["data"], .directory),
    (.ofNames ["data", "queries.jsonl"], .file tornLine)]

section Torn

-- the checksum of the line is computed octet by octet
set_option maxRecDepth 2000

/-- **An explained statement need not be analyzed.** Ada has stored nothing, and both stores can be
read. A statement is explained and uploaded, and the analysis finds the file damaged. -/
theorem analyze_fails_torn :
    let explains := pairVisit "ada" (.explain "SELECT 1")
    let uploads := pairVisit "ada" (.upload ⟨"log.txt"⟩)
    let analyzes := pairVisit "ada" .analyze
    (queryFile (pairConfig "ada") "now").list "ada" tornDisk = .ok [] ∧
    (appliedFile (pairConfig "ada")).list "ada" tornDisk = .ok [] ∧
    failure? (explains.run tornDisk).1 = none ∧ failure? (uploads.run tornDisk).1 = none ∧
    ∃ fault, fault.isCorruption = true ∧
      (analyzes.run (uploads.run tornDisk).2).1 = .error (.store fault) := by
  intro explains uploads analyzes
  have hload : Config.load ⟨"ada"⟩ tornDisk = .ok (pairConfig "ada") := by decide +kernel
  have hload' : Config.load ⟨"ada"⟩ (uploads.run tornDisk).2 = .ok (pairConfig "ada") := by
    decide +kernel
  have hcontent : QueryLog.content ⟨"log.txt"⟩ ["txt", "csv"] tornDisk =
      .ok "SELECT 1\n".toList := by
    decide +kernel
  have hanswer : failure? (uploads.run tornDisk).1 = none := by decide +kernel
  have hreadable : Readable (pairConfig "ada") "now" [] tornDisk tornDisk :=
    ⟨by decide +kernel, by decide +kernel, ⟨[], by decide +kernel⟩, by decide +kernel⟩
  have huploads : uploads.Uploads (pairConfig "ada") "SELECT 1\n".toList tornDisk :=
    ⟨hload, ⟨_, rfl, hcontent⟩, exists_eq_ok_of_failure? hanswer⟩
  have hseed : (pairConfig "ada").seed = some 1 := rfl
  have hstatement : (QueryLog.statements "SELECT 1\n".toList)[0]? =
      some (Text.trim "SELECT 1".toList) := by decide +kernel
  have hanalyzes : Config.load analyzes.command.config (uploads.run tornDisk).2 =
      .ok (pairConfig "ada") := hload'
  obtain ⟨bytes, hbytes, -, hdamaged⟩ :=
    huploads.agreesAt hseed hreadable hstatement hanalyzes rfl
  have htorn : (queryFile (pairConfig "ada") "now").content tornDisk = .ok tornLine := by
    decide +kernel
  obtain rfl : tornLine = bytes := Except.ok.inj (htorn.symm.trans hbytes)
  exact ⟨hreadable.queries, by decide +kernel, by decide +kernel, hanswer,
    hdamaged (by decide +kernel)⟩

end Torn

end Command

end IndexAdvisor
