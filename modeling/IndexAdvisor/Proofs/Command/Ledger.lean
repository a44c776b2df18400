import IndexAdvisor.Proofs.Analysis.Journal
import IndexAdvisor.Proofs.Command.DataFiles
import IndexAdvisor.Proofs.Command.Steps

/-!
# Commands on ledgers

What a command does to a data directory whose files are intact, said without disks: `Ledger.act`
gives the answer of an action and the ledger behind it. Nothing can fail there but what is asked
for: a log that is not read, a recommendation that is not there or has been applied.

The directory may still be missing, as long as it can be made. The first action that needs it makes
it, so until then two disks belong together: the one that is there, and the one with the directory.
-/

set_option autoImplicit false

namespace IndexAdvisor.Command

open IndexAdvisor.Analysis
open IndexAdvisor.Random
open IndexAdvisor.Store
open Step

/-! ## Answers from a ledger -/

namespace Ledger

/-- The last analysis. -/
def batch (L : Ledger) : Except Error Batch :=
  match L.analysis? with
  | none => .error .analysisNotFound
  | some bytes =>
    match Text.Utf8.decode? bytes with
    | none => .error (.disk .notText)
    | some cs =>
      match Bundle.layout.list.read cs with
      | .error fault => .error (.json fault)
      | .ok bundles => .ok (.ofBundles bundles)

/-- What the last analysis offers a principal to apply: nothing, if it has been applied. -/
def offer (L : Ledger) (principal queryKey : String) (id : UInt32) (now : String) :
    Except Error (Option AppliedIndex) := do
  let batch ← L.batch
  if (AppliedSet.ofRecords (L.appliedOf principal)).contains queryKey id then return none
  return some (← (batch.application queryKey id now).mapError .store)

/-- The figures of an analysis of these queries, with the source that a run starts from. -/
def analysis (c : Config) (entropy : UInt64) (queries : List LoggedQuery) :
    Batch × Analyzer Seeded :=
  (Analyzer.analyzeBatch queries).run (.start (.ofSeed (c.seed.getD entropy)) .empty)

/-- What an action answers, and the ledger after it; `load` gives the queries of a log. -/
def act (c : Config) (s : Surroundings) (load : Path → Except QueryLog.Error (List LoggedQuery))
    (L : Ledger) : Action → Except Error Json × Ledger
  | .upload file =>
    match load file with
    | .error e => (.error (.queryLog e), L)
    | .ok queries =>
      (.ok (uploadView s.now queries),
        { L with queries := L.queries ++ queries.map fun q => (c.principal, q) })
  | .analyze =>
    let r := analysis c s.entropy (L.queriesOf c.principal)
    (.ok (analysisView (.ofRecords (L.appliedOf c.principal)) r.1 r.2.counters),
      { L with analysis? := some (Text.Utf8.encode (Bundle.layout.list.write r.1.bundles)) })
  | .explain sql =>
    let r := (Analyzer.analyze sql).run (.start (.ofSeed (c.seed.getD s.entropy) : Seeded) .empty)
    (.ok (explainView sql r.1), L)
  | .apply queryKey id =>
    match L.offer c.principal queryKey id s.now with
    | .error e => (.error e, L)
    | .ok none => (.error (.alreadyApplied queryKey id), L)
    | .ok (some record) =>
      (.ok (AppliedIndex.layout.toJson record),
        { L with applied := L.applied ++ [(c.principal, record)] })
  | .applied => (.ok (appliedView (L.appliedOf c.principal)), L)
  | .clear false =>
    (.ok (clearedView "queries" (L.queriesOf c.principal).length),
      { L with
        queries := L.queries.filter fun e => e.1 != c.principal
        analysis? := none })
  | .clear true =>
    (.ok (clearedView "appliedIndexes" (L.appliedOf c.principal).length),
      { L with applied := L.applied.filter fun e => e.1 != c.principal })
  | .dashboard =>
    let queries := L.queriesOf c.principal
    let records := L.appliedOf c.principal
    let metrics := ((Dashboard.metrics queries records).run
      (.ofSeed (c.seed.getD s.entropy) : Seeded)).1
    (.ok (dashboardView metrics queries records), L)

end Ledger

/-! ## Draws -/

section Draws

variable {c : Config} {s : Surroundings} {d : Disk}

theorem yields_source : Yields (source c) s d (.ok (.ofSeed (c.seed.getD s.entropy))) d :=
  yields_read.bind (yields_pure _)

/-- An analyzer does on the journal of a run what it does on an empty one. -/
theorem yields_analyzing {α : Type} {x : StateM (Analyzer Seeded) α} (hx : Analyzer.Blind x) :
    let r := x.run (.start (.ofSeed (c.seed.getD s.entropy)) .empty)
    Yields (analyzing c x) s d (.ok (r.1, r.2.counters)) d := by
  intro r
  refine yields_source.bind (Yields.get_bind fun w hw => ?_)
  obtain ⟨hanswer, -, hcounters⟩ := hx
    (.start (.ofSeed (c.seed.getD s.entropy)) w.journal)
    (.start (.ofSeed (c.seed.getD s.entropy)) .empty) ⟨rfl, rfl⟩
  have hfigures : (r.1, r.2.counters) = (Prod.mk
      (x (.start (.ofSeed (c.seed.getD s.entropy)) w.journal)).1
      (x (.start (.ofSeed (c.seed.getD s.entropy)) w.journal)).2.counters) :=
    Prod.ext hanswer.symm hcounters.symm
  rw [hfigures]
  exact Yields.bind (b := d) (yields_modify fun v hv => hv) (yields_pure _)

end Draws

/-! ## Opening -/

section Opening

variable {c : Config} {s : Surroundings} {d e : Disk}

/-- The store of the queries is there once its directory has been made. -/
theorem yields_queryStore_of_made (h : d.makeDirectories c.queriesPath.parent = (.ok (), e)) :
    Yields (queryStore c) s d (.ok (queryFile c s.now)) e := by
  refine yields_read.bind (yields_openStore ?_)
  simp only [File.prepare, h]
  rfl

theorem yields_appliedStore_of_made (h : d.makeDirectories c.appliedPath.parent = (.ok (), e)) :
    Yields (appliedStore c) s d (.ok (appliedFile c)) e := by
  refine yields_openStore ?_
  simp only [File.prepare, h]
  rfl

end Opening

/-! ## Applying -/

section Apply

variable {c : Config} {s : Surroundings} {d e e' : Disk} {batch : Batch}
variable {records : List AppliedIndex} {queryKey : String} {id : UInt32}

/-- What applying does once it knows the last analysis and what has been applied. -/
def applyOf (c : Config) (s : Surroundings) (batch : Batch) (records : List AppliedIndex)
    (queryKey : String) (id : UInt32) : Step Json :=
  if (AppliedSet.ofRecords records).contains queryKey id then throw (.alreadyApplied queryKey id)
  else do
    let record ← orFail .store (batch.application queryKey id s.now)
    insert (appliedFile c) c.principal record
    log (appliedEntry record)
    return AppliedIndex.layout.toJson record

/-- Applying begins with the last analysis and with what has been applied. -/
theorem yields_apply_of_parts {r : Except Error Json}
    (hload : Yields (loadAnalysis c) s d (.ok batch) d)
    (hstore : Yields (appliedStore c) s d (.ok (appliedFile c)) e)
    (hlist : (appliedFile c).list c.principal e = .ok records)
    (hrest : Yields (applyOf c s batch records queryKey id) s e r e') :
    Yields (apply c queryKey id) s d r e' := by
  refine hload.bind (hstore.bind ((yields_list hlist).bind ?_))
  unfold applyOf at hrest
  by_cases happlied : (AppliedSet.ofRecords records).contains queryKey id
  · rw [if_pos happlied] at hrest ⊢
    exact hrest
  · rw [if_neg happlied] at hrest ⊢
    exact yields_read.bind hrest

/-- What has been applied is not applied again. -/
theorem yields_applyOf_of_contains
    (h : (AppliedSet.ofRecords records).contains queryKey id = true) :
    Yields (applyOf c s batch records queryKey id) s d (.error (.alreadyApplied queryKey id)) d := by
  rw [applyOf, if_pos h]
  exact yields_throw _

variable (h : (AppliedSet.ofRecords records).contains queryKey id = false)

include h

/-- What is not offered is not applied. -/
theorem yields_applyOf_of_error {fault : Store.Error}
    (hrecord : batch.application queryKey id s.now = .error fault) :
    Yields (applyOf c s batch records queryKey id) s d (.error (.store fault)) d := by
  rw [applyOf, if_neg (by rw [h]; exact Bool.false_ne_true), hrecord]
  exact (yields_orFail Error.store (.error fault)).bind_error

/-- What is offered is put on record. -/
theorem yields_applyOf_of_ok {record : AppliedIndex}
    (hrecord : batch.application queryKey id s.now = .ok record)
    (hinsert : (appliedFile c).insert c.principal record d = .ok e) :
    Yields (applyOf c s batch records queryKey id) s d
      (.ok (AppliedIndex.layout.toJson record)) e := by
  rw [applyOf, if_neg (by rw [h]; exact Bool.false_ne_true), hrecord]
  refine (yields_orFail Error.store (.ok record)).bind ((yields_insert hinsert).bind ?_)
  exact (yields_log _).bind (yields_pure _)

end Apply

/-! ## Directories that can be opened -/

/-- On the disk `d` the data directory can be opened, which gives the disk `e`, where it holds what
the ledger says. Before it is opened for the first time there is no last analysis. -/
structure Opens (d e : Disk) (dir : Path) (m : Place) (L : Ledger) : Prop
    extends Holds e dir m L where
  made : d.makeDirectories (dir.child "queries.jsonl").parent = (.ok (), e)
  early : d = e ∨ L.analysis? = none

/-- A directory that is there is open. -/
theorem Holds.opens {d : Disk} {dir : Path} {m : Place} {L : Ledger} (h : Holds d dir m L) :
    Opens d d dir m L := ⟨h, h.makeDirectories_parent (by decide), Or.inl rfl⟩

namespace Opens

variable {d e : Disk} {c : Config} {s : Surroundings} {m : Place} {L : Ledger}

theorem makeDirectories_parent (h : Opens d e c.dataPath m L) {name : String}
    (hname : name ∈ dataNames) :
    d.makeDirectories (c.dataPath.child name).parent = (.ok (), e) := by
  have hqueries : Path.IsName "queries.jsonl" := isName_of_mem (by decide)
  rw [Path.parent_child_eq h.text_ne (isName_of_mem hname) hqueries]
  exact h.made

/-! ## Parts of commands -/

theorem yields_queryStore (h : Opens d e c.dataPath m L) :
    Yields (queryStore c) s d (.ok (queryFile c s.now)) e :=
  yields_queryStore_of_made (h.makeDirectories_parent (by decide))

theorem yields_appliedStore (h : Opens d e c.dataPath m L) :
    Yields (appliedStore c) s d (.ok (appliedFile c)) e :=
  yields_appliedStore_of_made (h.makeDirectories_parent (by decide))

/-- The last analysis is present if the ledger has one. -/
theorem isPresent_analysisPath (h : Opens d e c.dataPath m L) :
    d.isPresent c.analysisPath = L.analysis?.isSome := by
  have hgrows := d.grows_makeDirectories (c.dataPath.child "queries.jsonl").parent
  rw [h.made] at hgrows
  have hlocate := h.names_analysis.locate
  -- a directory that has to be made has no last analysis, also if its path is led elsewhere
  cases hlast : L.analysis? with
  | some bytes =>
      obtain rfl : d = e := h.early.resolve_right (by simp [hlast])
      rw [Disk.isPresent, hlocate]
      simp [h.analysis, hlast]
  | none =>
      rw [Disk.isPresent]
      split
      · rename_i l hl
        obtain rfl := Except.ok.inj ((hgrows.keeps.locate hl).symm.trans hlocate)
        have hnone := h.analysis
        rw [hlast] at hnone
        cases hnode : d.node? (m.below "last_analysis.json") with
        | none => rfl
        | some n =>
            rw [hgrows.node?_eq_some hnode] at hnone
            cases hnone
      · rfl

theorem yields_loadAnalysis (h : Opens d e c.dataPath m L) :
    Yields (loadAnalysis c) s d L.batch d := by
  refine Yields.get_bind fun w hw => ?_
  rw [hw]
  cases hlast : L.analysis? with
  | none =>
      simp only [h.isPresent_analysisPath, hlast, Ledger.batch, Option.isSome_none,
        Bool.false_eq_true, if_false]
      exact yields_throw _
  | some bytes =>
      obtain rfl : d = e := h.early.resolve_right (by simp [hlast])
      have hnode := h.analysis
      rw [hlast] at hnode
      have hbytes : d.readBytes c.analysisPath = .ok bytes := h.names_analysis.readBytes hnode
      simp only [h.isPresent_analysisPath, hlast, Ledger.batch, Option.isSome_some, if_true]
      cases hcs : Text.Utf8.decode? bytes with
      | none =>
          have htext : d.readText c.analysisPath = .error .notText := by
            simp only [Disk.readText, hbytes, hcs, bind, Except.bind]
          rw [htext]
          exact (yields_orFail Error.disk (.error Disk.Fault.notText)).bind_error
      | some cs =>
          have htext : d.readText c.analysisPath = .ok cs := by
            simp only [Disk.readText, hbytes, hcs, bind, Except.bind]
          rw [htext]
          refine (yields_orFail Error.disk (.ok cs)).bind ?_
          cases hbundles : Bundle.layout.list.read cs with
          | error fault =>
              simp only [hbundles]
              exact (yields_orFail Error.json (.error fault)).bind_error
          | ok bundles =>
              simp only [hbundles]
              exact (yields_orFail Error.json (.ok bundles)).bind (yields_pure _)

/-- The last analysis is kept. -/
theorem yields_saveAnalysis (h : Holds d c.dataPath m L) (b : Batch) :
    ∃ d', Yields (saveAnalysis c b) s d (.ok ()) d' ∧
      Holds d' c.dataPath m
        { L with analysis? := some (Text.Utf8.encode (Bundle.layout.list.write b.bundles)) } ∧
          d.SameOutside (dataPlaces m) d' := by
  obtain ⟨d', hwrite, hholds⟩ :=
    h.writeAnalysis (Text.Utf8.encode (Bundle.layout.list.write b.bundles))
  refine ⟨d', (yields_makeDirectories h.makeDirectories_dir).bind ?_, hholds⟩
  exact yields_changeDisk_ok hwrite

/-- After its removal there is no last analysis, whether there was one or not. -/
theorem yields_removeAnalysis (h : Holds d c.dataPath m L) :
    ∃ d', Yields (removeAnalysis c) s d (.ok ()) d' ∧
      Holds d' c.dataPath m { L with analysis? := none } ∧ d.SameOutside (dataPlaces m) d' := by
  cases hlast : L.analysis? with
  | none =>
      have hnode := h.analysis
      rw [hlast] at hnode
      refine ⟨d, yields_changeDisk_ok ?_, ?_, h.sameOutside_refl⟩
      · rw [h.names_analysis.remove_of_none hnode]
      · rwa [← hlast]
  | some bytes =>
      obtain ⟨d', hremove, hholds⟩ := h.eraseAnalysis hlast
      refine ⟨d', yields_changeDisk_ok ?_, hholds⟩
      rw [hremove]

/-! ## Commands -/

/-- What a command leaves: the disk and the ledger as they were, or an open data directory that
holds another ledger on a disk that is otherwise the same. -/
def Leaves (d e : Disk) (dir : Path) (m : Place) (L : Ledger) (d' : Disk) (L' : Ledger) : Prop :=
  d' = d ∧ L' = L ∨ Holds d' dir m L' ∧ e.SameOutside (dataPlaces m) d'

theorem leaves_self (d e : Disk) (dir : Path) (m : Place) (L : Ledger) : Leaves d e dir m L d L :=
  Or.inl ⟨rfl, rfl⟩

theorem leaves_opened (h : Opens d e c.dataPath m L) : Leaves d e c.dataPath m L e L :=
  Or.inr ⟨h.toHolds, h.sameOutside_refl⟩

theorem yields_explain (sql : String) :
    let r := (Analyzer.analyze sql).run (.start (.ofSeed (c.seed.getD s.entropy) : Seeded) .empty)
    Yields (explain c sql) s d (.ok (explainView sql r.1)) d :=
  (yields_analyzing (Analyzer.blind_analyze sql)).bind
    ((yields_logEvent _ _).bind (yields_pure _))

/-- What an upload does with what it has read from a log. -/
def keepQueries (c : Config) (now : String)
    (loaded : Except QueryLog.Error (List LoggedQuery)) : Step Json := do
  let queries ← orFail .queryLog loaded
  modify fun w => { w with idsUsed := w.idsUsed + queries.length }
  let store ← queryStore c
  insertAll store c.principal queries
  let fileName := (queries.head?.map LoggedQuery.fileName).getD ""
  logEvent .queriesUploaded [("count", toString queries.length), ("file", fileName)]
  return uploadView now queries

theorem exec_upload_eq (file : Path) (w : World) :
    (upload c file).exec s w = (keepQueries c s.now (QueryLog.load
      (fun k => s.freshId (w.idsUsed + k)) s.now file c.acceptedExtensions w.disk)).exec s w := by
  rw [upload, exec_bind_of_ok s w (exec_get s w), exec_bind_of_ok s w (exec_read s w)]
  rfl

section Principal

variable (hp : checkPrincipal c.principal = .ok ())

include hp

theorem yields_applied (h : Opens d e c.dataPath m L) :
    Yields (applied c) s d (.ok (appliedView (L.appliedOf c.principal))) e := by
  refine h.yields_appliedStore.bind ?_
  exact (yields_list (h.listApplied hp)).bind (yields_pure _)

theorem yields_dashboard (h : Opens d e c.dataPath m L) :
    let queries := L.queriesOf c.principal
    let records := L.appliedOf c.principal
    let metrics := ((Dashboard.metrics queries records).run
      (.ofSeed (c.seed.getD s.entropy) : Seeded)).1
    Yields (dashboard c) s d (.ok (dashboardView metrics queries records)) e := by
  intro queries records metrics
  refine h.yields_queryStore.bind ((yields_list (h.listQueries hp s.now)).bind ?_)
  refine h.toHolds.opens.yields_appliedStore.bind ((yields_list (h.listApplied hp)).bind ?_)
  exact yields_source.bind ((yields_logEvent _ _).bind (yields_pure _))

theorem yields_clearApplied (h : Opens d e c.dataPath m L) :
    ∃ d', Yields (clearApplied c) s d
        (.ok (clearedView "appliedIndexes" (L.appliedOf c.principal).length)) d' ∧
      Holds d' c.dataPath m { L with applied := L.applied.filter fun e => e.1 != c.principal } ∧
        e.SameOutside (dataPlaces m) d' := by
  obtain ⟨d', hclear, hholds⟩ := h.clearApplied hp
  refine ⟨d', h.yields_appliedStore.bind ((yields_clear hclear).bind ?_), hholds⟩
  exact (yields_logEvent _ _).bind (yields_pure _)


theorem yields_clearQueries (h : Opens d e c.dataPath m L) :
    ∃ d', Yields (clearQueries c) s d
        (.ok (clearedView "queries" (L.queriesOf c.principal).length)) d' ∧
      Holds d' c.dataPath m
        { L with
          queries := L.queries.filter fun e => e.1 != c.principal
          analysis? := none } ∧
        e.SameOutside (dataPlaces m) d' := by
  obtain ⟨b, hclear, hb, hsame⟩ := h.clearQueries hp s.now
  obtain ⟨d', hremove, hholds, hsame'⟩ := yields_removeAnalysis (s := s) hb
  refine ⟨d', ?_, hholds, hsame.trans hsame'⟩
  refine h.yields_queryStore.bind ((yields_clear hclear).bind (hremove.bind ?_))
  exact (yields_logEvent _ _).bind (yields_pure _)

theorem yields_analyze (h : Opens d e c.dataPath m L) {r : Batch × Analyzer Seeded}
    (hr : Ledger.analysis c s.entropy (L.queriesOf c.principal) = r) :
    ∃ d', Yields (analyze c) s d
        (.ok (analysisView (.ofRecords (L.appliedOf c.principal)) r.1 r.2.counters)) d' ∧
      Holds d' c.dataPath m
        { L with
          analysis? := some (Text.Utf8.encode (Bundle.layout.list.write r.1.bundles)) } ∧
        e.SameOutside (dataPlaces m) d' := by
  obtain ⟨d', hsave, hholds, hsame⟩ := yields_saveAnalysis (s := s) h.toHolds r.1
  have hfigures : Yields (analyzing c (Analyzer.analyzeBatch (L.queriesOf c.principal))) s e
      (.ok (r.1, r.2.counters)) e := by
    rw [← hr]
    exact yields_analyzing (Analyzer.blind_analyzeBatch _)
  refine ⟨d', yields_within [("queries", toString r.1.size)] ?_, hholds, hsame⟩
  refine h.yields_queryStore.bind ((yields_list (h.listQueries hp s.now)).bind ?_)
  refine hfigures.bind (hsave.bind ?_)
  refine hholds.opens.yields_appliedStore.bind ((yields_list (hholds.listApplied hp)).bind ?_)
  exact yields_pure _

theorem yields_apply (h : Opens d e c.dataPath m L) (queryKey : String) (id : UInt32)
    (load : Path → Except QueryLog.Error (List LoggedQuery)) :
    let r := L.act c s load (.apply queryKey id)
    ∃ d', Yields (apply c queryKey id) s d r.1 d' ∧ Leaves d e c.dataPath m L d' r.2 := by
  have hload := h.yields_loadAnalysis (s := s)
  simp only [Ledger.act, Ledger.offer]
  cases hbatch : L.batch with
  | error fault =>
      rw [hbatch] at hload
      exact ⟨d, hload.bind_error, leaves_self d e _ m L⟩
  | ok batch =>
      rw [hbatch] at hload
      have hyields {r : Except Error Json} {d' : Disk}
          (hr : Yields (applyOf c s batch (L.appliedOf c.principal) queryKey id) s e r d') :
          Yields (apply c queryKey id) s d r d' :=
        yields_apply_of_parts hload h.yields_appliedStore (h.listApplied hp) hr
      cases happlied : (AppliedSet.ofRecords (L.appliedOf c.principal)).contains queryKey id with
      | true =>
          simp only [bind, Except.bind, if_true]
          exact ⟨e, hyields (yields_applyOf_of_contains happlied), h.leaves_opened⟩
      | false =>
          cases hrecord : batch.application queryKey id s.now with
          | error fault =>
              simp only [bind, Except.bind, hrecord]
              exact ⟨e, hyields (yields_applyOf_of_error happlied hrecord), h.leaves_opened⟩
          | ok record =>
              simp only [bind, Except.bind, hrecord]
              obtain ⟨d', hinsert, hholds⟩ := h.insertApplied hp record
              exact ⟨d', hyields (yields_applyOf_of_ok happlied hrecord hinsert), Or.inr hholds⟩

/-- A log is read before anything else is done. -/
theorem exec_upload (h : Opens d e c.dataPath m L) (file : Path) {w : World} (hw : w.disk = d)
    (hids : w.idsUsed = 0) :
    let load := fun path => QueryLog.load s.freshId s.now path c.acceptedExtensions d
    let r := L.act c s load (.upload file)
    ((upload c file).exec s w).1 = r.1 ∧
      Leaves d e c.dataPath m L ((upload c file).exec s w).2.disk r.2 := by
  intro load
  -- no id has been used yet, so those of the run are those of the surroundings
  have hload : QueryLog.load (fun k => s.freshId (w.idsUsed + k)) s.now file
      c.acceptedExtensions w.disk = load file := by
    simp only [load, hids, hw, Nat.zero_add]
  rw [exec_upload_eq, hload]
  simp only [Ledger.act]
  cases hqueries : load file with
  | error fault =>
      have hyields : Yields (keepQueries c s.now (.error fault)) s d (.error (.queryLog fault)) d :=
        (yields_orFail Error.queryLog (.error fault)).bind_error
      obtain ⟨hanswer, hdisk⟩ := hyields w hw
      exact ⟨hanswer, hdisk ▸ leaves_self d e _ m L⟩
  | ok queries =>
      obtain ⟨d', hinsert, hholds⟩ := h.insertQueries hp s.now queries
      have hyields : Yields (keepQueries c s.now (.ok queries)) s d
          (.ok (uploadView s.now queries)) d' := by
        refine (yields_orFail Error.queryLog (.ok queries)).bind ?_
        refine Yields.bind (b := d) (yields_modify fun w hw => hw) ?_
        refine h.yields_queryStore.bind ((yields_insertAll hinsert).bind ?_)
        exact (yields_logEvent _ _).bind (yields_pure _)
      obtain ⟨hanswer, hdisk⟩ := hyields w hw
      exact ⟨hanswer, hdisk ▸ Or.inr hholds⟩

/-- **One action** on a data directory that is intact: what it answers and what it leaves are what
the ledger says. -/
theorem exec_act (h : Opens d e c.dataPath m L) (a : Action) {w : World} (hw : w.disk = d)
    (hids : w.idsUsed = 0) :
    let r := L.act c s (fun path => QueryLog.load s.freshId s.now path c.acceptedExtensions d) a
    ((act c a).exec s w).1 = r.1 ∧
      Leaves d e c.dataPath m L ((act c a).exec s w).2.disk r.2 := by
  have hof {r : Except Error Json} {d' : Disk} {L' : Ledger} (hyields : Yields (act c a) s d r d')
      (hleaves : Leaves d e c.dataPath m L d' L') : ((act c a).exec s w).1 = r ∧
        Leaves d e c.dataPath m L ((act c a).exec s w).2.disk L' := by
    obtain ⟨hanswer, hdisk⟩ := hyields w hw
    exact ⟨hanswer, hdisk ▸ hleaves⟩
  cases a with
  | upload file => exact h.exec_upload hp file hw hids
  | analyze =>
      simp only [Ledger.act]
      generalize hr : Ledger.analysis c s.entropy (L.queriesOf c.principal) = r
      obtain ⟨d', hyields, hholds⟩ := h.yields_analyze hp hr
      exact hof hyields (Or.inr hholds)
  | explain sql =>
      have hyields := yields_explain (c := c) (s := s) (d := d) sql
      simp only [Ledger.act]
      exact hof hyields (leaves_self d e _ m L)
  | apply queryKey id =>
      obtain ⟨d', hyields, hleaves⟩ := h.yields_apply (s := s) hp queryKey id
        fun path => QueryLog.load s.freshId s.now path c.acceptedExtensions d
      exact hof hyields hleaves
  | applied => exact hof (h.yields_applied hp) h.leaves_opened
  | clear appliedIndexes =>
      cases appliedIndexes with
      | false =>
          obtain ⟨d', hyields, hholds⟩ := h.yields_clearQueries (s := s) hp
          exact hof hyields (Or.inr hholds)
      | true =>
          obtain ⟨d', hyields, hholds⟩ := h.yields_clearApplied (s := s) hp
          exact hof hyields (Or.inr hholds)
  | dashboard => exact hof (h.yields_dashboard hp) h.leaves_opened

end Principal

end Opens

/-! ## Runs -/

/-- Nothing is wrong with a configuration that is loaded. -/
theorem problem?_of_load {path : Path} {d : Disk} {c : Config} (h : Config.load path d = .ok c) :
    c.problem? = none := by
  simp only [Config.load, Config.ofText] at h
  split at h
  · cases h
  · split at h
    · cases h
    · split at h
      · cases h
      · rename_i hnone
        cases h
        exact hnone

/-- It names somebody. -/
theorem checkPrincipal_of_load {path : Path} {d : Disk} {c : Config}
    (h : Config.load path d = .ok c) : checkPrincipal c.principal = .ok () := by
  have hproblem := problem?_of_load h
  cases hblank : Text.isBlankText c.principal.toList with
  | false => simp [checkPrincipal, isPrincipal, hblank]
  | true =>
      rw [Config.problem?] at hproblem
      split at hproblem
      · cases hproblem
      · cases hproblem

/-- It names a directory. -/
theorem dataPath_ne_of_load {path : Path} {d : Disk} {c : Config}
    (h : Config.load path d = .ok c) : c.dataPath.text ≠ "" := by
  intro hempty
  have hproblem := problem?_of_load h
  have hblank : Text.isBlankText c.dataDir.toList = true := by
    have hdir : c.dataDir = "" := hempty
    rw [hdir]
    rfl
  rw [Config.problem?, if_pos hblank] at hproblem
  cases hproblem

/-- A configuration is loaded before anything else is done. -/
theorem run_of_load {cmd : Command} {s : Surroundings} {w : World} {c : Config}
    (h : Config.load cmd.config w.disk = .ok c) :
    ∃ journal, cmd.run s w = (act c cmd.action).exec s { w with journal := journal } := by
  have hexec : (loadConfig cmd.config).exec s w = (.ok c, { w with
      journal := { w.journal with threshold := c.severity }.record
        (.ofEvent .configLoaded [("path", cmd.config.text)]) }) := by
    rw [loadConfig, exec_bind_of_ok s w (exec_get s w), h]
    rfl
  exact ⟨_, exec_bind_of_ok s w hexec fun c => act c cmd.action⟩

/-- **One command** on a data directory that is intact, in a new process. -/
theorem Opens.run {d e : Disk} {c : Config} {s : Surroundings} {m : Place} {L : Ledger}
    {cmd : Command} (h : Opens d e c.dataPath m L) (hload : Config.load cmd.config d = .ok c)
    {w : World} (hw : w.disk = d) (hids : w.idsUsed = 0) :
    let r := L.act c s (fun path => QueryLog.load s.freshId s.now path c.acceptedExtensions d)
      cmd.action
    (cmd.run s w).1 = r.1 ∧ Opens.Leaves d e c.dataPath m L (cmd.run s w).2.disk r.2 := by
  obtain ⟨journal, hrun⟩ := run_of_load (s := s) (hw ▸ hload)
  rw [hrun]
  exact h.exec_act (checkPrincipal_of_load hload) cmd.action hw hids

end IndexAdvisor.Command
