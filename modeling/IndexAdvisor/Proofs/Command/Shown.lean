import IndexAdvisor.Proofs.Command.Applications
import IndexAdvisor.Proofs.Command.Footprints
import IndexAdvisor.Proofs.Store.Insertion

/-!
# What is applied is what was shown

The answer to an analysis shows recommendations under keys. Until somebody analyzes or clears
statements in the directory again, applying a key and a number is about what was shown there: the
record is that of the recommendation with the number under the key, and what was not shown is
refused. The last analysis is a file meanwhile, which other commands leave alone.

That the record is there afterwards takes a file of applied indexes whose last line is ended.
-/

set_option autoImplicit false

namespace IndexAdvisor.Command

open IndexAdvisor.Analysis
open IndexAdvisor.Random
open IndexAdvisor.Store
open Step

/-! ## What an analysis shows -/

/-- The key and the recommendations in the view of a bundle. -/
def shownIn (view : Json) : Option (String × List Recommendation) := do
  let queryKey ← text? (← member? "queryId" view)
  let items ← member? "recommendations" view
  let recommendations ← (Recommendation.layout.list.read items.render).toOption
  return (queryKey, recommendations)

/-- The recommendations that are shown in the answer to an analysis, under their keys. -/
def shown (answer : Json) : List (String × List Recommendation) :=
  match member? "queries" answer with
  | some (.array views) => views.filterMap shownIn
  | _ => []

/-- What is to come of applying a key and a number: the record, or why there is none. It depends on
what was shown and on what is on record for the principal. -/
def verdict (shown : List (String × List Recommendation)) (records : List AppliedIndex)
    (queryKey : String) (id : UInt32) (now : String) : Except Error AppliedIndex :=
  if (queryKey, id) ∈ records.map AppliedIndex.key then .error (.alreadyApplied queryKey id)
  else
    match shown.lookup queryKey with
    | none => .error (.store (.queryNotFound queryKey))
    | some recommendations =>
      match recommendations.find? fun r => r.id == id with
      | none => .error (.store (.recommendationNotFound queryKey id))
      | some r =>
        .ok { id, queryKey, indexName := r.indexName, table := r.table, columns := r.columns,
              kind := r.kind.text, improvement := r.improvement, timestamp := now }

/-- What a batch shows. -/
def batchShown (b : Batch) : List (String × List Recommendation) :=
  b.bundles.map fun x => (x.queryKey, x.recommendations)

theorem shownIn_bundleView (applied : AppliedSet) (b : Bundle) :
    shownIn (bundleView applied b) = some (b.queryKey, b.recommendations) := by
  have hread : Recommendation.layout.list.read
      (Recommendation.layout.list.write b.recommendations) = .ok b.recommendations :=
    Json.Layout.read_write (by decide) _
  have hkey : member? "queryId" (bundleView applied b) = some (.string b.queryKey) := rfl
  have hitems : member? "recommendations" (bundleView applied b) =
      some (Recommendation.layout.list.toJson b.recommendations) := rfl
  have hwrite : (Recommendation.layout.list.toJson b.recommendations).render =
      Recommendation.layout.list.write b.recommendations := rfl
  simp only [shownIn, hkey, hitems, text?, hwrite, hread, bind, Option.bind, Except.toOption]
  rfl

/-- **An answer shows what has been found out.** -/
theorem shown_analysisView (applied : AppliedSet) (b : Batch) (counters : Counters) :
    shown (analysisView applied b counters) = batchShown b := by
  show (b.bundles.map (bundleView applied)).filterMap shownIn = _
  rw [List.filterMap_map, batchShown, ← List.filterMap_eq_map]
  exact congrArg (List.filterMap · b.bundles) (funext (shownIn_bundleView applied))

theorem map_fst_batchShown {b : Batch} (h : b.InStep) : (batchShown b).map Prod.fst = b.keys := by
  rw [batchShown, List.map_map, ← h.map_queryKey_bundles]
  rfl

theorem lookup_batchShown {b : Batch} (h : b.InStep) (queryKey : String) :
    (batchShown b).lookup queryKey = (b.get? queryKey).map Bundle.recommendations := by
  rw [batchShown, h.get?_eq_find?]
  induction b.bundles with
  | nil => rfl
  | cons x xs ih =>
      rw [List.map_cons, List.lookup_cons, List.find?_cons, BEq.comm]
      cases x.queryKey == queryKey with
      | true => rfl
      | false => exact ih

/-- The verdict on what a batch shows is what applying to the batch comes to. -/
theorem verdict_batchShown {b : Batch} (h : b.InStep) (records : List AppliedIndex)
    (queryKey : String) (id : UInt32) (now : String) :
    verdict (batchShown b) records queryKey id now =
      if (AppliedSet.ofRecords records).contains queryKey id then
        .error (.alreadyApplied queryKey id)
      else (b.application queryKey id now).mapError .store := by
  rw [verdict, lookup_batchShown h]
  by_cases happlied : (queryKey, id) ∈ records.map AppliedIndex.key
  · rw [if_pos happlied, if_pos (AppliedSet.contains_ofRecords.mpr happlied)]
  · rw [if_neg happlied, if_neg fun h => happlied (AppliedSet.contains_ofRecords.mp h)]
    cases hget : b.get? queryKey with
    | none =>
        have hchoose : b.choose queryKey id = .error (.queryNotFound queryKey) := by
          rw [Batch.choose, hget]
        simp only [Batch.application, hchoose]
        rfl
    | some x =>
        cases hfound : x.recommendation? id with
        | none =>
            have hchoose : b.choose queryKey id = .error (.recommendationNotFound queryKey id) := by
              simp only [Batch.choose, hget, hfound]
            have hfind : (x.recommendations.find? fun r => r.id == id) = none := hfound
            simp only [Batch.application, hchoose, Option.map_some, hfind]
            rfl
        | some r =>
            obtain rfl := Batch.id_of_recommendation? hfound
            have hchoose : b.choose queryKey r.id = .ok r := by
              simp only [Batch.choose, hget, hfound]
            have hfind : (x.recommendations.find? fun r' => r'.id == r.id) = some r := hfound
            simp only [Batch.application, hchoose, Option.map_some, hfind]
            rfl

/-! ## Disks with an analysis -/

/-- On the disk `d` the directory is there, and the last analysis in it is this batch. -/
structure Analyzed (dir : Path) (b : Batch) (d : Disk) : Prop where
  text_ne : dir.text ≠ ""
  inStep : b.InStep
  accepted : Disk.accept (dir.child "applied_indexes.jsonl") = .ok ()
  made : d.makeDirectories (dir.child "applied_indexes.jsonl").parent = (.ok (), d)
  saved : ∃ l, d.locate (dir.child "last_analysis.json") = .ok l ∧
    d.node? l = some (.file (Text.Utf8.encode (Bundle.layout.list.write b.bundles)))

namespace Analyzed

variable {dir : Path} {b : Batch} {d : Disk} {c : Config}

/-- **An analysis lasts** until somebody sets another one in the directory, or removes it. -/
theorem after (h : Analyzed dir b d) {vs : List Visit} (hvs : Spares dir d vs) :
    Analyzed dir b (after d vs) where
  text_ne := h.text_ne
  inStep := h.inStep
  accepted := h.accepted
  made := Disk.makeDirectories_again h.made (keeps_after d vs)
  saved := by
    obtain ⟨l, hl, hfile⟩ := h.saved
    exact ⟨l, (keeps_after d vs).locate hl, node?_after_of_spares hvs h.text_ne hl hfile⟩

/-- The last analysis is read back. -/
theorem yields_loadAnalysis (h : Analyzed c.dataPath b d) (s : Surroundings) :
    Yields (loadAnalysis c) s d (.ok b) d := by
  obtain ⟨l, hl, hfile⟩ := h.saved
  have hlocate : d.locate c.analysisPath = .ok l := hl
  have hpresent : d.isPresent c.analysisPath = true := by
    rw [Disk.isPresent, hlocate]
    simp only [hfile, Option.isSome_some]
  have htext : d.readText c.analysisPath = .ok (Bundle.layout.list.write b.bundles) := by
    simp only [Disk.readText, Disk.readBytes, hlocate, hfile, Text.Utf8.decode?_encode, bind,
      Except.bind]
  refine Yields.get_bind fun w hw => ?_
  rw [hw]
  simp only [hpresent, if_true, htext]
  refine (yields_orFail Error.disk (.ok (Bundle.layout.list.write b.bundles))).bind ?_
  rw [read_write_bundles]
  refine (yields_orFail Error.json (.ok b.bundles)).bind ?_
  rw [h.inStep.ofBundles_bundles]
  exact yields_pure b

theorem yields_appliedStore (h : Analyzed c.dataPath b d) (s : Surroundings) :
    Yields (appliedStore c) s d (.ok (appliedFile c)) d := yields_appliedStore_of_made h.made

/-- Where the applied indexes can be read, their file is at its place in the directory. -/
theorem exists_names (h : Analyzed c.dataPath b d) {bytes : List UInt8}
    (hbytes : (appliedFile c).content d = .ok bytes) :
    ∃ l, d.Names c.appliedPath l ∧ d.bytesAt l = bytes := by
  obtain ⟨l, hl, -⟩ := h.saved
  obtain ⟨m, hm, -⟩ := Disk.isHome_of_locate_child h.text_ne (isName_of_mem (by decide)) hl
  have hname : Path.IsName "applied_indexes.jsonl" := isName_of_mem (by decide)
  have hnode : d.node? (m.below "applied_indexes.jsonl") ≠ some .directory := by
    intro hdirectory
    have hlocate := hm.locate_child hname h.accepted (by decide)
    have hread : d.readBytes c.appliedPath = .error .isDirectory := by
      have hlocate : d.locate c.appliedPath = .ok (m.below "applied_indexes.jsonl") := hlocate
      simp only [Disk.readBytes, hlocate, hdirectory, bind, Except.bind]
    simp only [File.content, appliedFile, hread, onDisk] at hbytes
    cases hbytes
  have hnames : d.Names c.appliedPath (m.below "applied_indexes.jsonl") :=
    hm.names hname h.accepted (by decide) hnode
  exact ⟨_, hnames, Except.ok.inj ((content_of_names hnames).symm.trans hbytes)⟩

end Analyzed

/-- What is listed is what is kept of the entries. -/
theorem list_of_entries {α : Type} {f : File α} {principal : String} {d : Disk}
    {bytes : List UInt8} {es : List (Entry α)} (hp : checkPrincipal principal = .ok ())
    (hbytes : f.content d = .ok bytes) (hes : entries f.layout bytes = .ok es) :
    f.list principal d = .ok ((es.filter fun e => e.principal == principal).map Entry.record) := by
  simp only [File.list, hp, hbytes, hes, bind, Except.bind]

/-- A file that can be read has a path. -/
theorem accept_of_content {α : Type} {f : File α} {d : Disk} {bytes : List UInt8}
    (hpath : f.path.text ≠ "") (h : f.content d = .ok bytes) : Disk.accept f.path = .ok () := by
  cases haccept : Disk.accept f.path with
  | ok u => rfl
  | error fault =>
      have hread : d.readBytes f.path = .error fault := by
        simp only [Disk.readBytes, Disk.locate, haccept, bind, Except.bind]
      have hfault : fault ≠ .missing := by
        rintro rfl
        simp only [Disk.accept, if_neg hpath] at haccept
        split at haccept
        · cases haccept
        · split at haccept <;> cases haccept
      rw [File.content, hread] at h
      cases fault <;> first | exact absurd rfl hfault | cases h

theorem accept_of_list {α : Type} {f : File α} {principal : String} {d : Disk} {records : List α}
    (hpath : f.path.text ≠ "") (h : f.list principal d = .ok records) :
    Disk.accept f.path = .ok () := by
  obtain ⟨u, -, hread⟩ := bind_eq_ok_iff.mp h
  obtain ⟨bytes, hbytes, -⟩ := bind_eq_ok_iff.mp hread
  exact accept_of_content hpath hbytes

/-- What is found out comes from an analyzer with the source of the run. -/
theorem exists_analyzer_of_analyzing {α : Type} {c : Config} {x : StateM (Analyzer Seeded) α}
    {s : Surroundings} {w v : World} {r : α × Counters}
    (h : (analyzing c x).exec s w = (.ok r, v)) :
    ∃ a : Analyzer Seeded, a.source = .ofSeed (c.seed.getD s.entropy) ∧ r.1 = (x a).1 :=
  ⟨.start (.ofSeed (c.seed.getD s.entropy)) w.journal, rfl,
    (congrArg Prod.fst (Except.ok.inj (congrArg Prod.fst h))).symm⟩

/-- A batch that has been saved is in the file of the last analysis. -/
theorem exists_names_of_saveAnalysis {c : Config} {b : Batch} {s : Surroundings} {w v : World}
    {u : Unit} (h : (saveAnalysis c b).exec s w = (.ok u, v)) : ∃ l,
      v.disk.Names c.analysisPath l ∧
        v.disk.node? l = some (.file (Text.Utf8.encode (Bundle.layout.list.write b.bundles))) := by
  obtain ⟨_, w', -, hchange⟩ := exec_bind_eq_ok h
  obtain ⟨l, hl, hdisk⟩ := Disk.names_of_change (changeDisk_eq_ok hchange)
  rw [hdisk]
  exact ⟨l, hl.mono (Disk.sameDirectories_put_file hl.node_ne _),
    w'.disk.node?_put_self _ hl.ne_root⟩

/-- **An analysis that succeeds** has listed the queries when their directory was there, has saved
the batch of them, and has listed the applied indexes at last. It answers the view of the batch. -/
theorem analyze_eq_ok {c : Config} {s : Surroundings} {w v : World} {answer : Json}
    (h : (analyze c).exec s w = (.ok answer, v)) :
    ∃ (d e : Disk) (queries : List LoggedQuery) (records : List AppliedIndex)
      (a : Analyzer Seeded) (counters : Counters),
      let b := (Analyzer.analyzeBatch queries a).1
      a.source = .ofSeed (c.seed.getD s.entropy) ∧
      answer = analysisView (.ofRecords records) b counters ∧
      (w.disk.SameFiles d ∧ (queryFile c s.now).list c.principal d = .ok queries) ∧
      (d.Keeps e ∧ ∃ l, e.Names c.analysisPath l ∧
        e.node? l = some (.file (Text.Utf8.encode (Bundle.layout.list.write b.bundles)))) ∧
      ((appliedFile c).prepare e = (.ok (), v.disk) ∧
        (appliedFile c).list c.principal v.disk = .ok records) := by
  -- the chain is taken apart step by step, each with the world behind it
  obtain ⟨fields, w₀, v₀, hw₀, h, hv⟩ := within_eq_ok h
  obtain ⟨f, w₁, hqueries, h⟩ := exec_bind_eq_ok h
  obtain ⟨queries, w₂, hlist, h⟩ := exec_bind_eq_ok h
  obtain ⟨figures, w₃, hanalyzing, h⟩ := exec_bind_eq_ok h
  obtain ⟨u, w₄, hsave, h⟩ := exec_bind_eq_ok h
  obtain ⟨g, w₅, hopen, h⟩ := exec_bind_eq_ok h
  obtain ⟨records, w₆, happlied, hview⟩ := exec_bind_eq_ok h
  obtain ⟨a, hsource, hfigures⟩ := exists_analyzer_of_analyzing hanalyzing
  have hanswer := (Prod.mk.inj (Except.ok.inj (congrArg Prod.fst hview))).1
  have hlisted := quiet_queryStore.sameFiles_of_exec hqueries
  rw [queryStore, exec_bind_of_ok s w₀ (exec_read s w₀)] at hqueries
  obtain ⟨rfl, -⟩ := openStore_eq_ok hqueries
  obtain ⟨hlist, hw₂⟩ := list_eq_ok hlist
  obtain ⟨rfl, hprepare⟩ := openStore_eq_ok hopen
  obtain ⟨happlied, hw₆⟩ := list_eq_ok happlied
  have hend : v.disk = w₅.disk := by
    have hw₆' : w₆ = v₀ := congrArg Prod.snd hview
    rw [← hv, ← hw₆', hw₆]
  refine ⟨w₁.disk, w₄.disk, queries, records, a, figures.2, hsource, ?view, ⟨?same, hlist⟩,
    ⟨?keeps, ?saved⟩, ?applied⟩
  case view => rw [← hfigures, hanswer]
  case same => exact hw₀ ▸ hlisted
  case keeps =>
    have hquiet := ((quiet_analyzing _).sameFiles_of_exec hanalyzing).keeps
    exact hw₂ ▸ hquiet.trans ((touches_saveAnalysis _).sameBut_of_exec hsave).keeps
  case saved => exact hfigures ▸ exists_names_of_saveAnalysis hsave
  case applied =>
    rw [hend]
    exact ⟨hprepare, happlied⟩

/-- An analysis that succeeds shows a batch, and the batch is the last analysis then. -/
theorem exists_analyzed_of_exec {c : Config} {s : Surroundings} {w v : World} {answer : Json}
    (hdir : c.dataPath.text ≠ "") (h : (analyze c).exec s w = (.ok answer, v)) :
    ∃ b : Batch, shown answer = batchShown b ∧ Analyzed c.dataPath b v.disk ∧
      ∀ x ∈ b.bundles, x.recommendations.length < UInt32.size →
        (x.recommendations.map Recommendation.id).Nodup := by
  obtain ⟨d, e, queries, records, a, counters, -, rfl, -, ⟨-, l, hl, hfile⟩, hprepare, hlist⟩ :=
    analyze_eq_ok h
  have hpath : c.appliedPath.text ≠ "" := Path.child_ne_empty hdir (isName_of_mem (by decide))
  have hmade := makeDirectories_of_prepare hprepare
  have hgrows := e.grows_makeDirectories c.appliedPath.parent
  have hmade' : e.makeDirectories c.appliedPath.parent = (.ok (), v.disk) := hmade
  rw [hmade'] at hgrows
  refine ⟨(Analyzer.analyzeBatch queries a).1, shown_analysisView _ _ _,
    ⟨hdir, ?inStep, ?accepted, ?made, ?saved⟩, fun x hx => Analyzer.nodup_ids_analyzeBatch hx⟩
  case inStep => exact Analyzer.inStep_analyzeBatch queries a
  case accepted => exact accept_of_list (f := appliedFile c) hpath hlist
  case made => exact Disk.makeDirectories_again hmade (Disk.Keeps.refl _)
  case saved => exact ⟨l, hgrows.keeps.locate hl.locate, hgrows.node?_eq_some hfile⟩

/-! ## Applying -/

section Apply

variable {c : Config} {b : Batch} {d : Disk} (s : Surroundings) (queryKey : String) (id : UInt32)

/-- **Applying comes to the verdict** on what the last analysis shows and on what is on record.
Where there is a record, its line is added to the file. -/
theorem Analyzed.yields_apply (h : Analyzed c.dataPath b d)
    (hp : checkPrincipal c.principal = .ok ()) {bytes : List UInt8} {es : List (Entry AppliedIndex)}
    (hbytes : (appliedFile c).content d = .ok bytes)
    (hes : entries AppliedIndex.layout bytes = .ok es) :
    ∃ records, (appliedFile c).list c.principal d = .ok records ∧
      match verdict (batchShown b) records queryKey id s.now with
      | .error fault => Yields (apply c queryKey id) s d (.error fault) d
      | .ok a => ∃ e, Yields (apply c queryKey id) s d (.ok (AppliedIndex.layout.toJson a)) e ∧
        (appliedFile c).content e = .ok (bytes ++ (appliedFile c).line c.principal a) := by
  have hlist := list_of_entries hp hbytes hes
  generalize (es.filter fun e => e.principal == c.principal).map Entry.record = records at hlist
  refine ⟨records, hlist, ?_⟩
  have hyields {r : Except Error Json} {e : Disk}
      (hr : Yields (applyOf c s b records queryKey id) s d r e) :
      Yields (apply c queryKey id) s d r e :=
    yields_apply_of_parts (h.yields_loadAnalysis s) (h.yields_appliedStore s) hlist hr
  rw [verdict_batchShown h.inStep]
  cases happlied : (AppliedSet.ofRecords records).contains queryKey id with
  | true => exact hyields (yields_applyOf_of_contains happlied)
  | false =>
      cases hrecord : b.application queryKey id s.now with
      | error fault => exact hyields (yields_applyOf_of_error happlied hrecord)
      | ok a =>
          obtain ⟨l, hl, rfl⟩ := h.exists_names hbytes
          have hsame := Disk.sameDirectories_put_file hl.node_ne
            (d.bytesAt l ++ (appliedFile c).line c.principal a)
          have hinsert : (appliedFile c).insert c.principal a d =
              .ok (d.put l (.file (d.bytesAt l ++ (appliedFile c).line c.principal a))) := by
            have happend : d.append (appliedFile c).path ((appliedFile c).line c.principal a) =
                .ok (d.put l (.file (d.bytesAt l ++ (appliedFile c).line c.principal a))) :=
              hl.change _
            simp only [File.insert, hp, happend, bind, Except.bind]
            rfl
          refine ⟨_, hyields (yields_applyOf_of_ok happlied hrecord hinsert), ?_⟩
          rw [content_of_names (hl.mono hsame), Disk.bytesAt_put_file d hl.ne_root]

/-- What cannot be read is not added to. -/
theorem Analyzed.yields_apply_of_error (h : Analyzed c.dataPath b d) {fault : Store.Error}
    (hlist : (appliedFile c).list c.principal d = .error fault) :
    Yields (apply c queryKey id) s d (.error (.store fault)) d := by
  refine (h.yields_loadAnalysis s).bind ((h.yields_appliedStore s).bind ?_)
  have hread := yields_list (s := s) hlist
  exact hread.bind_error

end Apply

/-! ## Sessions -/

/-- A visit answers and leaves what its action yields. -/
theorem Visit.run_of_yields {v : Visit} {d e : Disk} {c : Config} {r : Except Error Json}
    (hload : Config.load v.command.config d = .ok c)
    (h : Yields (act c v.command.action) v.surroundings d r e) : v.run d = (r, e) := by
  obtain ⟨journal, hrun⟩ := Visit.run_of_load hload
  obtain ⟨hanswer, hdisk⟩ := h ⟨d, journal, 0⟩ rfl
  rw [hrun]
  exact Prod.ext hanswer hdisk

/-- A visit that is answered is a run of its action. -/
theorem Visit.exec_of_answer {v : Visit} {d : Disk} {c : Config} {answer : Json}
    (hload : Config.load v.command.config d = .ok c) (hanswer : (v.run d).1 = .ok answer) :
    ∃ w w' : World, w.disk = d ∧ w'.disk = (v.run d).2 ∧
      (act c v.command.action).exec v.surroundings w = (.ok answer, w') := by
  obtain ⟨journal, hrun⟩ := Visit.run_of_load hload
  rw [hrun] at hanswer ⊢
  exact ⟨⟨d, journal, 0⟩, _, rfl, rfl, Prod.ext hanswer rfl⟩

/-- A visit that answers to an analysis is a run of it. -/
theorem Visit.exec_of_analyze {v : Visit} {d : Disk} {c : Config} {answer : Json}
    (hload : Config.load v.command.config d = .ok c) (haction : v.command.action = .analyze)
    (hanswer : (v.run d).1 = .ok answer) : ∃ w w' : World, w.disk = d ∧ w'.disk = (v.run d).2 ∧
      (analyze c).exec v.surroundings w = (.ok answer, w') := by
  have hexec := Visit.exec_of_answer hload hanswer
  rwa [haction, act] at hexec

/-- A visit that analyzes shows a batch and leaves it as the last analysis. -/
theorem Visit.exists_analyzed {v : Visit} {d : Disk} {c : Config} {answer : Json}
    (hload : Config.load v.command.config d = .ok c) (haction : v.command.action = .analyze)
    (hanswer : (v.run d).1 = .ok answer) :
    ∃ b : Batch, shown answer = batchShown b ∧ Analyzed c.dataPath b (v.run d).2 ∧
      ∀ x ∈ b.bundles, x.recommendations.length < UInt32.size →
        (x.recommendations.map Recommendation.id).Nodup := by
  obtain ⟨w, w', -, hdisk, hexec⟩ := Visit.exec_of_analyze hload haction hanswer
  rw [← hdisk]
  exact exists_analyzed_of_exec (dataPath_ne_of_load hload) hexec

/-- In a directory that was intact at first the applied indexes can be read, and their last line is
ended. -/
theorem Opens.ended_after {d e : Disk} {c : Config} {m : Place} {L : Ledger} {b : Batch}
    {vs : List Visit} (h : Opens d e c.dataPath m L)
    (hvs : Under (fun c' => c'.dataPath = c.dataPath) d vs)
    (hanalyzed : Analyzed c.dataPath b (after d vs)) :
    ∃ bytes es, (appliedFile c).content (after d vs) = .ok bytes ∧
      entries AppliedIndex.layout bytes = .ok es ∧ Ended bytes := by
  obtain ⟨e₁, hopens, -⟩ := (h.leaves_after hvs).opens h
  have hmade : (after d vs).makeDirectories c.appliedPath.parent = (.ok (), e₁) :=
    hopens.makeDirectories_parent (by decide)
  obtain rfl : after d vs = e₁ := (Prod.mk.inj (hanalyzed.made.symm.trans hmade)).2
  exact ⟨_, _, hopens.stands_applied.content, File.entries_lines faithful_appliedIndex _,
    File.ended_lines _ _⟩

/-- **What is applied is what was shown.** Somebody has analyzed, and since then nobody has analyzed
or cleared statements in that directory. If the applied indexes cannot be read, applying fails for
that reason. Otherwise it comes to the verdict on what was shown and on what is on record: where it
fails nothing changes, and where it succeeds a line is added to the file. The record is then there
behind the others exactly if the file was ended. In a directory that was intact at first it is. -/
theorem apply_after_analyze {d : Disk} {v u : Visit} {vs : List Visit} {c c' : Config}
    {answer : Json} {queryKey : String} {id : UInt32}
    (hload : Config.load v.command.config d = .ok c) (hanalyze : v.command.action = .analyze)
    (hanswer : (v.run d).1 = .ok answer) (hspares : Spares c.dataPath (v.run d).2 vs)
    (hload' : Config.load u.command.config (after d (v :: vs)) = .ok c')
    (hdir : c'.dataPath = c.dataPath) (happly : u.command.action = .apply queryKey id) :
    let before := after d (v :: vs)
    let f := appliedFile c'
    (((shown answer).map Prod.fst).Nodup ∧ ∀ e ∈ shown answer, e.2.length < UInt32.size →
      (e.2.map Recommendation.id).Nodup) ∧
    (∀ fault, f.list c'.principal before = .error fault →
      u.run before = (.error (.store fault), before)) ∧
    (∀ bytes es, f.content before = .ok bytes → entries AppliedIndex.layout bytes = .ok es →
      ∃ records, f.list c'.principal before = .ok records ∧
        match verdict (shown answer) records queryKey id u.surroundings.now with
        | .error fault => u.run before = (.error fault, before)
        | .ok a => (u.run before).1 = .ok (AppliedIndex.layout.toJson a) ∧
          f.content (u.run before).2 = .ok (bytes ++ f.line c'.principal a) ∧
          (entries AppliedIndex.layout (bytes ++ f.line c'.principal a) =
            .ok (es ++ [⟨c'.principal, a⟩]) ↔ Ended bytes)) ∧
    (∀ e m L, Opens d e c.dataPath m L → Under (fun c' => c'.dataPath = c.dataPath) d (v :: vs) →
      ∃ bytes es, f.content before = .ok bytes ∧ entries AppliedIndex.layout bytes = .ok es ∧
        Ended bytes) := by
  intro before f
  obtain ⟨b, hshown, hanalyzed, hids⟩ := Visit.exists_analyzed hload hanalyze hanswer
  -- what the analysis has saved is still there, as nobody has set the last analysis since
  have hbefore : Analyzed c'.dataPath b before := hdir ▸ hanalyzed.after hspares
  have hrun {r : Except Error Json} {e : Disk}
      (h : Yields (apply c' queryKey id) u.surroundings before r e) : u.run before = (r, e) := by
    refine Visit.run_of_yields hload' ?_
    rw [happly]
    exact h
  rw [hshown]
  refine ⟨⟨?keys, ?ids⟩, ?unreadable, ?readable, ?intact⟩
  case keys =>
    rw [map_fst_batchShown hanalyzed.inStep]
    exact hanalyzed.inStep.nodup
  case ids =>
    intro e he
    obtain ⟨x, hx, rfl⟩ := List.mem_map.mp he
    exact hids x hx
  case unreadable =>
    intro fault hlist
    exact hrun (hbefore.yields_apply_of_error u.surroundings queryKey id hlist)
  case readable =>
    intro bytes es hbytes hes
    obtain ⟨records, hlist, happlied⟩ := hbefore.yields_apply u.surroundings queryKey id
      (checkPrincipal_of_load hload') hbytes hes
    refine ⟨records, hlist, ?_⟩
    split at happlied
    · exact hrun happlied
    · obtain ⟨e, hyields, hcontent⟩ := happlied
      rw [hrun hyields]
      exact ⟨rfl, hcontent,
        entries_append_line_iff (f := f) faithful_appliedIndex hes c'.principal _⟩
  case intact =>
    intro e m L hopens hvs
    have hopens' : Opens d e c'.dataPath m L := hdir ▸ hopens
    have hvs' : Under (fun c'' => c''.dataPath = c'.dataPath) d (v :: vs) := hdir ▸ hvs
    exact hopens'.ended_after hvs' hbefore

/-! ### Ended and not ended -/

/-- A disk on which a statement of Ada is stored, with these bytes in the file of applied
indexes. -/
def storedDisk (applied : List UInt8) : Disk where
  workingDirectory := .root
  nodes := pairDisk.nodes ++ [
    (.ofNames ["log.txt"], .file (Text.Utf8.encode "SELECT 1".toList)),
    (.ofNames ["data"], .directory),
    (.ofNames ["data", "queries.jsonl"], .file
      (sealedLine "\x7b\"principal\":\"ada\",\"record\":\x7b\"query\":\"x\"\x7d\x7d".toList)),
    (.ofNames ["data", "applied_indexes.jsonl"], .file applied)]

/-- A record that is to come of an answer. -/
theorem exists_verdict {r : Except Error Json} {queryKey now : String} {id : UInt32}
    (h : (r.toOption.any fun answer => (verdict (shown answer) [] queryKey id now).isOk) = true) :
    ∃ answer a, r = .ok answer ∧ verdict (shown answer) [] queryKey id now = .ok a := by
  cases r with
  | error fault => cases h
  | ok answer =>
      have hverdict : (verdict (shown answer) [] queryKey id now).isOk = true := h
      cases ha : verdict (shown answer) [] queryKey id now with
      | error fault =>
          rw [ha] at hverdict
          cases hverdict
      | ok a => exact ⟨answer, a, rfl, ha⟩

/-- Ada applies what she was shown. Its record is there, for there is a blank line that is ended. -/
theorem apply_after_analyze_ended :
    let d := storedDisk [0x20, 10]
    let v := pairVisit "ada" .analyze
    let u := pairVisit "ada" (.apply "q0" 1)
    let before := after d [v, pairVisit "bob" (.upload ⟨"log.txt"⟩), pairVisit "ada" (.clear true)]
    let f := appliedFile (pairConfig "ada")
    ∃ answer a bytes, (v.run d).1 = .ok answer ∧
      verdict (shown answer) [] "q0" 1 "now" = .ok a ∧
      (u.run before).1 = .ok (AppliedIndex.layout.toJson a) ∧
      f.content (u.run before).2 = .ok bytes ∧
      entries AppliedIndex.layout bytes = .ok [⟨"ada", a⟩] := by
  intro d v u before f
  have hload : Config.load ⟨"ada"⟩ d = .ok (pairConfig "ada") := by decide +kernel
  obtain ⟨hload', hbytes⟩ : Config.load ⟨"ada"⟩ before = .ok (pairConfig "ada") ∧
      f.content before = .ok [0x20, 10] := by decide +kernel
  have hentries : entries f.layout [0x20, 10] = .ok [] := rfl
  obtain ⟨answer, a, hanswer, hverdict⟩ : ∃ answer a, (v.run d).1 = .ok answer ∧
      verdict (shown answer) [] "q0" 1 "now" = .ok a := exists_verdict (by decide +kernel)
  have hspares : Spares ⟨"data"⟩ (v.run d).2
      [pairVisit "bob" (.upload ⟨"log.txt"⟩), pairVisit "ada" (.clear true)] := by
    simp [Spares, Visit.Spares, pairVisit, setsAnalysis]
  obtain ⟨-, -, hreadable, -⟩ := apply_after_analyze (v := v) (u := u) (c := pairConfig "ada")
    hload rfl hanswer hspares hload' rfl rfl
  obtain ⟨records, hlist, happlied⟩ := hreadable [0x20, 10] [] hbytes hentries
  have hnone : f.list "ada" before = .ok [] :=
    list_of_entries (checkPrincipal_of_load hload) hbytes hentries
  obtain rfl : records = [] := Except.ok.inj (hlist.symm.trans hnone)
  have hrecord : verdict (shown answer) [] "q0" 1 u.surroundings.now = .ok a := hverdict
  rw [hrecord] at happlied
  obtain ⟨happly, hcontent, hadded⟩ := happlied
  exact ⟨answer, a, _, hanswer, hverdict, happly, hcontent, hadded.mpr (by decide)⟩

/-- **A record can be lost.** Nothing has been applied, and there is a blank line that is not ended.
Ada applies what she was shown, but her record cannot be read, nor could any other one. -/
theorem apply_spoils_blank :
    let v := pairVisit "ada" .analyze
    let u := pairVisit "ada" (.apply "q0" 1)
    let before := (v.run (storedDisk [0x20])).2
    let f := appliedFile (pairConfig "ada")
    ∃ answer a, (v.run (storedDisk [0x20])).1 = .ok answer ∧ f.list "ada" before = .ok [] ∧
      verdict (shown answer) [] "q0" 1 "now" = .ok a ∧
      (u.run before).1 = .ok (AppliedIndex.layout.toJson a) ∧
      f.list "ada" (u.run before).2 = .error (.checksumMismatch 1) := by
  intro v u before f
  have hload : Config.load ⟨"ada"⟩ (storedDisk [0x20]) = .ok (pairConfig "ada") := by
    decide +kernel
  obtain ⟨hload', hbytes⟩ : Config.load ⟨"ada"⟩ before = .ok (pairConfig "ada") ∧
      f.content before = .ok [0x20] := by decide +kernel
  have hentries : entries f.layout [0x20] = .ok [] := rfl
  have hp : checkPrincipal "ada" = .ok () := checkPrincipal_of_load hload
  have hnone : f.list "ada" before = .ok [] := list_of_entries hp hbytes hentries
  obtain ⟨answer, a, hanswer, hverdict⟩ : ∃ answer a, (v.run (storedDisk [0x20])).1 = .ok answer ∧
      verdict (shown answer) [] "q0" 1 "now" = .ok a := exists_verdict (by decide +kernel)
  obtain ⟨b, hshown, hanalyzed, -⟩ := Visit.exists_analyzed (v := v) hload rfl hanswer
  obtain ⟨records, hlist, happlied⟩ :=
    hanalyzed.yields_apply u.surroundings "q0" 1 hp hbytes hentries
  obtain rfl : records = [] := Except.ok.inj (hlist.symm.trans hnone)
  have hrecord : verdict (batchShown b) [] "q0" 1 u.surroundings.now = .ok a := hshown ▸ hverdict
  rw [hrecord] at happlied
  obtain ⟨e, hyields, hcontent⟩ := happlied
  have hrun : u.run before = (.ok (AppliedIndex.layout.toJson a), e) :=
    Visit.run_of_yields (v := u) hload' hyields
  have hcontent : f.content e = .ok ([0x20] ++ f.line "ada" a) := hcontent
  have hspoilt : entries f.layout ([0x20] ++ f.line "ada" a) = .error (.checksumMismatch 1) := by
    have hblank : Text.Utf8.decode? [0x20] = some [' '] := rfl
    have hplain := plain_payload (f := f) "ada" a
    rw [entries, File.line, payloads_blank_append hplain [0x20] hblank (List.cons_ne_nil _ _) rfl
      (by decide) (by decide)]
    rfl
  refine ⟨answer, a, hanswer, hnone, hverdict, by rw [hrun], ?_⟩
  rw [hrun]
  simp only [File.list, hp, hcontent, hspoilt, bind, Except.bind]

end IndexAdvisor.Command
