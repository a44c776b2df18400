import IndexAdvisor.Proofs.Command.Ledger
import IndexAdvisor.Proofs.Store.Removal

/-!
# Commands that fail

A command that fails leaves all files as they are, whatever is in the data directory, but for two
cases. An analysis is saved before the applied indexes are looked at, which may be damaged. The
statements are removed before the last analysis is, which need not be a file.

Three kinds of steps make up the commands: a `Quiet` step never changes a file, a `Careful` one
changes files only if it succeeds, and a `Sure` one always succeeds.
-/

set_option autoImplicit false

namespace IndexAdvisor.Command

open IndexAdvisor.Analysis
open IndexAdvisor.Random
open IndexAdvisor.Store

namespace Step

variable {α β : Type}

/-! ## Kinds of steps -/

/-- The step never changes a file. -/
def Quiet (x : Step α) : Prop :=
  ∀ (s : Surroundings) (w : World), w.disk.SameFiles (x.exec s w).2.disk

/-- The step changes no file if it fails. -/
def Careful (x : Step α) : Prop :=
  ∀ (s : Surroundings) (w : World) (e : Error),
    (x.exec s w).1 = .error e → w.disk.SameFiles (x.exec s w).2.disk

/-- The step never fails. -/
def Sure (x : Step α) : Prop :=
  ∀ (s : Surroundings) (w : World), ∃ a, (x.exec s w).1 = .ok a

theorem Quiet.careful {x : Step α} (h : Quiet x) : Careful x := fun s w _ _ => h s w

theorem Sure.careful {x : Step α} (h : Sure x) : Careful x := by
  intro s w e he
  obtain ⟨a, ha⟩ := h s w
  rw [ha] at he
  cases he

/-- What a quiet step has done. -/
theorem Quiet.sameFiles_of_exec {x : Step α} (h : Quiet x) {s : Surroundings} {w v : World}
    {r : Except Error α} (hexec : x.exec s w = (r, v)) : w.disk.SameFiles v.disk := by
  have hsame := h s w
  rwa [hexec] at hsame

/-- Quiet steps one after the other are quiet. -/
theorem Quiet.bind {x : Step α} {f : α → Step β} (hx : Quiet x) (hf : ∀ a, Quiet (f a)) :
    Quiet (x >>= f) := fun s w =>
  exec_bind_induction (R := Disk.SameFiles) Disk.SameFiles.trans (hx s w) fun a v _ => hf a s v

/-- Before a careful step no file may have been changed. -/
theorem Careful.bind {x : Step α} {f : α → Step β} (hx : Quiet x) (hf : ∀ a, Careful (f a)) :
    Careful (x >>= f) := by
  intro s w e he
  have hsame := hx s w
  cases hexec : x.exec s w with
  | mk r v =>
      rw [hexec] at hsame
      cases r with
      | ok a =>
          rw [exec_bind_of_ok s w hexec] at he ⊢
          exact hsame.trans (hf a s v e he)
      | error e =>
          rw [exec_bind_of_error s w hexec]
          exact hsame

/-- After a careful step nothing may fail. -/
theorem Careful.bind_sure {x : Step α} {f : α → Step β} (hx : Careful x) (hf : ∀ a, Sure (f a)) :
    Careful (x >>= f) := by
  intro s w e he
  cases hexec : x.exec s w with
  | mk r v =>
      cases r with
      | ok a =>
          rw [exec_bind_of_ok s w hexec] at he
          obtain ⟨b, hb⟩ := hf a s v
          rw [hb] at he
          cases he
      | error fault =>
          have hsame := hx s w fault (by rw [hexec])
          rw [exec_bind_of_error s w hexec]
          rwa [hexec] at hsame

theorem Sure.bind {x : Step α} {f : α → Step β} (hx : Sure x) (hf : ∀ a, Sure (f a)) :
    Sure (x >>= f) := by
  intro s w
  obtain ⟨a, ha⟩ := hx s w
  rw [exec_bind_of_ok s w (Prod.ext ha rfl)]
  exact hf a s _

/-! ## Steps of each kind -/

theorem quiet_pure (a : α) : Quiet (pure a : Step α) := fun _ w => Disk.SameFiles.refl w.disk

theorem quiet_throw (e : Error) : Quiet (throw e : Step α) := fun _ w =>
  Disk.SameFiles.refl w.disk

theorem quiet_read : Quiet (read : Step Surroundings) := fun _ w => Disk.SameFiles.refl w.disk

theorem quiet_get : Quiet (get : Step World) := fun _ w => Disk.SameFiles.refl w.disk

theorem quiet_modify {f : World → World} (h : ∀ w, (f w).disk = w.disk) :
    Quiet (modify f : Step Unit) := by
  intro s w
  rw [exec_modify]
  show w.disk.SameFiles (f w).disk
  rw [h w]
  exact Disk.SameFiles.refl w.disk

theorem quiet_setJournal (journal : World → Log.Journal) :
    Quiet (modify fun w => { w with journal := journal w }) := quiet_modify fun _ => rfl

theorem quiet_log (e : Log.Entry) : Quiet (log e) := quiet_setJournal _

theorem quiet_logEvent (e : Log.Event) (fields : List (String × String)) :
    Quiet (logEvent e fields) := quiet_log _

theorem quiet_orFail {ε : Type} (toError : ε → Error) (r : Except ε α) :
    Quiet (orFail toError r) := by
  cases r with
  | ok a => exact quiet_pure a
  | error e => exact quiet_throw _

theorem quiet_orReport (f : Store.File α) (r : Except Store.Error β) : Quiet (orReport f r) := by
  cases r with
  | ok b => exact quiet_pure b
  | error e =>
      cases hreport : f.report? e with
      | some entry =>
          simp only [orReport, hreport]
          exact (quiet_log entry).bind fun _ => quiet_throw _
      | none =>
          simp only [orReport, hreport]
          exact quiet_throw _

theorem sure_pure (a : α) : Sure (pure a : Step α) := fun _ _ => ⟨a, rfl⟩

theorem sure_log (e : Log.Entry) : Sure (log e) := fun _ _ => ⟨(), rfl⟩

theorem sure_logEvent (e : Log.Event) (fields : List (String × String)) :
    Sure (logEvent e fields) := sure_log _

/-- What a step does with the world that it finds. -/
theorem exec_get_bind (f : World → Step β) (s : Surroundings) (w : World) :
    (get >>= f).exec s w = (f w).exec s w := exec_bind_of_ok s w (exec_get s w) f

/-- A step that takes another disk first has the files of that disk. -/
theorem sameFiles_setDisk {x : Step β} (hx : Quiet x) {s : Surroundings} {w : World} {d : Disk}
    (hd : w.disk.SameFiles d) :
    w.disk.SameFiles ((do
      modify fun w => { w with disk := d }
      x : Step β).exec s w).2.disk := by
  rw [exec_bind_of_ok s w (exec_modify s w _) fun _ => x]
  exact hd.trans (hx s { w with disk := d })

theorem quiet_makeDirectories (p : Path) : Quiet (makeDirectories p) := by
  intro s w
  rw [makeDirectories, exec_get_bind]
  exact sameFiles_setDisk (quiet_orFail _ _) (w.disk.grows_makeDirectories p).sameFiles

/-- Opening a store makes directories only, also where it fails. -/
theorem grows_prepare (f : Store.File α) (d : Disk) : d.Grows (f.prepare d).2 := by
  have hgrows := d.grows_makeDirectories f.path.parent
  rw [Store.File.prepare]
  generalize d.makeDirectories f.path.parent = r at hgrows
  exact hgrows

theorem quiet_openStore (layout : Json.Layout α) (path : Path) :
    Quiet (openStore layout path) := by
  intro s w
  have hgrows := grows_prepare (⟨layout, path⟩ : Store.File α) w.disk
  rw [openStore, exec_get_bind]
  generalize Store.File.prepare (⟨layout, path⟩ : Store.File α) w.disk = r at hgrows
  exact sameFiles_setDisk ((quiet_orReport _ _).bind fun _ => quiet_pure _) hgrows.sameFiles

theorem quiet_list (f : Store.File α) (principal : String) : Quiet (list f principal) :=
  quiet_get.bind fun _ => quiet_orReport _ _

theorem careful_insert (f : Store.File α) (principal : String) (record : α) :
    Careful (insert f principal record) :=
  .bind quiet_get fun _ => .bind (quiet_orReport _ _) fun _ => Sure.careful fun _ _ => ⟨(), rfl⟩

theorem careful_insertAll (f : Store.File α) (principal : String) (records : List α) :
    Careful (insertAll f principal records) :=
  .bind quiet_get fun _ => .bind (quiet_orReport _ _) fun _ => Sure.careful fun _ _ => ⟨(), rfl⟩

theorem careful_clear (f : Store.File α) (principal : String) : Careful (clear f principal) :=
  .bind quiet_get fun _ => .bind (quiet_orReport _ _) fun _ =>
    (Sure.bind (fun _ _ => ⟨(), rfl⟩) fun _ => sure_pure _).careful

end Step

open Step

/-! ## Careful commands -/

variable {c : Config}

theorem quiet_queryStore : Quiet (queryStore c) := quiet_read.bind fun _ => quiet_openStore _ _

theorem quiet_appliedStore : Quiet (appliedStore c) := quiet_openStore _ _

theorem quiet_source : Quiet (source c) := quiet_read.bind fun _ => quiet_pure _

theorem quiet_analyzing {α : Type} (x : StateM (Analyzer Seeded) α) : Quiet (analyzing c x) := by
  refine quiet_source.bind fun _ => quiet_get.bind fun _ => ?_
  dsimp only
  exact (quiet_setJournal _).bind fun _ => quiet_pure _

theorem quiet_loadAnalysis : Quiet (loadAnalysis c) := by
  refine quiet_get.bind fun w => ?_
  show Quiet (if w.disk.isPresent c.analysisPath then _ else throw .analysisNotFound)
  by_cases hpresent : w.disk.isPresent c.analysisPath
  · rw [if_pos hpresent]
    exact (quiet_orFail _ _).bind fun _ => (quiet_orFail _ _).bind fun _ => quiet_pure _
  · rw [if_neg hpresent]
    exact quiet_throw _

theorem careful_upload (file : Path) : Careful (upload c file) :=
  .bind quiet_get fun _ => .bind quiet_read fun _ => .bind (quiet_orFail _ _) fun _ =>
    .bind (quiet_modify fun _ => rfl) fun _ => .bind quiet_queryStore fun _ =>
      (careful_insertAll _ _ _).bind_sure fun _ => (sure_logEvent _ _).bind fun _ => sure_pure _

theorem quiet_explain (sql : String) : Quiet (explain c sql) :=
  (quiet_analyzing _).bind fun _ => (quiet_logEvent _ _).bind fun _ => quiet_pure _

theorem careful_apply (queryKey : String) (id : UInt32) : Careful (apply c queryKey id) := by
  refine .bind quiet_loadAnalysis fun batch => .bind quiet_appliedStore fun store =>
    .bind (quiet_list _ _) fun records => ?_
  have hrest : Careful (do
      let record ← orFail .store (batch.application queryKey id (← read).now)
      insert store c.principal record
      log (appliedEntry record)
      return AppliedIndex.layout.toJson record) :=
    .bind quiet_read fun _ => .bind (quiet_orFail _ _) fun _ =>
      (careful_insert _ _ _).bind_sure fun _ => (sure_log _).bind fun _ => sure_pure _
  by_cases happlied : (AppliedSet.ofRecords records).contains queryKey id
  · simp only [happlied, if_true]
    exact .bind (quiet_throw _) fun _ => hrest
  · simp only [happlied]
    exact hrest

theorem quiet_applied : Quiet (applied c) :=
  quiet_appliedStore.bind fun _ => (quiet_list _ _).bind fun _ => quiet_pure _

theorem careful_clearApplied : Careful (clearApplied c) :=
  .bind quiet_appliedStore fun _ => (careful_clear _ _).bind_sure fun _ =>
    (sure_logEvent _ _).bind fun _ => sure_pure _

theorem quiet_dashboard : Quiet (dashboard c) :=
  quiet_queryStore.bind fun _ => (quiet_list _ _).bind fun _ => quiet_appliedStore.bind fun _ =>
    (quiet_list _ _).bind fun _ => quiet_source.bind fun _ => (quiet_logEvent _ _).bind fun _ =>
      quiet_pure _

/-! ## What is done before a failure -/

/-- The octets of the analysis of some queries. -/
def analysisBytes (c : Config) (entropy : UInt64) (queries : List LoggedQuery) : List UInt8 :=
  Text.Utf8.encode (Bundle.layout.list.write (Ledger.analysis c entropy queries).1.bundles)

/-- The analysis of the stored queries can be saved on the disk `d`, which gives `e`. -/
def Saves (c : Config) (s : Surroundings) (d e : Disk) (bytes : List UInt8) : Prop :=
  ∃ d₁ queries d₂, (queryFile c s.now).prepare d = (.ok (), d₁) ∧
    (queryFile c s.now).list c.principal d₁ = .ok queries ∧
    d₁.makeDirectories c.dataPath = (.ok (), d₂) ∧
    bytes = analysisBytes c s.entropy queries ∧ d₂.write c.analysisPath bytes = .ok e

/-- Records of the principal are removed on the disk `d`, which gives `e`. -/
def Removes (c : Config) (s : Surroundings) (d e : Disk) : Prop :=
  ∃ d₁ n, (queryFile c s.now).prepare d = (.ok (), d₁) ∧
    (queryFile c s.now).clear c.principal d₁ = .ok (n, e) ∧ n ≠ 0

/-- What has been done when the action fails: another analysis has been saved than the one that was
there, or statements have been removed and the last analysis cannot be. -/
def HalfDone (c : Config) (s : Surroundings) (d : Disk) : Action → Prop
  | .analyze => ∃ e bytes l, Saves c s d e bytes ∧ e.locate c.analysisPath = .ok l ∧
      d.node? l ≠ some (.file bytes)
  | .clear false => ∃ e fault, Removes c s d e ∧ e.remove c.analysisPath = .error fault ∧
      fault ≠ .missing
  | _ => False

/-- The files in the data directory. -/
def dataFiles (c : Config) : List Path := [c.queriesPath, c.appliedPath, c.analysisPath]

/-- At the place of the path there is the file that was there before, or none as before. -/
def KeepsFile (d e : Disk) (p : Path) : Prop :=
  ∀ l, e.locate p = .ok l → ∀ bytes, e.node? l = some (.file bytes) ↔ d.node? l = some (.file bytes)

/-- What a command that fails is to be compared with: either all files are the same and nothing has
been half done, or a file of the data directory is another one and something has. -/
def Accounted (c : Config) (s : Surroundings) (d e : Disk) (a : Action) : Prop :=
  d.SameFiles e ∧ ¬HalfDone c s d a ∨ (∃ p ∈ dataFiles c, ¬KeepsFile d e p) ∧ HalfDone c s d a

section

variable {s : Surroundings} {d d₁ e : Disk} {bytes : List UInt8} {fault : Store.Error}

/-- Nothing can be saved without the stored queries. -/
theorem not_saves_of_prepare (h : (queryFile c s.now).prepare d = (.error fault, d₁)) :
    ¬Saves c s d e bytes := by
  rintro ⟨_, _, _, hprepare, -⟩
  cases h.symm.trans hprepare

theorem not_saves_of_list (h : (queryFile c s.now).prepare d = (.ok (), d₁))
    (hlist : (queryFile c s.now).list c.principal d₁ = .error fault) : ¬Saves c s d e bytes := by
  rintro ⟨_, _, _, hprepare, hlist', -⟩
  cases h.symm.trans hprepare
  cases hlist.symm.trans hlist'

/-- Where the queries are listed, it comes to writing their analysis. -/
theorem saves_iff {queries : List LoggedQuery}
    (h : (queryFile c s.now).prepare d = (.ok (), d₁))
    (hlist : (queryFile c s.now).list c.principal d₁ = .ok queries) :
    Saves c s d e bytes ↔ bytes = analysisBytes c s.entropy queries ∧
      ∃ d₂, d₁.makeDirectories c.dataPath = (.ok (), d₂) ∧ d₂.write c.analysisPath bytes = .ok e := by
  constructor
  · rintro ⟨_, _, d₂, hprepare, hlist', hmake, hbytes, hwrite⟩
    cases h.symm.trans hprepare
    cases hlist.symm.trans hlist'
    exact ⟨hbytes, d₂, hmake, hwrite⟩
  · rintro ⟨hbytes, d₂, hmake, hwrite⟩
    exact ⟨d₁, queries, d₂, h, hlist, hmake, hbytes, hwrite⟩

theorem not_removes_of_prepare (h : (queryFile c s.now).prepare d = (.error fault, d₁)) :
    ¬Removes c s d e := by
  rintro ⟨_, _, hprepare, -⟩
  cases h.symm.trans hprepare

theorem not_removes_of_clear (h : (queryFile c s.now).prepare d = (.ok (), d₁))
    (hclear : (queryFile c s.now).clear c.principal d₁ = .error fault) : ¬Removes c s d e := by
  rintro ⟨_, _, hprepare, hclear', -⟩
  cases h.symm.trans hprepare
  cases hclear.symm.trans hclear'

/-- Where the store is cleared, it comes to how many records it held. -/
theorem removes_iff {n : Nat} {e' : Disk} (h : (queryFile c s.now).prepare d = (.ok (), d₁))
    (hclear : (queryFile c s.now).clear c.principal d₁ = .ok (n, e')) :
    Removes c s d e ↔ e = e' ∧ n ≠ 0 := by
  constructor
  · rintro ⟨_, _, hprepare, hclear', hn⟩
    cases h.symm.trans hprepare
    cases hclear.symm.trans hclear'
    exact ⟨rfl, hn⟩
  · rintro ⟨rfl, hn⟩
    exact ⟨d₁, n, h, hclear, hn⟩

/-- The store of the queries opens or does not, and no file changes. -/
theorem queryStore_cases (c : Config) (s : Surroundings) (d : Disk) : ∃ d₁, d.Grows d₁ ∧
    ((∃ fault, (queryFile c s.now).prepare d = (.error fault, d₁) ∧
        Yields (queryStore c) s d (.error (.store fault)) d₁) ∨
      (queryFile c s.now).prepare d = (.ok (), d₁) ∧
        Yields (queryStore c) s d (.ok (queryFile c s.now)) d₁) := by
  have hgrows := grows_prepare (queryFile c s.now) d
  cases hprepare : (queryFile c s.now).prepare d with
  | mk made d₁ =>
  rw [hprepare] at hgrows
  refine ⟨d₁, hgrows, ?_⟩
  cases made with
  | error fault =>
      exact Or.inl ⟨fault, rfl, yields_read.bind (yields_openStore_error hprepare)⟩
  | ok u => exact Or.inr ⟨rfl, yields_read.bind (yields_openStore hprepare)⟩

end

/-- A saved analysis is found at the place of its path, and no other file has changed. -/
theorem Saves.exists_place {s : Surroundings} {d e : Disk} {bytes : List UInt8}
    (h : Saves c s d e bytes) : ∃ l, e.Names c.analysisPath l ∧ e.node? l = some (.file bytes) ∧
      (d.node? l = some (.file bytes) → d.SameFiles e) := by
  obtain ⟨d₁, queries, d₂, hprepare, -, hmake, -, hwrite⟩ := h
  have hgrows := grows_prepare (queryFile c s.now) d
  have hgrows' := d₁.grows_makeDirectories c.dataPath
  rw [hprepare] at hgrows
  rw [hmake] at hgrows'
  obtain ⟨l, hl, rfl⟩ := Disk.names_of_change hwrite
  refine ⟨l, hl.mono (Disk.sameDirectories_put_file hl.node_ne bytes),
    d₂.node?_put_self _ hl.ne_root, fun hnode => ?_⟩
  have hsame := (hgrows.trans hgrows').sameFiles
  exact hsame.trans (Disk.SameFiles.put_self (hsame.file_iff.mpr hnode))

/-- There is one way to save an analysis. -/
theorem Saves.unique {s : Surroundings} {d e e' : Disk} {bytes bytes' : List UInt8}
    (h : Saves c s d e bytes) (h' : Saves c s d e' bytes') : e' = e ∧ bytes' = bytes := by
  obtain ⟨d₁, queries, d₂, hprepare, hlist, hmake, rfl, hwrite⟩ := h
  obtain ⟨rfl, d₂', hmake', hwrite'⟩ := (saves_iff hprepare hlist).mp h'
  cases hmake.symm.trans hmake'
  exact ⟨Except.ok.inj (hwrite'.symm.trans hwrite), rfl⟩

/-- The second part of an analysis: what has been found out is saved, and shown with what has been
applied. -/
def saveAndShow (c : Config) (batch : Batch) (counters : Counters) :
    Step (Json × List (String × String)) := do
  saveAnalysis c batch
  let applied := AppliedSet.ofRecords (← list (← appliedStore c) c.principal)
  return (analysisView applied batch counters, [("queries", toString batch.size)])

/-- What an analysis shows does not change a file any more. -/
theorem yields_show (c : Config) (s : Surroundings) (d : Disk)
    (view : List AppliedIndex → Json × List (String × String)) :
    ∃ r e, Yields (do return view (← list (← appliedStore c) c.principal)) s d r e ∧ d.Grows e := by
  have hgrows := grows_prepare (appliedFile c) d
  cases hprepare : (appliedFile c).prepare d with
  | mk made e =>
  rw [hprepare] at hgrows
  cases made with
  | error fault => exact ⟨_, e, (yields_openStore_error hprepare).bind_error, hgrows⟩
  | ok u =>
      have hstore : Yields (appliedStore c) s d (.ok (appliedFile c)) e := yields_openStore hprepare
      cases hlist : (appliedFile c).list c.principal e with
      | error fault => exact ⟨_, e, hstore.bind (yields_list hlist).bind_error, hgrows⟩
      | ok records => exact ⟨_, e, hstore.bind ((yields_list hlist).bind (yields_pure _)), hgrows⟩

/-- The second part of an analysis either stops before it changes a file, or saves what has been
found out and changes no file after that. -/
theorem saveAndShow_cases (c : Config) (s : Surroundings) (d : Disk) (batch : Batch)
    (counters : Counters) :
    let bytes := Text.Utf8.encode (Bundle.layout.list.write batch.bundles)
    ∃ r e, Yields (saveAndShow c batch counters) s d r e ∧
      ((d.SameFiles e ∧ ∀ d₂ b, d.makeDirectories c.dataPath = (.ok (), d₂) →
        d₂.write c.analysisPath bytes ≠ .ok b) ∨
      ∃ d₂ b, d.makeDirectories c.dataPath = (.ok (), d₂) ∧
        d₂.write c.analysisPath bytes = .ok b ∧ b.Grows e) := by
  intro bytes
  have hgrows := d.grows_makeDirectories c.dataPath
  cases hmake : d.makeDirectories c.dataPath with
  | mk made d₂ =>
  rw [hmake] at hgrows
  cases made with
  | error fault =>
      refine ⟨_, d₂, (yields_makeDirectories_error hmake).bind_error.bind_error,
        Or.inl ⟨hgrows.sameFiles, ?_⟩⟩
      intro d₃ b hmade
      cases hmade
  | ok u =>
      cases hwrite : d₂.write c.analysisPath bytes with
      | error fault =>
          refine ⟨_, d₂, ((yields_makeDirectories hmake).bind
            (yields_changeDisk_error hwrite)).bind_error, Or.inl ⟨hgrows.sameFiles, ?_⟩⟩
          intro d₃ b hmade
          cases hmade
          rw [hwrite]
          exact fun h => by cases h
      | ok b =>
          obtain ⟨r, e, hshow, hb⟩ := yields_show c s b fun records =>
            (analysisView (.ofRecords records) batch counters, [("queries", toString batch.size)])
          exact ⟨r, e, ((yields_makeDirectories hmake).bind (yields_changeDisk_ok hwrite)).bind hshow,
            Or.inr ⟨d₂, b, rfl, hwrite, hb⟩⟩

/-- An analysis either stops before it changes a file, or saves what it has found out and changes no
file after that. -/
theorem analyze_cases (c : Config) (s : Surroundings) (d : Disk) :
    ∃ r e, Yields (analyze c) s d r e ∧
      ((d.SameFiles e ∧ ∀ b bytes, ¬Saves c s d b bytes) ∨
        ∃ b bytes, Saves c s d b bytes ∧ b.Grows e) := by
  obtain ⟨d₁, hgrows, ⟨fault, hprepare, hstore⟩ | ⟨hprepare, hstore⟩⟩ := queryStore_cases c s d
  · exact ⟨_, d₁, yields_within_error hstore.bind_error,
      Or.inl ⟨hgrows.sameFiles, fun _ _ => not_saves_of_prepare hprepare⟩⟩
  cases hlist : (queryFile c s.now).list c.principal d₁ with
  | error fault =>
      exact ⟨_, d₁, yields_within_error (hstore.bind (yields_list hlist).bind_error),
        Or.inl ⟨hgrows.sameFiles, fun _ _ => not_saves_of_list hprepare hlist⟩⟩
  | ok queries =>
  obtain ⟨f, hf⟩ : ∃ f, Ledger.analysis c s.entropy queries = f := ⟨_, rfl⟩
  have hfigures : Yields (analyzing c (Analyzer.analyzeBatch queries)) s d₁
      (.ok (f.1, f.2.counters)) d₁ := by
    rw [← hf]
    exact yields_analyzing (Analyzer.blind_analyzeBatch queries)
  obtain ⟨r, e, hsave, hcases⟩ := saveAndShow_cases c s d₁ f.1 f.2.counters
  have hbytes : analysisBytes c s.entropy queries =
      Text.Utf8.encode (Bundle.layout.list.write f.1.bundles) := by
    rw [analysisBytes, hf]
  rw [← hbytes] at hcases
  -- The answer differs when saving fails, but the disk is the one that saving leaves.
  have hanalyze : ∃ answer, Yields (analyze c) s d answer e := by
    cases r with
    | error fault =>
        refine ⟨.error fault, yields_within_error ?_⟩
        exact hstore.bind ((yields_list hlist).bind (hfigures.bind hsave))
    | ok p =>
        refine ⟨.ok p.1, yields_within p.2 ?_⟩
        exact hstore.bind ((yields_list hlist).bind (hfigures.bind hsave))
  obtain ⟨answer, hanalyze⟩ := hanalyze
  refine ⟨answer, e, hanalyze, ?_⟩
  simp only [saves_iff hprepare hlist]
  rcases hcases with ⟨hsame, hnone⟩ | ⟨d₂, b, hmake, hwrite, hb⟩
  · refine Or.inl ⟨hgrows.sameFiles.trans hsame, ?_⟩
    rintro b bytes ⟨rfl, d₂, hmake, hwrite⟩
    exact hnone d₂ b hmake hwrite
  · exact Or.inr ⟨b, _, ⟨rfl, d₂, hmake, hwrite⟩, hb⟩

/-- A removal of statements that fails either changes no file, or has removed some and stops at the
last analysis. -/
theorem clearQueries_cases (c : Config) (s : Surroundings) (d : Disk) :
    ∃ r e, Yields (clearQueries c) s d r e ∧
      ((∃ v, r = .ok v) ∨ (d.SameFiles e ∧ ¬HalfDone c s d (.clear false)) ∨
        Removes c s d e ∧ HalfDone c s d (.clear false)) := by
  obtain ⟨d₁, hgrows, ⟨fault, hprepare, hstore⟩ | ⟨hprepare, hstore⟩⟩ := queryStore_cases c s d
  · refine ⟨_, d₁, hstore.bind_error, Or.inr (Or.inl ⟨hgrows.sameFiles, ?_⟩)⟩
    rintro ⟨_, _, hremoves, -⟩
    exact not_removes_of_prepare hprepare hremoves
  cases hclear : (queryFile c s.now).clear c.principal d₁ with
  | error fault =>
      refine ⟨_, d₁, hstore.bind (yields_clear_error hclear).bind_error,
        Or.inr (Or.inl ⟨hgrows.sameFiles, ?_⟩)⟩
      rintro ⟨_, _, hremoves, -⟩
      exact not_removes_of_clear hprepare hclear hremoves
  | ok removed =>
  obtain ⟨n, e⟩ := removed
  have hremoves {e' : Disk} : Removes c s d e' ↔ e' = e ∧ n ≠ 0 := removes_iff hprepare hclear
  -- The log is cleared: what is left to tell is whether the analysis goes too.
  have hdone {e' : Disk} (hremove : Yields (removeAnalysis c) s e (.ok ()) e') :
      Yields (clearQueries c) s d (.ok (clearedView "queries" n)) e' :=
    hstore.bind ((yields_clear hclear).bind (hremove.bind
      ((yields_logEvent _ _).bind (yields_pure _))))
  cases hremove : e.remove c.analysisPath with
  | ok e' =>
      exact ⟨_, e', hdone (yields_changeDisk_ok (by rw [hremove])), Or.inl ⟨_, rfl⟩⟩
  | error fault =>
      by_cases hmissing : fault = .missing
      · subst hmissing
        exact ⟨_, e, hdone (yields_changeDisk_ok (by rw [hremove])), Or.inl ⟨_, rfl⟩⟩
      · have hfails : Yields (removeAnalysis c) s e (.error (.disk fault)) e := by
          refine yields_changeDisk_error ?_
          rw [hremove]
          cases fault <;> first | rfl | exact absurd rfl hmissing
        refine ⟨_, e, hstore.bind ((yields_clear hclear).bind hfails.bind_error), Or.inr ?_⟩
        -- A log that held nothing is not written, so the failure has changed no file.
        by_cases hn : n = 0
        · subst hn
          refine Or.inl ⟨?_, ?_⟩
          · rw [eq_of_clear_zero hclear]
            exact hgrows.sameFiles
          · rintro ⟨_, _, hnone, -⟩
            exact (hremoves.mp hnone).2 rfl
        · exact Or.inr ⟨hremoves.mpr ⟨rfl, hn⟩, e, fault, hremoves.mpr ⟨rfl, hn⟩, hremove, hmissing⟩

/-- Removed statements are missing from their file. -/
theorem Removes.not_keepsFile {s : Surroundings} {d e : Disk} (h : Removes c s d e) :
    ¬KeepsFile d e c.queriesPath := by
  obtain ⟨d₁, n, hprepare, hclear, hn⟩ := h
  have hgrows := grows_prepare (queryFile c s.now) d
  rw [hprepare] at hgrows
  obtain ⟨l, new, hl, hnew, hold⟩ := file_ne_of_clear hclear hn
  intro hkeeps
  exact hold (hgrows.file_iff.mpr ((hkeeps l hl.locate new).mp hnew))

/-! ## Commands that fail -/

theorem keepsFile_of_sameFiles {d e : Disk} (h : d.SameFiles e) (p : Path) : KeepsFile d e p :=
  fun _ _ _ => h.file_iff

/-- **An action that fails** leaves all files as they are, or has been half done. -/
theorem accounted_of_exec {s : Surroundings} {w : World} {a : Action} {fault : Error}
    (h : ((act c a).exec s w).1 = .error fault) :
    Accounted c s w.disk ((act c a).exec s w).2.disk a := by
  have hof (hcareful : Careful (act c a)) (hnot : ¬HalfDone c s w.disk a) :
      Accounted c s w.disk ((act c a).exec s w).2.disk a :=
    Or.inl ⟨hcareful s w fault h, hnot⟩
  cases a with
  | upload file => exact hof (careful_upload file) id
  | analyze =>
      obtain ⟨r, e, hyields, hcases⟩ := analyze_cases c s w.disk
      have hact : Yields (act c .analyze) s w.disk r e := hyields
      rw [(hact w rfl).2]
      rcases hcases with ⟨hsame, hnone⟩ | ⟨b, bytes, hsaves, hgrows⟩
      · exact Or.inl ⟨hsame, fun ⟨b, bytes, _, hsaves, _⟩ => hnone b bytes hsaves⟩
      -- what was saved may be what was there, and then nothing has changed
      · obtain ⟨l, hl, hnode, hkept⟩ := hsaves.exists_place
        by_cases hold : w.disk.node? l = some (.file bytes)
        · refine Or.inl ⟨(hkept hold).trans hgrows.sameFiles, ?_⟩
          rintro ⟨b', bytes', l', hsaves', hl', hne⟩
          obtain ⟨rfl, rfl⟩ := hsaves.unique hsaves'
          cases hl.locate.symm.trans hl'
          exact hne hold
        · refine Or.inr ⟨⟨c.analysisPath, by simp [dataFiles], fun hkeeps => hold ?_⟩,
            b, bytes, l, hsaves, hl.locate, hold⟩
          exact (hkeeps l (hgrows.keeps.locate hl.locate) bytes).mp (hgrows.node?_eq_some hnode)
  | explain sql => exact hof (quiet_explain sql).careful id
  | apply queryKey id => exact hof (careful_apply queryKey id) fun h => h
  | applied => exact hof quiet_applied.careful id
  | clear appliedIndexes =>
      cases appliedIndexes with
      | true => exact hof careful_clearApplied id
      | false =>
          obtain ⟨r, e, hyields, hcases⟩ := clearQueries_cases c s w.disk
          have hact : Yields (act c (.clear false)) s w.disk r e := hyields
          obtain ⟨hanswer, hdisk⟩ := hact w rfl
          rw [hdisk]
          rcases hcases with ⟨v, rfl⟩ | hsame | ⟨hremoves, hhalf⟩
          · rw [hanswer] at h
            cases h
          · exact Or.inl hsame
          · exact Or.inr ⟨⟨c.queriesPath, by simp [dataFiles], hremoves.not_keepsFile⟩, hhalf⟩
  | dashboard => exact hof quiet_dashboard.careful id

/-- **A command that fails changes no file**, whatever the data directory holds, exactly if nothing
has been half done: no other analysis has been saved before the applied indexes were found damaged,
and no statements have been removed before the last analysis was found to be no file. Then all
files of the disk are the same, not only those of the data directory. -/
theorem run_error_keepsFile_iff {cmd : Command} {s : Surroundings} {w w' : World} {fault : Error}
    (h : cmd.run s w = (.error fault, w')) :
    (∀ c, Config.load cmd.config w.disk = .ok c →
      ((∀ p ∈ dataFiles c, KeepsFile w.disk w'.disk p) ↔ ¬HalfDone c s w.disk cmd.action)) ∧
    ((∀ c, Config.load cmd.config w.disk = .ok c → ¬HalfDone c s w.disk cmd.action) →
      w.disk.SameFiles w'.disk) := by
  cases hload : Config.load cmd.config w.disk with
  | error e =>
      refine ⟨fun c hc => absurd hc (by simp), fun _ => ?_⟩
      have hrun : cmd.run s w = (.error (.config e), w) := by
        refine exec_bind_of_error s w ?_ fun c => act c cmd.action
        rw [loadConfig, exec_get_bind, hload]
        rfl
      rw [hrun] at h
      cases h
      exact Disk.SameFiles.refl _
  | ok c =>
      obtain ⟨journal, hrun⟩ := run_of_load (s := s) hload
      rw [hrun] at h
      have hdisk := congrArg (fun r => r.2.disk) h
      have haccounted := accounted_of_exec (congrArg Prod.fst h)
      rw [show ((act c cmd.action).exec s { w with journal := journal }).2.disk = w'.disk from
        hdisk] at haccounted
      rcases haccounted with ⟨hsame, hnot⟩ | ⟨⟨p, hp, hnot⟩, hhalf⟩
      · refine ⟨fun c' hc' => ?_, fun _ => hsame⟩
        cases hc'
        exact ⟨fun _ => hnot, fun _ p _ => keepsFile_of_sameFiles hsame p⟩
      · refine ⟨fun c' hc' => ?_, fun hnone => absurd hhalf (hnone c rfl)⟩
        cases hc'
        exact ⟨fun hkeeps => absurd (hkeeps p hp) hnot, fun hnone => absurd hhalf hnone⟩

/-! ### A damaged file -/

/-- A world with a configuration and a file of applied indexes whose only line is not sealed. -/
def damagedWorld : World where
  disk := ⟨.root, [
    (.ofNames ["config"], .file (Text.Utf8.encode "\x7b\"data_dir\":\"data\"\x7d".toList)),
    (.ofNames ["data"], .directory),
    (.ofNames ["data", "applied_indexes.jsonl"], .file [0x78, 0x0A])]⟩
  journal := .empty
  idsUsed := 0

/-- What happens to the damaged world. -/
def damagedRun (a : Action) : Except Error Json × World :=
  Command.run ⟨⟨"config"⟩, a⟩ ⟨"now", "0", fun _ => "id", 0⟩ damagedWorld

/-- Nothing can be applied without an analysis, and the files stay as they are. -/
theorem run_error_keepsFile_iff_apply :
    damagedWorld.disk.SameFiles (damagedRun (.apply "q0" 1)).2.disk := by
  have hfails : damagedRun (.apply "q0" 1) =
      (.error .analysisNotFound, (damagedRun (.apply "q0" 1)).2) :=
    Prod.ext (eq_error_of_failure? (by decide +kernel)) rfl
  exact (run_error_keepsFile_iff hfails).2 fun _ _ h => h

/-- **An analysis that fails is saved.** The damage to the applied indexes is found only then. -/
theorem analyze_fails_and_saves :
    failure? (damagedRun .analyze).1 = some (.store (.checksumMismatch 1)) ∧
      damagedWorld.disk.readBytes ⟨"data/last_analysis.json"⟩ = .error .missing ∧
      (damagedRun .analyze).2.disk.readBytes ⟨"data/last_analysis.json"⟩ = .ok [0x5B, 0x5D] := by
  decide +kernel

end IndexAdvisor.Command
