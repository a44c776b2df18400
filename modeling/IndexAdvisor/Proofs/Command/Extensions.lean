import IndexAdvisor.Proofs.Command.Footprints
import IndexAdvisor.Proofs.Disk.Extensions

/-!
# What commands add to files

Only clearing takes records away. An upload adds a line for each of its statements, an apply adds
the line of its record, both behind what their file held, and no command but these and the clearing
ones changes the files of statements and applied indexes at all.
-/

set_option autoImplicit false

namespace IndexAdvisor.Store.File

variable {α : Type} {f : File α} {principal : String} {d e : Disk}

/-! ## Records added one after the other -/

/-- **Records that are added at once are added one after the other.** -/
theorem insertAll_cons (f : File α) (principal : String) (record : α) (records : List α)
    (d : Disk) : f.insertAll principal (record :: records) d =
      (f.insert principal record d >>= f.insertAll principal records) := by
  cases records with
  | nil =>
      rw [insertAll_singleton]
      cases f.insert principal record d <;> rfl
  | cons next records =>
      simp only [insertAll, insert, List.isEmpty_cons, Bool.false_eq_true, if_false]
      cases hp : checkPrincipal principal with
      | error fault => rfl
      | ok u =>
          rw [List.flatMap_cons, ← Disk.append_append]
          simp only [bind, Except.bind]
          cases d.append f.path (f.line principal record) with
          | error fault => rfl
          | ok b =>
              simp only [onDisk, insertAll, List.isEmpty_cons, Bool.false_eq_true, if_false, hp,
                bind, Except.bind]

/-- A record that is added stands in a line behind what the file held. -/
theorem extends_of_insert {record : α} (h : f.insert principal record d = .ok e) :
    d.Extends e f.path (f.line principal record) ∧ d.Keeps e ∧ ∃ l, e.locate f.path = .ok l := by
  obtain ⟨u, -, happend⟩ := bind_eq_ok_iff.mp h
  exact Disk.extends_of_append (onDisk_eq_ok_iff.mp happend)

/-- **Records that are added stand in lines behind what the file held**, in order. -/
theorem extends_of_insertAll {records : List α} (h : f.insertAll principal records d = .ok e) :
    d.Extends e f.path (records.flatMap (f.line principal)) ∧ d.Keeps e := by
  induction records generalizing d with
  | nil =>
      cases h
      exact ⟨.of_sameFiles (Disk.SameFiles.refl e) f.path, Disk.Keeps.refl e⟩
  | cons record records ih =>
      rw [insertAll_cons] at h
      obtain ⟨b, hinsert, hrest⟩ := bind_eq_ok_iff.mp h
      obtain ⟨hfirst, hkeeps, l, hl⟩ := extends_of_insert hinsert
      obtain ⟨hmore, hkeeps'⟩ := ih hrest
      -- the others go behind the first one, for its path still leads to the same place
      exact ⟨hfirst.trans hmore hkeeps' hl, hkeeps.trans hkeeps'⟩

end IndexAdvisor.Store.File

namespace IndexAdvisor.Command

open IndexAdvisor.Analysis
open IndexAdvisor.Random
open IndexAdvisor.Store

/-! ## Steps that add -/

namespace Step

variable {α β : Type} {s : Surroundings} {w v : World} {f : File α} {principal : String}

theorem insertAll_eq_ok {records : List α}
    (h : (insertAll f principal records).exec s w = (.ok (), v)) :
    f.insertAll principal records w.disk = .ok v.disk := by
  cases hinsert : f.insertAll principal records w.disk with
  | ok e => rw [((yields_insertAll hinsert).eq_of_exec rfl h).2]
  | error fault => cases ((yields_insertAll_error hinsert).eq_of_exec rfl h).1

theorem insert_eq_ok {record : α} (h : (insert f principal record).exec s w = (.ok (), v)) :
    f.insert principal record w.disk = .ok v.disk := by
  cases hinsert : f.insert principal record w.disk with
  | ok e => rw [((yields_insert hinsert).eq_of_exec rfl h).2]
  | error fault => cases ((yields_insert_error hinsert).eq_of_exec rfl h).1

end Step

open Step

variable {c : Config} {s : Surroundings} {w w' : World}

/-- **An upload that succeeds** has read a log, has opened the directory, and has added the queries
of the log. -/
theorem upload_eq_ok {file : Path} {answer : Json}
    (h : (upload c file).exec s w = (.ok answer, w')) :
    ∃ (freshId : Nat → String) (queries : List LoggedQuery) (e : Disk),
      QueryLog.load freshId s.now file c.acceptedExtensions w.disk = .ok queries ∧
      answer = uploadView s.now queries ∧
      (queryFile c s.now).prepare w.disk = (.ok (), e) ∧
      (queryFile c s.now).insertAll c.principal queries e = .ok w'.disk := by
  rw [Opens.exec_upload_eq, Opens.keepQueries] at h
  obtain ⟨queries, w₁, hload, h⟩ := exec_bind_eq_ok h
  obtain ⟨_, w₂, hcount, h⟩ := exec_bind_eq_ok h
  obtain ⟨f, w₃, hopen, h⟩ := exec_bind_eq_ok h
  obtain ⟨_, w₄, hinsert, h⟩ := exec_bind_eq_ok h
  obtain ⟨hload, hw₁⟩ := orFail_eq_ok hload
  have hw₂ : w₂.disk = w₁.disk := congrArg (fun r => r.2.disk) hcount.symm
  obtain ⟨hanswer, hw'⟩ :=
    ((yields_logEvent _ _).bind (yields_pure (uploadView s.now queries))).eq_of_exec rfl h
  rw [queryStore, exec_bind_of_ok s w₂ (exec_read s w₂)] at hopen
  obtain ⟨rfl, hprepare⟩ := openStore_eq_ok hopen
  rw [hw₂, hw₁] at hprepare
  exact ⟨fun k => s.freshId (w.idsUsed + k), queries, w₃.disk, hload, Except.ok.inj hanswer,
    hprepare, hw' ▸ insertAll_eq_ok hinsert⟩

/-- An upload that succeeds adds the lines of the statements that it answers. -/
theorem extends_of_upload {file : Path} {answer : Json}
    (h : (upload c file).exec s w = (.ok answer, w')) :
    ∃ queries, answer = uploadView s.now queries ∧ w.disk.Extends w'.disk c.queriesPath
      (queries.flatMap ((queryFile c s.now).line c.principal)) := by
  obtain ⟨freshId, queries, e, -, hanswer, hprepare, hinsert⟩ := upload_eq_ok h
  have hgrows := grows_prepare (queryFile c s.now) w.disk
  rw [hprepare] at hgrows
  exact ⟨queries, hanswer,
    (File.extends_of_insertAll hinsert).1.after_sameFiles hgrows.sameFiles⟩

/-- An apply that succeeds adds the line of the record that it answers. -/
theorem extends_of_apply {queryKey : String} {id : UInt32} {answer : Json}
    (h : (apply c queryKey id).exec s w = (.ok answer, w')) :
    ∃ record, answer = AppliedIndex.layout.toJson record ∧
      w.disk.Extends w'.disk c.appliedPath ((appliedFile c).line c.principal record) := by
  obtain ⟨batch, w₁, hload, h⟩ := exec_bind_eq_ok h
  obtain ⟨f, w₂, hopen, h⟩ := exec_bind_eq_ok h
  obtain ⟨records, w₃, hlist, h⟩ := exec_bind_eq_ok h
  have hw₁ : w.disk.SameFiles w₁.disk := quiet_loadAnalysis.sameFiles_of_exec hload
  have hw₂ : w₁.disk.SameFiles w₂.disk := quiet_appliedStore.sameFiles_of_exec hopen
  have hw₃ : w₃.disk = w₂.disk := (list_eq_ok hlist).2
  obtain ⟨rfl, -⟩ := openStore_eq_ok hopen
  by_cases happlied : (AppliedSet.ofRecords records).contains queryKey id
  · simp only [happlied, if_true] at h
    obtain ⟨_, _, hthrow, -⟩ := exec_bind_eq_ok h
    cases hthrow
  · simp only [happlied] at h
    obtain ⟨s', w₄, hread, h⟩ := exec_bind_eq_ok h
    cases hread
    obtain ⟨record, w₅, hrecord, h⟩ := exec_bind_eq_ok h
    obtain ⟨_, w₆, hinsert, h⟩ := exec_bind_eq_ok h
    have hw₅ : w₅.disk = w₃.disk := ((yields_orFail _ _).eq_of_exec rfl hrecord).2
    obtain ⟨hanswer, hw'⟩ := ((yields_log _).bind
      (yields_pure (AppliedIndex.layout.toJson record))).eq_of_exec rfl h
    have hadded := (File.extends_of_insert (insert_eq_ok hinsert)).1
    rw [hw₅, hw₃] at hadded
    rw [hw']
    exact ⟨record, Except.ok.inj hanswer, hadded.after_sameFiles (hw₁.trans hw₂)⟩

/-! ## Commands -/

/-- A file that an action does not touch is kept, also where another action touches it. -/
theorem keepsFile_of_sameBut {d e : Disk} {a : Action} (hdir : c.dataPath.text ≠ "")
    (h : d.SameBut (touched c a) e) {name : String} (hname : name ∈ dataNames)
    (hnot : name ∉ touchedNames a) : KeepsFile d e (c.dataPath.child name) := by
  intro l hl bytes
  refine h.file_iff fun p hp hlocate => ?_
  obtain ⟨other, hother, rfl⟩ := List.mem_map.mp hp
  obtain ⟨rfl, -⟩ := Disk.eq_of_locate_child hdir hdir
    (isName_of_mem (mem_dataNames_of_touchedNames hother)) (isName_of_mem hname) hlocate hl
  exact hnot hother

theorem extends_of_keepsFile {d e : Disk} {p : Path} (h : KeepsFile d e p) :
    ∃ added, d.Extends e p added := ⟨[], .of_file_iff h⟩

/-- A careful step extends a file, if it does where it succeeds. -/
theorem extends_of_careful {α : Type} {x : Step α} {p : Path} (hx : Careful x)
    (h : ∀ a v, x.exec s w = (.ok a, v) → ∃ added, w.disk.Extends v.disk p added) :
    ∃ added, w.disk.Extends (x.exec s w).2.disk p added := by
  cases hexec : x.exec s w with
  | mk r v =>
      cases r with
      | ok a => exact h a v hexec
      | error fault =>
          have hsame := hx s w fault (congrArg Prod.fst hexec)
          rw [hexec] at hsame
          exact ⟨[], .of_sameFiles hsame p⟩

/-- **Only clearing removes records**: any other action leaves the statements and the applied
indexes in front of what it adds. -/
theorem extends_of_act (hdir : c.dataPath.text ≠ "") {a : Action} (ha : ∀ b, a ≠ .clear b)
    (s : Surroundings) (w : World) {name : String}
    (hname : name ∈ ["queries.jsonl", "applied_indexes.jsonl"]) :
    ∃ added, w.disk.Extends ((act c a).exec s w).2.disk (c.dataPath.child name) added := by
  have hsame : w.disk.SameBut (touched c a) ((act c a).exec s w).2.disk := touches_act hdir a s w
  have hdata : name ∈ dataNames := by
    revert name
    decide
  -- an action that does not touch the file leaves it as it is
  by_cases htouched : name ∈ touchedNames a
  · cases a with
    | upload file =>
        obtain rfl : name = "queries.jsonl" := List.mem_singleton.mp htouched
        refine extends_of_careful (careful_upload file) fun answer v h => ?_
        obtain ⟨queries, -, hadded⟩ := extends_of_upload h
        exact ⟨_, hadded⟩
    | apply queryKey id =>
        obtain rfl : name = "applied_indexes.jsonl" := List.mem_singleton.mp htouched
        refine extends_of_careful (careful_apply queryKey id) fun answer v h => ?_
        obtain ⟨record, -, hadded⟩ := extends_of_apply h
        exact ⟨_, hadded⟩
    | analyze =>
        obtain rfl : name = "last_analysis.json" := List.mem_singleton.mp htouched
        exact absurd hname (by decide)
    | clear appliedIndexes => exact absurd rfl (ha appliedIndexes)
    | explain sql => exact absurd htouched List.not_mem_nil
    | applied => exact absurd htouched List.not_mem_nil
    | dashboard => exact absurd htouched List.not_mem_nil
  · exact extends_of_keepsFile (keepsFile_of_sameBut hdir hsame hdata htouched)

/-- Without a configuration nothing is done. -/
theorem run_of_load_error {cmd : Command} {fault : Config.Error}
    (h : Config.load cmd.config w.disk = .error fault) :
    cmd.run s w = (.error (.config fault), w) := by
  refine exec_bind_of_error s w ?_ fun c => act c cmd.action
  rw [loadConfig, exec_get_bind, h]
  rfl

/-- **Every command keeps to its own files, and only clearing removes records.** Whatever is on the
disk and whether the command succeeds or not, no file changes but those of its kind in the data
directory: an upload may change the statements, an analysis the last analysis, an apply the applied
indexes, a clearing command the file that it clears and the last analysis with the statements, and
all others none. The statements and the applied indexes stay in front of what is added, unless they
are cleared. What an upload adds if it succeeds is one sealed line for each statement of its answer,
in order; what an apply adds is the one line of the record that it answers. -/
theorem run_extends {cmd : Command} {s : Surroundings} {w w' : World} {r : Except Error Json}
    (h : cmd.run s w = (r, w')) :
    (∀ fault, Config.load cmd.config w.disk = .error fault → w'.disk = w.disk) ∧
    ∀ c, Config.load cmd.config w.disk = .ok c →
      w.disk.SameBut (touched c cmd.action) w'.disk ∧
      (∀ name ∈ ["queries.jsonl", "applied_indexes.jsonl", "last_analysis.json"],
        name ∉ touchedNames cmd.action → KeepsFile w.disk w'.disk (c.dataPath.child name)) ∧
      ((∀ b, cmd.action ≠ .clear b) → ∀ name ∈ ["queries.jsonl", "applied_indexes.jsonl"],
        ∃ added, w.disk.Extends w'.disk (c.dataPath.child name) added) ∧
      (∀ file answer, cmd.action = .upload file → r = .ok answer →
        ∃ queries, answer = uploadView s.now queries ∧ w.disk.Extends w'.disk c.queriesPath
          (queries.flatMap ((queryFile c s.now).line c.principal))) ∧
      ∀ queryKey id answer, cmd.action = .apply queryKey id → r = .ok answer →
        ∃ record, answer = AppliedIndex.layout.toJson record ∧
          w.disk.Extends w'.disk c.appliedPath ((appliedFile c).line c.principal record) := by
  refine ⟨fun fault hload => ?_, fun c hload => ?_⟩
  · rw [run_of_load_error hload] at h
    cases h
    rfl
  -- the configuration decides what the journal keeps, and no file depends on the journal
  · obtain ⟨journal, hrun⟩ := run_of_load (s := s) hload
    rw [hrun] at h
    have hdir := dataPath_ne_of_load hload
    have hsame : w.disk.SameBut (touched c cmd.action) w'.disk :=
      (touches_act hdir cmd.action).sameBut_of_exec (w := { w with journal := journal }) h
    refine ⟨hsame, fun name hname hnot => ?_, fun ha name hname => ?_, ?_, ?_⟩
    · have hdata : name ∈ dataNames := by
        clear hnot
        revert name
        decide
      exact keepsFile_of_sameBut hdir hsame hdata hnot
    · have hadded := extends_of_act hdir ha s { w with journal := journal } hname
      rwa [h] at hadded
    · intro file answer ha hr
      rw [ha, hr] at h
      exact extends_of_upload (w := { w with journal := journal }) h
    · intro queryKey id answer ha hr
      rw [ha, hr] at h
      exact extends_of_apply (w := { w with journal := journal }) h

/-- Ada uploads a log: its statements stand behind those that were there, and the other files
stay. -/
theorem run_extends_upload :
    let w : World := ⟨logDisk, .empty, 0⟩
    let r := Command.run ⟨⟨"ada"⟩, .upload ⟨"log.txt"⟩⟩ ⟨"now", "0", fun _ => "id", 0⟩ w
    ∃ queries, r.1 = .ok (uploadView "now" queries) ∧
      logDisk.Extends r.2.disk ⟨"data/queries.jsonl"⟩
        (queries.flatMap ((queryFile (pairConfig "ada") "now").line "ada")) ∧
      KeepsFile logDisk r.2.disk ⟨"data/applied_indexes.jsonl"⟩ ∧
      KeepsFile logDisk r.2.disk ⟨"data/last_analysis.json"⟩ := by
  intro w r
  have hload : Config.load ⟨"ada"⟩ w.disk = .ok (pairConfig "ada") := by decide +kernel
  have hnone : failure? r.1 = none := by decide +kernel
  generalize hr : r = outcome at hnone ⊢
  obtain ⟨-, hkeeps, -, hupload, -⟩ := (run_extends hr).2 _ hload
  cases hanswer : outcome.1 with
  | error fault =>
      rw [hanswer] at hnone
      cases hnone
  | ok answer =>
      obtain ⟨queries, rfl, hadded⟩ := hupload ⟨"log.txt"⟩ answer rfl hanswer
      exact ⟨queries, rfl, hadded, hkeeps "applied_indexes.jsonl" (by decide) (by decide),
        hkeeps "last_analysis.json" (by decide) (by decide)⟩

end IndexAdvisor.Command
