import IndexAdvisor.Proofs.Command.Failure
import IndexAdvisor.Proofs.Command.Sessions
import IndexAdvisor.Proofs.Disk.Footprints

/-!
# Footprints of commands

Whatever is on the disk and whether it succeeds or not, a command changes no other files than those
of its kind in its own data directory. So the last analysis of a directory stays as it is while
nobody analyzes or clears statements there.
-/

set_option autoImplicit false

namespace IndexAdvisor.Command

open IndexAdvisor.Analysis
open IndexAdvisor.Random
open IndexAdvisor.Store

namespace Step

variable {α β : Type} {ps : List Path}

/-! ## Steps -/

/-- The step changes no files but those to which the paths lead. -/
def Touches (ps : List Path) (x : Step α) : Prop :=
  ∀ (s : Surroundings) (w : World), w.disk.SameBut ps (x.exec s w).2.disk

theorem Quiet.touches {x : Step α} (h : Quiet x) (ps : List Path) : Touches ps x := fun s w =>
  (h s w).sameBut ps

theorem Touches.sameBut_of_exec {x : Step α} (h : Touches ps x) {s : Surroundings} {w v : World}
    {r : Except Error α} (hexec : x.exec s w = (r, v)) : w.disk.SameBut ps v.disk := by
  have hsame := h s w
  rwa [hexec] at hsame

/-- What a step does to a disk is known from what it yields there. -/
theorem touches_of_yields {x : Step α}
    (h : ∀ (s : Surroundings) (d : Disk), ∃ r e, Yields x s d r e ∧ d.SameBut ps e) :
    Touches ps x := by
  intro s w
  obtain ⟨r, e, hyields, hsame⟩ := h s w.disk
  rw [(hyields w rfl).2]
  exact hsame

namespace Touches

/-- A step behind another one, which may have answered only what it does answer. -/
theorem bind_of_exec {x : Step α} {f : α → Step β} (hx : Touches ps x)
    (hf : ∀ s w a v, x.exec s w = (.ok a, v) → Touches ps (f a)) :
    Touches ps (x >>= f) := fun s w => exec_bind_induction (R := Disk.SameBut ps) Disk.SameBut.trans (hx s w)
    fun a v hexec => hf s w a v hexec s v

theorem bind {x : Step α} {f : α → Step β} (hx : Touches ps x) (hf : ∀ a, Touches ps (f a)) :
    Touches ps (x >>= f) := hx.bind_of_exec fun _ _ a _ _ => hf a

theorem tryCatch {x : Step α} {f : Error → Step α} (hx : Touches ps x)
    (hf : ∀ e, Touches ps (f e)) : Touches ps (MonadExcept.tryCatch x f) := by
  intro s w
  have hsame := hx s w
  cases hexec : x.exec s w with
  | mk r v =>
      rw [hexec] at hsame
      cases r with
      | ok a =>
          rw [exec_tryCatch_of_ok s w hexec]
          exact hsame
      | error e =>
          rw [exec_tryCatch_of_error s w hexec]
          exact hsame.trans (hf e s v)

theorem within {name : String} {x : Step (α × List (String × String))} (hx : Touches ps x) :
    Touches ps (within name x) := by
  refine ((quiet_log _).touches ps).bind fun _ => Touches.bind (hx.tryCatch fun e => ?_) fun a => ?_
  · exact ((quiet_log _).bind fun _ => quiet_throw e).touches ps
  · refine (quiet_read.bind fun _ => ?_).touches ps
    exact (quiet_log _).bind fun _ => quiet_pure a.1

end Touches

theorem touches_changeDisk {change : Disk → Except Disk.Fault Disk}
    (h : ∀ d e, change d = .ok e → d.SameBut ps e) : Touches ps (changeDisk change) := by
  refine touches_of_yields fun s d => ?_
  cases hchange : change d with
  | ok e => exact ⟨_, e, yields_changeDisk_ok hchange, h d e hchange⟩
  | error fault => exact ⟨_, d, yields_changeDisk_error hchange, Disk.SameBut.refl d ps⟩

/-! ## Stores -/

section Stores

variable (f : Store.File α) (principal : String)

/-- Adding to a store changes its file. -/
theorem touches_insertAll (records : List α) :
    Touches [f.path] (insertAll f principal records) := by
  refine touches_of_yields fun s d => ?_
  cases hinsert : f.insertAll principal records d with
  | error fault => exact ⟨_, d, yields_insertAll_error hinsert, Disk.SameBut.refl d _⟩
  | ok e =>
      refine ⟨_, e, yields_insertAll hinsert, ?_⟩
      rw [Store.File.insertAll] at hinsert
      split at hinsert
      · cases hinsert
        exact Disk.SameBut.refl d _
      · obtain ⟨u, -, happend⟩ := bind_eq_ok_iff.mp hinsert
        exact Disk.sameBut_of_change (onDisk_eq_ok_iff.mp happend)

theorem touches_insert (record : α) : Touches [f.path] (insert f principal record) := by
  refine touches_of_yields fun s d => ?_
  cases hinsert : f.insert principal record d with
  | error fault => exact ⟨_, d, yields_insert_error hinsert, Disk.SameBut.refl d _⟩
  | ok e =>
      obtain ⟨u, -, happend⟩ := bind_eq_ok_iff.mp hinsert
      exact ⟨_, e, yields_insert hinsert, Disk.sameBut_of_change (onDisk_eq_ok_iff.mp happend)⟩

/-- Removing from a store changes its file and the one beside it. -/
theorem touches_clear : Touches [f.path, f.aside] (clear f principal) := by
  refine touches_of_yields fun s d => ?_
  cases hclear : f.clear principal d with
  | error fault => exact ⟨_, d, yields_clear_error hclear, Disk.SameBut.refl d _⟩
  | ok removed =>
      obtain ⟨n, e⟩ := removed
      refine ⟨_, e, yields_clear hclear, ?_⟩
      by_cases hn : n = 0
      · subst hn
        rw [eq_of_clear_zero hclear]
        exact Disk.SameBut.refl d _
      · obtain ⟨old, new, -, hreplace, -⟩ := exists_of_clear hclear hn
        obtain ⟨b, hwrite, hrename⟩ := bind_eq_ok_iff.mp (onDisk_eq_ok_iff.mp hreplace)
        have haside : d.SameBut [f.path, f.aside] b := (Disk.sameBut_of_change hwrite).mono
          fun p hp => List.mem_cons_of_mem _ hp
        refine haside.trans ((Disk.sameBut_of_rename hrename).mono fun p hp => ?_)
        rcases List.mem_cons.mp hp with rfl | hp
        · exact List.mem_cons_of_mem _ List.mem_cons_self
        · exact List.mem_singleton.mp hp ▸ List.mem_cons_self

end Stores

end Step

open Step

variable {c : Config}

/-- A step on the store of the logged queries. -/
theorem touches_queryStore_bind {β : Type} {ps : List Path} {g : File LoggedQuery → Step β}
    (hg : ∀ f, f.path = c.queriesPath → Touches ps (g f)) : Touches ps (queryStore c >>= g) := by
  refine (quiet_queryStore.touches ps).bind_of_exec fun s w f v h => hg f ?_
  rw [queryStore, exec_bind_of_ok s w (exec_read s w)] at h
  rw [(openStore_eq_ok h).1]

/-- A step on the store of the applied indexes. -/
theorem touches_appliedStore_bind {β : Type} {ps : List Path} {g : File AppliedIndex → Step β}
    (hg : ∀ f, f.path = c.appliedPath → Touches ps (g f)) :
    Touches ps (appliedStore c >>= g) :=
  (quiet_appliedStore.touches ps).bind_of_exec fun _ _ f _ h =>
    hg f (congrArg File.path (openStore_eq_ok h).1)

/-! ## Commands -/

/-- The names of the files that an action may change. -/
def touchedNames : Action → List String
  | .upload _ => ["queries.jsonl"]
  | .analyze => ["last_analysis.json"]
  | .apply _ _ => ["applied_indexes.jsonl"]
  | .clear false => ["queries.jsonl", "queries.tmp", "last_analysis.json"]
  | .clear true => ["applied_indexes.jsonl", "applied_indexes.tmp"]
  | _ => []

/-- The paths of these files. -/
def touched (c : Config) (a : Action) : List Path := (touchedNames a).map c.dataPath.child

theorem mem_dataNames_of_touchedNames {a : Action} {name : String} (h : name ∈ touchedNames a) :
    name ∈ dataNames := by
  have hnames : ∀ names ∈ [["queries.jsonl"], ["last_analysis.json"], ["applied_indexes.jsonl"],
      ["queries.jsonl", "queries.tmp", "last_analysis.json"],
      ["applied_indexes.jsonl", "applied_indexes.tmp"], []],
      ∀ name ∈ names, name ∈ dataNames := by decide
  refine hnames (touchedNames a) ?_ name h
  cases a with
  | clear appliedIndexes => cases appliedIndexes <;> simp [touchedNames]
  | _ => simp [touchedNames]

/-- Only an action that sets the last analysis changes its file. -/
theorem setsAnalysis_of_touchedNames {a : Action} (h : "last_analysis.json" ∈ touchedNames a) :
    setsAnalysis a = true := by
  cases a with
  | analyze => rfl
  | clear appliedIndexes =>
      cases appliedIndexes with
      | false => rfl
      | true => simp [touchedNames] at h
  | _ => simp [touchedNames] at h

theorem touches_upload (file : Path) : Touches (touched c (.upload file)) (upload c file) := by
  refine (quiet_get.touches _).bind fun w => (quiet_read.touches _).bind fun s => ?_
  refine .bind ((quiet_orFail _ _).touches _) fun queries => ?_
  refine .bind ((quiet_modify fun _ => rfl).touches _) fun _ => ?_
  refine touches_queryStore_bind fun f hf => ?_
  have hinsert := touches_insertAll f c.principal queries
  rw [hf] at hinsert
  exact hinsert.bind fun _ => ((quiet_logEvent _ _).bind fun _ => quiet_pure _).touches _

theorem touches_saveAnalysis (b : Batch) : Touches (touched c .analyze) (saveAnalysis c b) :=
  ((quiet_makeDirectories _).touches _).bind fun _ =>
    touches_changeDisk fun _ _ h => Disk.sameBut_of_change h

theorem touches_analyze : Touches (touched c .analyze) (analyze c) := by
  refine Touches.within ((quiet_queryStore.touches _).bind fun _ =>
    ((quiet_list _ _).touches _).bind fun _ => ((quiet_analyzing _).touches _).bind fun _ => ?_)
  refine (touches_saveAnalysis _).bind fun _ => (quiet_appliedStore.touches _).bind fun _ => ?_
  exact ((quiet_list _ _).bind fun _ => quiet_pure _).touches _

theorem touches_apply (queryKey : String) (id : UInt32) :
    Touches (touched c (.apply queryKey id)) (apply c queryKey id) := by
  refine (quiet_loadAnalysis.touches _).bind fun batch => touches_appliedStore_bind fun f hf =>
    ((quiet_list _ _).touches _).bind fun records => ?_
  have hrest : Touches (touched c (.apply queryKey id)) (do
      let record ← orFail .store (batch.application queryKey id (← read).now)
      insert f c.principal record
      log (appliedEntry record)
      return AppliedIndex.layout.toJson record) := by
    refine (quiet_read.touches _).bind fun _ => ((quiet_orFail _ _).touches _).bind fun record => ?_
    have hinsert := touches_insert f c.principal record
    rw [hf] at hinsert
    exact hinsert.bind fun _ => ((quiet_log _).bind fun _ => quiet_pure _).touches _
  by_cases happlied : (AppliedSet.ofRecords records).contains queryKey id
  · simp only [happlied, if_true]
    exact ((quiet_throw _).touches _).bind fun _ => hrest
  · simp only [happlied]
    exact hrest

section Clear

variable (hdir : c.dataPath.text ≠ "")

include hdir

theorem touches_clearApplied : Touches (touched c (.clear true)) (clearApplied c) := by
  refine touches_appliedStore_bind fun f hf => ?_
  have haside : f.aside = c.dataPath.child "applied_indexes.tmp" := by
    rw [File.aside, hf]
    exact Path.withExtension_child hdir (isName_of_mem (by decide)) (isName_of_mem (by decide))
      (by decide)
  have hclear := touches_clear f c.principal
  rw [haside, hf] at hclear
  exact hclear.bind fun _ => ((quiet_logEvent _ _).bind fun _ => quiet_pure _).touches _

theorem touches_clearQueries : Touches (touched c (.clear false)) (clearQueries c) := by
  refine touches_queryStore_bind fun f hf => ?_
  have haside : f.aside = c.dataPath.child "queries.tmp" := by
    rw [File.aside, hf]
    exact Path.withExtension_child hdir (isName_of_mem (by decide)) (isName_of_mem (by decide))
      (by decide)
  have hclear : Touches (touched c (.clear false)) (clear f c.principal) := fun s w => by
    have hsame := touches_clear f c.principal s w
    rw [haside, hf] at hsame
    exact hsame.mono (List.forall_mem_cons.mpr ⟨by simp [touched, touchedNames, Config.queriesPath],
      List.forall_mem_singleton.mpr (by simp [touched, touchedNames])⟩)
  have hremove : Touches (touched c (.clear false)) (removeAnalysis c) := by
    refine touches_changeDisk fun d e h => ?_
    cases hremoved : d.remove c.analysisPath with
    | ok b =>
        rw [hremoved] at h
        cases h
        refine (Disk.sameBut_of_remove hremoved).mono fun p hp => ?_
        rw [List.mem_singleton.mp hp]
        simp [touched, touchedNames, Config.analysisPath]
    | error fault =>
        rw [hremoved] at h
        cases fault <;> cases h
        exact Disk.SameBut.refl d _
  refine hclear.bind fun _ => hremove.bind fun _ => ?_
  exact ((quiet_logEvent _ _).bind fun _ => quiet_pure _).touches _

/-- **An action changes no files but its own.** -/
theorem touches_act (a : Action) : Touches (touched c a) (act c a) := by
  cases a with
  | upload file => exact touches_upload file
  | analyze => exact touches_analyze
  | explain sql => exact (quiet_explain sql).touches _
  | apply queryKey id => exact touches_apply queryKey id
  | applied => exact quiet_applied.touches _
  | clear appliedIndexes =>
      cases appliedIndexes with
      | false => exact touches_clearQueries hdir
      | true => exact touches_clearApplied hdir
  | dashboard => exact quiet_dashboard.touches _

end Clear

/-! ## Visits -/

/-- A visit changes no files but those of its action in the directory of its configuration. -/
theorem Visit.sameBut {v : Visit} {d : Disk} (h : Config.load v.command.config d = .ok c) :
    d.SameBut (touched c v.command.action) (v.run d).2 := by
  obtain ⟨journal, hrun⟩ := Visit.run_of_load h
  rw [hrun]
  exact touches_act (dataPath_ne_of_load h) v.command.action v.surroundings ⟨d, journal, 0⟩

/-- All directories stay. -/
theorem Visit.keeps (v : Visit) (d : Disk) : d.Keeps (v.run d).2 := by
  cases hload : Config.load v.command.config d with
  | ok c => exact (Visit.sameBut hload).keeps
  | error fault =>
      rw [Visit.run_of_error hload]
      exact Disk.Keeps.refl d

theorem keeps_after (d : Disk) (vs : List Visit) : d.Keeps (after d vs) := by
  induction vs generalizing d with
  | nil => exact Disk.Keeps.refl d
  | cons v vs ih => exact (v.keeps d).trans (ih (v.run d).2)

/-- A visit that sets the last analysis of a directory works in another one than `dir`. -/
def Visit.Spares (dir : Path) (v : Visit) (d : Disk) : Prop :=
  setsAnalysis v.command.action = true →
    v.Under (fun c => (v.run d).2.locate c.dataPath ≠ (v.run d).2.locate dir) d

/-- Nobody sets the last analysis of the directory during a session. -/
def Spares (dir : Path) (d : Disk) : List Visit → Prop
  | [] => True
  | v :: vs => v.Spares dir d ∧ Spares dir (v.run d).2 vs

/-- The last analysis of a directory stays where a visit does not set it. -/
theorem Visit.Spares.locate_ne {dir : Path} {v : Visit} {d : Disk} (h : v.Spares dir d)
    (hload : Config.load v.command.config d = .ok c) (hdir : dir.text ≠ "") {l : Place}
    (hl : (v.run d).2.locate (dir.child "last_analysis.json") = .ok l) :
    ∀ p ∈ touched c v.command.action, (v.run d).2.locate p ≠ .ok l := by
  intro p hp hlocate
  obtain ⟨name, hname, rfl⟩ := List.mem_map.mp hp
  obtain ⟨rfl, hsame⟩ := Disk.eq_of_locate_child (dataPath_ne_of_load hload) hdir
    (isName_of_mem (mem_dataNames_of_touchedNames hname)) (isName_of_mem (by decide)) hlocate hl
  exact h (setsAnalysis_of_touchedNames hname) c hload hsame

/-- **The last analysis stays** while nobody sets it. -/
theorem node?_after_of_spares {dir : Path} {d : Disk} {vs : List Visit} (h : Spares dir d vs)
    (hdir : dir.text ≠ "") {l : Place} (hl : d.locate (dir.child "last_analysis.json") = .ok l)
    {bytes : List UInt8} (hfile : d.node? l = some (.file bytes)) :
    (after d vs).node? l = some (.file bytes) := by
  induction vs generalizing d with
  | nil => exact hfile
  | cons v vs ih =>
      have hl' := (v.keeps d).locate hl
      have hstays : (v.run d).2.node? l = some (.file bytes) := by
        cases hload : Config.load v.command.config d with
        | error fault =>
            rw [Visit.run_of_error hload]
            exact hfile
        | ok c => exact ((Visit.sameBut hload).file_iff (h.1.locate_ne hload hdir hl')).mpr hfile
      exact ih h.2 hl' hstays

end IndexAdvisor.Command
