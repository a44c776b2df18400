import IndexAdvisor.Command.World

/-!
# Steps of commands

What a step answers and what becomes of the disk. The journal and the ids that have been given out
are left aside: `Yields x s d r e` says that, whatever they are, the step `x` on the disk `d` answers
`r` and leaves the disk `e`.
-/

set_option autoImplicit false

namespace IndexAdvisor.Command.Step

variable {α β : Type}

/-! ## Runs -/

/-- A run of a step: its answer, and the world after it. -/
def exec (x : Step α) (s : Surroundings) (w : World) : Except Error α × World := (x.run s).run w

section Exec

variable (s : Surroundings) (w : World)

theorem exec_get : exec get s w = (.ok w, w) := rfl

theorem exec_read : exec read s w = (.ok s, w) := rfl

theorem exec_modify (f : World → World) : exec (modify f) s w = (.ok (), f w) := rfl

theorem exec_bind_of_ok {x : Step α} {a : α} {v : World} (h : x.exec s w = (.ok a, v))
    (f : α → Step β) : (x >>= f).exec s w = (f a).exec s v := by
  show (ExceptT.bindCont (fun a => f a s) (x.exec s w).1) (x.exec s w).2 = _
  rw [h]
  rfl

theorem exec_bind_of_error {x : Step α} {e : Error} {v : World} (h : x.exec s w = (.error e, v))
    (f : α → Step β) : (x >>= f).exec s w = (.error e, v) := by
  show (ExceptT.bindCont (fun a => f a s) (x.exec s w).1) (x.exec s w).2 = _
  rw [h]
  rfl

theorem exec_tryCatch_of_ok {x : Step α} {a : α} {v : World} (h : x.exec s w = (.ok a, v))
    (f : Error → Step α) : (tryCatch x f).exec s w = (.ok a, v) := by
  show (ExceptT.tryCatch (x s) fun e => f e s) w = _
  have hrun : x s w = (.ok a, v) := h
  simp only [ExceptT.tryCatch, ExceptT.mk, bind, StateT.bind, hrun]
  rfl

theorem exec_tryCatch_of_error {x : Step α} {e : Error} {v : World}
    (h : x.exec s w = (.error e, v)) (f : Error → Step α) :
    (tryCatch x f).exec s w = (f e).exec s v := by
  show (ExceptT.tryCatch (x s) fun e => f e s) w = _
  have hrun : x s w = (.error e, v) := h
  simp only [ExceptT.tryCatch, ExceptT.mk, bind, StateT.bind, hrun]
  rfl

theorem exec_orFail_error {ε : Type} (toError : ε → Error) (e : ε) :
    (orFail toError (.error e) : Step α).exec s w = (.error (toError e), w) := rfl

end Exec

/-- A chain that succeeds does so step by step. -/
theorem exec_bind_eq_ok {s : Surroundings} {w v : World} {x : Step α} {f : α → Step β} {b : β}
    (h : (x >>= f).exec s w = (.ok b, v)) :
    ∃ a u, x.exec s w = (.ok a, u) ∧ (f a).exec s u = (.ok b, v) := by
  cases hexec : x.exec s w with
  | mk r u =>
      cases r with
      | ok a =>
          rw [exec_bind_of_ok s w hexec] at h
          exact ⟨a, u, rfl, h⟩
      | error e =>
          rw [exec_bind_of_error s w hexec] at h
          cases h

/-- A chain changes the disk as its parts do, one after the other. -/
theorem exec_bind_induction {R : Disk → Disk → Prop} (htrans : ∀ {c d e}, R c d → R d e → R c e)
    {s : Surroundings} {w : World} {x : Step α} {f : α → Step β}
    (hx : R w.disk (x.exec s w).2.disk)
    (hf : ∀ a v, x.exec s w = (.ok a, v) → R v.disk ((f a).exec s v).2.disk) :
    R w.disk ((x >>= f).exec s w).2.disk := by
  cases hexec : x.exec s w with
  | mk r v =>
      rw [hexec] at hx
      cases r with
      | ok a =>
          rw [exec_bind_of_ok s w hexec]
          exact htrans hx (hf a v hexec)
      | error e =>
          rw [exec_bind_of_error s w hexec]
          exact hx

/-! ## Answers and disks -/

/-- On the disk `d` the step answers `r` and leaves the disk `e`. -/
def Yields (x : Step α) (s : Surroundings) (d : Disk) (r : Except Error α) (e : Disk) : Prop :=
  ∀ w : World, w.disk = d → (x.exec s w).1 = r ∧ (x.exec s w).2.disk = e

section Yields

variable {s : Surroundings} {d e : Disk}

theorem yields_pure (a : α) : Yields (pure a) s d (.ok a) d := fun _ hw => ⟨rfl, hw⟩

theorem yields_throw (e : Error) : Yields (throw e : Step α) s d (.error e) d :=
  fun _ hw => ⟨rfl, hw⟩

theorem yields_log (e : Log.Entry) : Yields (log e) s d (.ok ()) d := fun _ hw => ⟨rfl, hw⟩

theorem yields_logEvent (e : Log.Event) (fields : List (String × String)) :
    Yields (logEvent e fields) s d (.ok ()) d := fun _ hw => ⟨rfl, hw⟩

theorem yields_read : Yields read s d (.ok s) d := fun _ hw => ⟨rfl, hw⟩

theorem yields_modify {f : World → World} (h : ∀ w, w.disk = d → (f w).disk = e) :
    Yields (modify f) s d (.ok ()) e := fun w hw => ⟨rfl, h w hw⟩

theorem yields_setDisk : Yields (modify fun w => { w with disk := e }) s d (.ok ()) e :=
  yields_modify fun _ _ => rfl

theorem yields_orFail {ε : Type} (toError : ε → Error) (r : Except ε α) :
    Yields (orFail toError r) s d (r.mapError toError) d := by
  intro w hw
  cases r with
  | ok a => exact ⟨rfl, hw⟩
  | error e => exact ⟨rfl, hw⟩

namespace Yields

variable {x : Step α} {f : α → Step β} {b : Disk} {r : Except Error β}

theorem bind {a : α} (h : Yields x s d (.ok a) b) (hf : Yields (f a) s b r e) :
    Yields (x >>= f) s d r e := by
  intro w hw
  obtain ⟨hr, hd⟩ := h w hw
  rw [exec_bind_of_ok s w (Prod.ext hr rfl)]
  exact hf _ hd

theorem bind_error {fault : Error} (h : Yields x s d (.error fault) e) :
    Yields (x >>= f) s d (.error fault) e := by
  intro w hw
  obtain ⟨hr, hd⟩ := h w hw
  rw [exec_bind_of_error s w (Prod.ext hr rfl)]
  exact ⟨rfl, hd⟩

/-- What depends on the world may depend on its disk. -/
theorem get_bind {f : World → Step β} (h : ∀ w : World, w.disk = d → Yields (f w) s d r e) :
    Yields (get >>= f) s d r e := by
  intro w hw
  rw [exec_bind_of_ok s w (exec_get s w)]
  exact h w hw w hw

end Yields

/-- A change of the disk. -/
theorem yields_changeDisk_ok {change : Disk → Except Disk.Fault Disk} (h : change d = .ok e) :
    Yields (changeDisk change) s d (.ok ()) e := by
  refine Yields.get_bind fun w hw => ?_
  rw [hw, h]
  exact (yields_orFail _ (.ok e)).bind yields_setDisk

theorem yields_changeDisk_error {change : Disk → Except Disk.Fault Disk} {fault : Disk.Fault}
    (h : change d = .error fault) : Yields (changeDisk change) s d (.error (.disk fault)) d := by
  refine Yields.get_bind fun w hw => ?_
  rw [hw, h]
  exact (yields_orFail _ (.error fault)).bind_error

theorem yields_makeDirectories {p : Path} (h : d.makeDirectories p = (.ok (), e)) :
    Yields (makeDirectories p) s d (.ok ()) e := by
  refine Yields.get_bind fun w hw => ?_
  rw [hw, h]
  exact yields_setDisk.bind (yields_orFail Error.disk (.ok ()))

theorem yields_makeDirectories_error {p : Path} {fault : Disk.Fault}
    (h : d.makeDirectories p = (.error fault, e)) :
    Yields (makeDirectories p) s d (.error (.disk fault)) e := by
  refine Yields.get_bind fun w hw => ?_
  rw [hw, h]
  exact yields_setDisk.bind (yields_orFail Error.disk (.error fault))

/-! ## Stores -/

section Stores

variable {f : Store.File α} {principal : String}

theorem yields_orReport (r : Except Store.Error β) :
    Yields (orReport f r) s d (r.mapError .store) d := by
  cases r with
  | ok b => exact yields_pure b
  | error e =>
      cases hreport : f.report? e with
      | some entry =>
          simp only [orReport, hreport]
          exact (yields_log entry).bind (yields_throw _)
      | none =>
          simp only [orReport, hreport]
          exact yields_throw _

theorem yields_openStore {layout : Json.Layout α} {path : Path}
    (h : Store.File.prepare (⟨layout, path⟩ : Store.File α) d = (.ok (), e)) :
    Yields (openStore layout path) s d (.ok ⟨layout, path⟩) e := by
  refine Yields.get_bind fun w hw => ?_
  rw [hw]
  simp only [h]
  refine yields_setDisk.bind ?_
  exact (yields_orReport (.ok ())).bind (yields_pure (⟨layout, path⟩ : Store.File α))

theorem yields_openStore_error {layout : Json.Layout α} {path : Path} {fault : Store.Error}
    (h : Store.File.prepare (⟨layout, path⟩ : Store.File α) d = (.error fault, e)) :
    Yields (openStore layout path) s d (.error (.store fault)) e := by
  refine Yields.get_bind fun w hw => ?_
  rw [hw]
  simp only [h]
  exact yields_setDisk.bind (yields_orReport (.error fault : Except Store.Error Unit)).bind_error

theorem yields_list {r : Except Store.Error (List α)} (h : f.list principal d = r) :
    Yields (list f principal) s d (r.mapError .store) d := by
  refine Yields.get_bind fun w hw => ?_
  rw [hw, h]
  exact yields_orReport r

theorem yields_insert {record : α} (h : f.insert principal record d = .ok e) :
    Yields (insert f principal record) s d (.ok ()) e := by
  refine Yields.get_bind fun w hw => ?_
  rw [hw, h]
  exact (yields_orReport (.ok e)).bind yields_setDisk

theorem yields_insert_error {record : α} {fault : Store.Error}
    (h : f.insert principal record d = .error fault) :
    Yields (insert f principal record) s d (.error (.store fault)) d := by
  refine Yields.get_bind fun w hw => ?_
  rw [hw, h]
  exact (yields_orReport (.error fault : Except Store.Error Disk)).bind_error

theorem yields_insertAll {records : List α} (h : f.insertAll principal records d = .ok e) :
    Yields (insertAll f principal records) s d (.ok ()) e := by
  refine Yields.get_bind fun w hw => ?_
  rw [hw, h]
  exact (yields_orReport (.ok e)).bind yields_setDisk

theorem yields_insertAll_error {records : List α} {fault : Store.Error}
    (h : f.insertAll principal records d = .error fault) :
    Yields (insertAll f principal records) s d (.error (.store fault)) d := by
  refine Yields.get_bind fun w hw => ?_
  rw [hw, h]
  exact (yields_orReport (.error fault : Except Store.Error Disk)).bind_error

theorem yields_clear {n : Nat} (h : f.clear principal d = .ok (n, e)) :
    Yields (clear f principal) s d (.ok n) e := by
  refine Yields.get_bind fun w hw => ?_
  rw [hw, h]
  refine (yields_orReport (.ok (n, e))).bind ?_
  exact yields_setDisk.bind (yields_pure n)

theorem yields_clear_error {fault : Store.Error} (h : f.clear principal d = .error fault) :
    Yields (clear f principal) s d (.error (.store fault)) d := by
  refine Yields.get_bind fun w hw => ?_
  rw [hw, h]
  exact (yields_orReport (.error fault : Except Store.Error (Nat × Disk))).bind_error

end Stores

/-- A piece that is logged answers what it answers otherwise. -/
theorem yields_within {name : String} {x : Step (α × List (String × String))} {a : α}
    (fields : List (String × String)) (h : Yields x s d (.ok (a, fields)) e) :
    Yields (within name x) s d (.ok a) e := by
  have htry : Yields (tryCatch x fun e => do
      log (Log.Scope.dropped name)
      throw e) s d (.ok (a, fields)) e := by
    intro w hw
    obtain ⟨hr, hd⟩ := h w hw
    have hexec : x.exec s w = (.ok (a, fields), (x.exec s w).2) := Prod.ext hr rfl
    rw [exec_tryCatch_of_ok s w hexec]
    exact ⟨rfl, hd⟩
  exact (yields_log _).bind (htry.bind (yields_read.bind ((yields_log _).bind (yields_pure a))))

theorem yields_within_error {name : String} {x : Step (α × List (String × String))}
    {fault : Error} (h : Yields x s d (.error fault) e) :
    Yields (within name x) s d (.error fault) e := by
  have htry : Yields (tryCatch x fun e => do
      log (Log.Scope.dropped name)
      throw e) s d (.error fault) e := by
    intro w hw
    obtain ⟨hr, hd⟩ := h w hw
    have hexec : x.exec s w = (.error fault, (x.exec s w).2) := Prod.ext hr rfl
    rw [exec_tryCatch_of_error s w hexec]
    exact ((yields_log _).bind (yields_throw fault)) _ hd
  exact (yields_log _).bind htry.bind_error

end Yields

/-! ## Steps that have succeeded -/

section Succeeded

variable {s : Surroundings} {w v : World} {d e : Disk}

/-- What a step has done is what it yields. -/
theorem Yields.eq_of_exec {x : Step α} {r r' : Except Error α} (h : Yields x s d r e)
    (hw : w.disk = d) (hexec : x.exec s w = (r', v)) : r' = r ∧ v.disk = e := by
  have hyields := h w hw
  rw [hexec] at hyields
  exact hyields

theorem orFail_eq_ok {ε : Type} {toError : ε → Error} {r : Except ε α} {a : α}
    (h : (orFail toError r).exec s w = (.ok a, v)) : r = .ok a ∧ v = w := by
  cases r with
  | ok b =>
      obtain ⟨hanswer, hworld⟩ := Prod.mk.inj h
      exact ⟨congrArg Except.ok (Except.ok.inj hanswer), hworld.symm⟩
  | error fault => cases h

theorem changeDisk_eq_ok {change : Disk → Except Disk.Fault Disk}
    (h : (changeDisk change).exec s w = (.ok (), v)) : change w.disk = .ok v.disk := by
  cases hchange : change w.disk with
  | ok d => rw [((yields_changeDisk_ok hchange).eq_of_exec rfl h).2]
  | error fault => cases ((yields_changeDisk_error hchange).eq_of_exec rfl h).1

theorem openStore_eq_ok {layout : Json.Layout α} {path : Path} {f : Store.File α}
    (h : (openStore layout path).exec s w = (.ok f, v)) :
    f = ⟨layout, path⟩ ∧ f.prepare w.disk = (.ok (), v.disk) := by
  cases hprepare : Store.File.prepare (⟨layout, path⟩ : Store.File α) w.disk with
  | mk r d =>
      cases r with
      | ok u =>
          obtain ⟨hf, hd⟩ := (yields_openStore hprepare).eq_of_exec rfl h
          obtain rfl := Except.ok.inj hf
          exact ⟨rfl, by rw [hprepare, hd]⟩
      | error fault => cases ((yields_openStore_error hprepare).eq_of_exec rfl h).1

theorem list_eq_ok {f : Store.File α} {principal : String} {records : List α}
    (h : (list f principal).exec s w = (.ok records, v)) :
    f.list principal w.disk = .ok records ∧ v.disk = w.disk := by
  obtain ⟨hanswer, hdisk⟩ := (yields_list (d := w.disk) rfl).eq_of_exec rfl h
  refine ⟨?_, hdisk⟩
  cases hlist : f.list principal w.disk with
  | ok rs =>
      rw [hlist] at hanswer
      rw [Except.ok.inj hanswer]
  | error fault =>
      rw [hlist] at hanswer
      cases hanswer

/-- A piece that is logged does to the disk what it does otherwise. -/
theorem within_eq_ok {name : String} {x : Step (α × List (String × String))} {a : α}
    (h : (within name x).exec s w = (.ok a, v)) : ∃ fields w' v',
      w'.disk = w.disk ∧ x.exec s w' = (.ok (a, fields), v') ∧ v'.disk = v.disk := by
  obtain ⟨u, w', hlog, h⟩ := exec_bind_eq_ok h
  obtain ⟨p, v', htry, h⟩ := exec_bind_eq_ok h
  have hw' : w'.disk = w.disk := ((yields_log _).eq_of_exec rfl hlog).2
  have hv' : v'.disk = v.disk ∧ p.1 = a := by
    have hend := (yields_read.bind ((yields_log _).bind (yields_pure p.1))).eq_of_exec rfl h
    exact ⟨hend.2.symm, (Except.ok.inj hend.1).symm⟩
  obtain ⟨hv', rfl⟩ := hv'
  refine ⟨p.2, w', v', hw', ?_, hv'⟩
  cases hx : x.exec s w' with
  | mk r v'' =>
      cases r with
      | ok q =>
          rw [exec_tryCatch_of_ok s w' hx] at htry
          exact htry
      | error fault =>
          rw [exec_tryCatch_of_error s w' hx] at htry
          obtain ⟨u, w'', -, hthrow⟩ := exec_bind_eq_ok htry
          cases hthrow

end Succeeded

end IndexAdvisor.Command.Step

namespace IndexAdvisor.Command

/-! ## Answers -/

/-- The member of an object with this name. -/
def member? (name : String) : Json → Option Json
  | .object members => members.lookup name
  | _ => none

/-- A text. -/
def text? : Json → Option String
  | .string s => some s
  | _ => none

/-! ## Failures -/

/-- Why a command failed, if it did. -/
def failure? : Except Error Json → Option Error
  | .ok _ => none
  | .error e => some e

theorem exists_eq_ok_of_failure? {r : Except Error Json} (h : failure? r = none) :
    ∃ answer, r = .ok answer := by
  cases r with
  | ok answer => exact ⟨answer, rfl⟩
  | error fault => cases h

theorem eq_error_of_failure? {r : Except Error Json} {e : Error} (h : failure? r = some e) :
    r = .error e := by
  cases r with
  | ok v => cases h
  | error fault => exact congrArg Except.error (Option.some.inj h)

end IndexAdvisor.Command
