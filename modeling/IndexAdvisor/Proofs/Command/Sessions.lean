import IndexAdvisor.Proofs.Command.Isolation

/-!
# Sessions in one data directory

A session is a list of visits, each with a configuration of its own. As long as every configuration
that can be loaded when its visit begins names the same data directory, and that directory was
intact at first, each visit does to the directory what it does to a ledger.
-/

set_option autoImplicit false

namespace IndexAdvisor.Command

/-! ## Configurations of a session -/

/-- The configuration that a visit works under, if it can be loaded, satisfies `P`. -/
def Visit.Under (P : Config → Prop) (v : Visit) (d : Disk) : Prop :=
  ∀ c, Config.load v.command.config d = .ok c → P c

/-- The configurations that the visits of a session work under satisfy `P`. -/
def Under (P : Config → Prop) (d : Disk) : List Visit → Prop
  | [] => True
  | v :: vs => v.Under P d ∧ Under P (v.run d).2 vs

theorem after_cons (d : Disk) (v : Visit) (vs : List Visit) :
    after d (v :: vs) = after (v.run d).2 vs := rfl

theorem under_append {P : Config → Prop} {d : Disk} {vs us : List Visit} :
    Under P d (vs ++ us) ↔ Under P d vs ∧ Under P (after d vs) us := by
  induction vs generalizing d with
  | nil => exact (true_and _).symm.to_iff
  | cons v vs ih =>
      rw [List.cons_append, Under, Under, ih, after_cons, and_assoc]

theorem under_concat {P : Config → Prop} {d : Disk} {vs : List Visit} {v : Visit} :
    Under P d (vs ++ [v]) ↔ Under P d vs ∧ v.Under P (after d vs) := by
  rw [under_append, Under, Under, and_true]

theorem Visit.Under.mono {P Q : Config → Prop} {v : Visit} {d : Disk} (h : v.Under P d)
    (hPQ : ∀ c, P c → Q c) : v.Under Q d := fun c hc => hPQ c (h c hc)

theorem Under.mono {P Q : Config → Prop} (hPQ : ∀ c, P c → Q c) {d : Disk} {vs : List Visit}
    (h : Under P d vs) : Under Q d vs := by
  induction vs generalizing d with
  | nil => trivial
  | cons v vs ih => exact ⟨h.1.mono hPQ, ih h.2⟩

/-- Whether a visit is under something is decided by the configuration that it finds. -/
theorem Visit.under_of_load {P : Config → Prop} {v : Visit} {d : Disk} {c : Config}
    (h : Config.load v.command.config d = .ok c) (hc : P c) : v.Under P d := by
  intro c' hc'
  rw [h] at hc'
  exact Except.ok.inj hc' ▸ hc

/-! ## Ledgers of a session -/

namespace Ledger

/-- What is answered to a visit on the disk `d`, whose data directory holds a ledger, and the ledger
after it. -/
def visit (v : Visit) (d : Disk) (L : Ledger) : Except Error Json × Ledger :=
  match Config.load v.command.config d with
  | .error e => (.error (.config e), L)
  | .ok c => L.act c v.surroundings (loadOn c v.surroundings d) v.command.action

/-- The ledger after a session that begins on the disk `d`. -/
def after (d : Disk) (L : Ledger) : List Visit → Ledger
  | [] => L
  | v :: vs => after (v.run d).2 (L.visit v d).2 vs

theorem after_concat (d : Disk) (L : Ledger) (vs : List Visit) (v : Visit) :
    L.after d (vs ++ [v]) = ((L.after d vs).visit v (Command.after d vs)).2 := by
  induction vs generalizing d L with
  | nil => rfl
  | cons u vs ih => exact ih (u.run d).2 (L.visit u d).2

theorem visit_of_load {v : Visit} {d : Disk} {c : Config}
    (h : Config.load v.command.config d = .ok c) (L : Ledger) :
    L.visit v d = L.act c v.surroundings (loadOn c v.surroundings d) v.command.action := by
  rw [visit, h]

end Ledger

/-- A visit that finds no configuration changes nothing. -/
theorem Visit.run_of_error {v : Visit} {d : Disk} {fault : Config.Error}
    (h : Config.load v.command.config d = .error fault) : v.run d = (.error (.config fault), d) := by
  have hexec : (loadConfig v.command.config).exec v.surroundings ⟨d, .empty, 0⟩ =
      (.error (.config fault), ⟨d, .empty, 0⟩) := by
    rw [loadConfig, Step.exec_bind_of_ok _ _ (Step.exec_get _ _), h]
    exact Step.exec_bind_of_error _ _ (Step.exec_orFail_error _ _ _ _) _
  have hrun : v.command.run v.surroundings ⟨d, .empty, 0⟩ =
      (.error (.config fault), ⟨d, .empty, 0⟩) :=
    Step.exec_bind_of_error _ _ hexec fun c => act c v.command.action
  rw [Visit.run, hrun]

/-- A visit with a configuration does what its action does, from some journal on. -/
theorem Visit.run_of_load {v : Visit} {d : Disk} {c : Config}
    (h : Config.load v.command.config d = .ok c) : ∃ journal,
      let r := (act c v.command.action).exec v.surroundings ⟨d, journal, 0⟩
      v.run d = (r.1, r.2.disk) := by
  have hload : Config.load v.command.config (World.mk d .empty 0).disk = .ok c := h
  obtain ⟨journal, hrun⟩ := Command.run_of_load (s := v.surroundings) hload
  refine ⟨journal, ?_⟩
  rw [Visit.run, hrun]

namespace Opens

variable {d e : Disk} {dir : Path} {m : Place} {L : Ledger}

/-- **One visit** of a session. -/
theorem Leaves.visit {d₁ : Disk} {L₁ : Ledger} (hl : Leaves d e dir m L d₁ L₁)
    (h : Opens d e dir m L) {v : Visit} (hv : v.Under (fun c => c.dataPath = dir) d₁) :
    (v.run d₁).1 = (L₁.visit v d₁).1 ∧ Leaves d e dir m L (v.run d₁).2 (L₁.visit v d₁).2 := by
  cases hload : Config.load v.command.config d₁ with
  | error fault =>
      rw [Visit.run_of_error hload, Ledger.visit, hload]
      exact ⟨rfl, hl⟩
  | ok c =>
      obtain rfl := hv c hload
      rw [Ledger.visit_of_load hload]
      exact hl.run_of_load h hload rfl

/-- **A session** leaves what it leaves of the ledger. -/
theorem leaves_after (h : Opens d e dir m L) {vs : List Visit}
    (hvs : Under (fun c => c.dataPath = dir) d vs) :
    Leaves d e dir m L (after d vs) (L.after d vs) := by
  induction vs using List.reverseRecOn with
  | nil => exact leaves_self d e dir m L
  | append_singleton vs v ih =>
      rw [under_concat] at hvs
      rw [after_concat, Ledger.after_concat]
      exact ((ih hvs.1).visit h hvs.2).2

/-- Configurations that are apart from the data files stay as they are throughout a session. -/
theorem under_of_apart (h : Opens d e dir m L) {P : Config → Prop} {vs : List Visit}
    (hvs : ∀ v ∈ vs, ∃ c, Config.load v.command.config d = .ok c ∧ c.dataPath = dir ∧ P c ∧
      Apart d e m v.command.config) : Under (fun c => c.dataPath = dir ∧ P c) d vs := by
  induction vs using List.reverseRecOn with
  | nil => trivial
  | append_singleton vs v ih =>
      have hbefore := ih fun u hu => hvs u (List.mem_append_left _ hu)
      obtain ⟨c, hload, hdir, hc, hapart⟩ := hvs v (by simp)
      have hleaves := h.leaves_after (hbefore.mono fun c hc => hc.1)
      refine under_concat.mpr ⟨hbefore, ?_⟩
      exact Visit.under_of_load ((hleaves.load hapart).trans hload) ⟨hdir, hc⟩

/-- What a visit after a session answers. -/
theorem answer_after (h : Opens d e dir m L) {vs : List Visit} {v : Visit}
    (hvs : Under (fun c => c.dataPath = dir) d (vs ++ [v])) :
    (v.run (after d vs)).1 = ((L.after d vs).visit v (after d vs)).1 := by
  rw [under_concat] at hvs
  exact ((h.leaves_after hvs.1).visit h hvs.2).1

end Opens

/-- **What every action keeps** is so after every session. -/
theorem Ledger.after_induction {I : Ledger → Prop} {P : Config → Prop}
    (hact : ∀ c s load a L, P c → Store.checkPrincipal c.principal = .ok () → I L →
      I (L.act c s load a).2)
    {d : Disk} {L : Ledger} (hL : I L) {vs : List Visit} (hvs : Under P d vs) :
    I (L.after d vs) := by
  induction vs generalizing d L with
  | nil => exact hL
  | cons v vs ih =>
      refine ih ?_ hvs.2
      cases hload : Config.load v.command.config d with
      | error fault =>
          rw [Ledger.visit, hload]
          exact hL
      | ok c =>
          rw [Ledger.visit_of_load hload]
          exact hact _ _ _ _ _ (hvs.1 c hload) (checkPrincipal_of_load hload) hL

/-! ### Ada, Bob and a log -/

/-- The disk of Ada and Bob with a log of two statements. -/
def logDisk : Disk :=
  pairDisk.put (.ofNames ["log.txt"])
    (.file (Text.Utf8.encode "SELECT * FROM t WHERE status = 1\nSELECT * FROM u".toList))

/-- The disk once the directory has been made. -/
def logOpened : Disk := logDisk.put (.ofNames ["data"]) .directory

theorem opens_log : Opens logDisk logOpened ⟨"data"⟩ (.ofNames ["data"]) .empty where
  text_ne := by decide
  entered := by decide +kernel
  accepted := by decide +kernel
  node_ne := by decide +kernel
  queries := by decide +kernel
  applied := by decide +kernel
  analysis := by decide +kernel
  made := by decide +kernel
  early := Or.inr rfl

theorem makeDirectories_log : logDisk.makeDirectories ⟨"data"⟩ = (.ok (), logOpened) := by
  decide +kernel

/-- The configurations and the log are apart from the data files. -/
theorem apart_log {name : String} (h : name ∈ ["ada", "bob", "log.txt"]) :
    Apart logDisk logOpened (.ofNames ["data"]) ⟨name⟩ := by
  have hat : logDisk.locate ⟨name⟩ = .ok (.ofNames [name]) ∧
      logOpened.node? (.ofNames [name]) = logDisk.node? (.ofNames [name]) ∧
        Place.ofNames [name] ∉ dataPlaces (.ofNames ["data"]) := by
    revert name
    decide +kernel
  exact apart_of_locate makeDirectories_log hat.1 hat.2.1 hat.2.2

/-- The configurations of Ada and Bob stay as they are. -/
theorem under_log {P : Config → Prop} {vs : List Visit}
    (hvs : ∀ v ∈ vs, v.command.config = ⟨"ada"⟩ ∧ P (pairConfig "ada") ∨
      v.command.config = ⟨"bob"⟩ ∧ P (pairConfig "bob")) :
    Under (fun c => c.dataPath = ⟨"data"⟩ ∧ P c) logDisk vs := by
  have hloadA : Config.load ⟨"ada"⟩ logDisk = .ok (pairConfig "ada") := by decide +kernel
  have hloadB : Config.load ⟨"bob"⟩ logDisk = .ok (pairConfig "bob") := by decide +kernel
  refine opens_log.under_of_apart fun v hv => ?_
  rcases hvs v hv with ⟨hconfig, hP⟩ | ⟨hconfig, hP⟩
  · rw [hconfig]
    exact ⟨_, hloadA, rfl, hP, apart_log (by decide)⟩
  · rw [hconfig]
    exact ⟨_, hloadB, rfl, hP, apart_log (by decide)⟩

end IndexAdvisor.Command
