import IndexAdvisor.Proofs.Command.Ledger
import Mathlib.Data.List.Induction

/-!
# Principals that share a directory

Two principals work in one data directory, each command in a process of its own. The records of each
are kept apart, so almost nothing that one of them does is seen by the other. The last analysis is
not kept apart: there is one for the whole directory, and whoever analyzes or clears changes what
the other can apply.
-/

set_option autoImplicit false

namespace IndexAdvisor.Command

open IndexAdvisor.Analysis
open IndexAdvisor.Store
open Step

/-- The action makes another last analysis, or removes it. -/
def setsAnalysis : Action → Bool
  | .analyze => true
  | .clear appliedIndexes => !appliedIndexes
  | _ => false

/-! ## One action on two ledgers -/

namespace Ledger

/-- The ledgers have the same records of a principal. -/
structure SameFor (principal : String) (L L' : Ledger) : Prop where
  queries : L.queriesOf principal = L'.queriesOf principal
  applied : L.appliedOf principal = L'.appliedOf principal

/-- What the action takes from elsewhere than the records of its principal is the same. -/
def SameOutlook (c : Config) (now : String)
    (load load' : Path → Except QueryLog.Error (List LoggedQuery)) (L L' : Ledger) : Action → Prop
  | .upload file => load file = load' file
  | .apply queryKey id => L.offer c.principal queryKey id now = L'.offer c.principal queryKey id now
  | _ => True

section TwoLedgers

variable {c : Config} {s : Surroundings} {L L' : Ledger} {a : Action}
variable {load load' : Path → Except QueryLog.Error (List LoggedQuery)}

theorem uploadView_injective (now : String) : Function.Injective (uploadView now) := by
  intro qs qs' h
  have hmembers := Json.object.inj h
  have hlist := (Prod.mk.inj (List.cons.inj (List.cons.inj (List.cons.inj hmembers).2).2).1).2
  exact Json.Layout.list_toJson_injective
    (Json.Layout.toJson_injective (L := LoggedQuery.layout now) (by cbv)) hlist

theorem appliedIndex_toJson_injective : Function.Injective AppliedIndex.layout.toJson :=
  Json.Layout.toJson_injective (by decide)

/-- That something has been applied is no reason for which an offer fails. -/
theorem offer_ne_alreadyApplied {principal queryKey key : String} {id number : UInt32}
    {now : String} : L.offer principal queryKey id now ≠ .error (.alreadyApplied key number) := by
  intro h
  cases hbatch : L.batch with
  | error e =>
      simp only [offer, hbatch, bind, Except.bind] at h
      cases h
      unfold batch at hbatch
      split at hbatch
      · cases hbatch
      · split at hbatch
        · cases hbatch
        · split at hbatch <;> cases hbatch
  | ok batch =>
      simp only [offer, hbatch, bind, Except.bind] at h
      split at h
      · cases h
      · cases hrecord : batch.application queryKey id now with
        | error e =>
            rw [hrecord] at h
            cases h
        | ok record =>
            rw [hrecord] at h
            cases h

/-- What is answered where an index is to be applied. -/
def applyAnswer (queryKey : String) (id : UInt32) :
    Except Error (Option AppliedIndex) → Except Error Json
  | .error e => .error e
  | .ok none => .error (.alreadyApplied queryKey id)
  | .ok (some record) => .ok (AppliedIndex.layout.toJson record)

theorem answer_apply (L : Ledger) (queryKey : String) (id : UInt32) :
    (L.act c s load (.apply queryKey id)).1 =
      applyAnswer queryKey id (L.offer c.principal queryKey id s.now) := by
  simp only [act]
  cases L.offer c.principal queryKey id s.now with
  | error e => rfl
  | ok r => cases r <;> rfl

/-- The answer tells the offer. -/
theorem applyAnswer_eq_iff {queryKey : String} {id : UInt32}
    {offered offered' : Except Error (Option AppliedIndex)}
    (h : offered ≠ .error (.alreadyApplied queryKey id))
    (h' : offered' ≠ .error (.alreadyApplied queryKey id)) :
    applyAnswer queryKey id offered = applyAnswer queryKey id offered' ↔ offered = offered' := by
  refine ⟨fun heq => ?_, congrArg _⟩
  match offered, offered' with
  | .error e, .error e' => exact congrArg Except.error (Except.error.inj heq)
  | .error e, .ok none => exact absurd (congrArg Except.error (Except.error.inj heq)) h
  | .error e, .ok (some r') => cases heq
  | .ok none, .error e' => exact absurd (congrArg Except.error (Except.error.inj heq).symm) h'
  | .ok none, .ok none => rfl
  | .ok none, .ok (some r') => cases heq
  | .ok (some r), .error e' => cases heq
  | .ok (some r), .ok none => cases heq
  | .ok (some r), .ok (some r') => rw [appliedIndex_toJson_injective (Except.ok.inj heq)]

/-- **Same outlook, same answer**, and the other way round. -/
theorem act_eq_iff (h : SameFor c.principal L L') :
    (L.act c s load a).1 = (L'.act c s load' a).1 ↔ SameOutlook c s.now load load' L L' a := by
  cases a with
  | upload file =>
      simp only [act, SameOutlook]
      cases load file with
      | error e =>
          cases load' file with
          | error e' => simp
          | ok qs' => simp
      | ok qs =>
          cases load' file with
          | error e' => simp
          | ok qs' => simp [(uploadView_injective s.now).eq_iff]
  | apply queryKey id =>
      rw [answer_apply, answer_apply]
      exact applyAnswer_eq_iff offer_ne_alreadyApplied offer_ne_alreadyApplied
  | analyze => simp only [act, SameOutlook, h.queries, h.applied]
  | explain sql => simp only [act, SameOutlook]
  | applied => simp only [act, SameOutlook, h.applied]
  | clear appliedIndexes =>
      cases appliedIndexes with
      | false => simp only [act, SameOutlook, h.queries]
      | true => simp only [act, SameOutlook, h.applied]
  | dashboard => simp only [act, SameOutlook, h.queries, h.applied]

/-- The same outlook leaves the same records. -/
theorem SameFor.act (h : SameFor c.principal L L')
    (houtlook : SameOutlook c s.now load load' L L' a) :
    SameFor c.principal (L.act c s load a).2 (L'.act c s load' a).2 := by
  cases a with
  | upload file =>
      simp only [Ledger.act, (show load file = load' file from houtlook)]
      cases load' file with
      | error e => exact h
      | ok qs =>
          refine ⟨?_, h.applied⟩
          simp only [queriesOf, recordsOf_append_self]
          exact congrArg (· ++ qs) h.queries
  | apply queryKey id =>
      simp only [Ledger.act, (show L.offer c.principal queryKey id s.now =
        L'.offer c.principal queryKey id s.now from houtlook)]
      cases L'.offer c.principal queryKey id s.now with
      | error e => exact h
      | ok r =>
          cases r with
          | none => exact h
          | some r =>
              refine ⟨h.queries, ?_⟩
              have hadded (M : Ledger) : recordsOf (M.applied ++ [(c.principal, r)]) c.principal =
                  M.appliedOf c.principal ++ [r] := recordsOf_append_self M.applied [r]
              simp only [appliedOf, hadded]
              exact congrArg (· ++ [r]) h.applied
  | analyze => exact ⟨h.queries, h.applied⟩
  | explain sql => exact h
  | applied => exact h
  | clear appliedIndexes =>
      cases appliedIndexes with
      | false =>
          refine ⟨?_, h.applied⟩
          simp only [Ledger.act, queriesOf, recordsOf_filter_self]
      | true =>
          refine ⟨h.queries, ?_⟩
          simp only [Ledger.act, appliedOf, recordsOf_filter_self]
  | dashboard => exact h

/-- What somebody else does leaves the records of a principal as they are. -/
theorem sameFor_act_other {principal : String} (hne : c.principal ≠ principal) :
    SameFor principal (L.act c s load a).2 L := by
  cases a with
  | upload file =>
      simp only [Ledger.act]
      cases load file with
      | error e => exact ⟨rfl, rfl⟩
      | ok qs => exact ⟨recordsOf_append_other L.queries hne qs, rfl⟩
  | apply queryKey id =>
      simp only [Ledger.act]
      cases L.offer c.principal queryKey id s.now with
      | error e => exact ⟨rfl, rfl⟩
      | ok r =>
          cases r with
          | none => exact ⟨rfl, rfl⟩
          | some r => exact ⟨rfl, recordsOf_append_other L.applied hne [r]⟩
  | analyze => exact ⟨rfl, rfl⟩
  | explain sql => exact ⟨rfl, rfl⟩
  | applied => exact ⟨rfl, rfl⟩
  | clear appliedIndexes =>
      cases appliedIndexes with
      | false => exact ⟨recordsOf_filter_other L.queries hne, rfl⟩
      | true => exact ⟨rfl, recordsOf_filter_other L.applied hne⟩
  | dashboard => exact ⟨rfl, rfl⟩

/-- The same records with the same last analysis make the same offers. -/
theorem SameFor.offer {principal : String} (h : SameFor principal L L')
    (hanalysis : L.analysis? = L'.analysis?) (queryKey : String) (id : UInt32) (now : String) :
    L.offer principal queryKey id now = L'.offer principal queryKey id now := by
  simp only [Ledger.offer, batch, hanalysis, h.applied]

/-- A principal with the same records makes the same last analysis. -/
theorem SameFor.analysis_act (h : SameFor c.principal L L') (ha : setsAnalysis a = true) :
    (L.act c s load a).2.analysis? = (L'.act c s load' a).2.analysis? := by
  cases a with
  | analyze => simp only [Ledger.act, h.queries]
  | clear appliedIndexes =>
      cases appliedIndexes with
      | false => rfl
      | true => cases ha
  | _ => cases ha

theorem analysis_act_of_not (ha : setsAnalysis a = false) :
    (L.act c s load a).2.analysis? = L.analysis? := by
  cases a with
  | upload file =>
      simp only [Ledger.act]
      cases load file <;> rfl
  | apply queryKey id =>
      simp only [Ledger.act]
      cases L.offer c.principal queryKey id s.now with
      | error e => rfl
      | ok r => cases r <;> rfl
  | analyze => cases ha
  | clear appliedIndexes =>
      cases appliedIndexes with
      | false => cases ha
      | true => rfl
  | _ => rfl

end TwoLedgers

end Ledger

/-! ## Sessions -/

/-- A command in a process of its own. -/
structure Visit where
  command : Command
  surroundings : Surroundings

/-- What is answered to a visit, and the disk after it. -/
def Visit.run (v : Visit) (d : Disk) : Except Error Json × Disk :=
  let r := v.command.run v.surroundings ⟨d, .empty, 0⟩
  (r.1, r.2.disk)

/-- The disk after some visits in turn. -/
def after (d : Disk) (vs : List Visit) : Disk := vs.foldl (fun d v => (v.run d).2) d

/-- The visits under a configuration. -/
def own (config : Path) (vs : List Visit) : List Visit :=
  vs.filter fun v => v.command.config == config

/-- The last of some visits that sets the last analysis, by making another one or removing it. -/
def lastSetter? (vs : List Visit) : Option Visit :=
  (vs.filter fun v => setsAnalysis v.command.action).getLast?

theorem after_concat (d : Disk) (vs : List Visit) (v : Visit) :
    after d (vs ++ [v]) = (v.run (after d vs)).2 := by
  rw [after, List.foldl_append]
  rfl

theorem lastSetter?_concat (vs : List Visit) (v : Visit) : lastSetter? (vs ++ [v]) =
    if setsAnalysis v.command.action then some v else lastSetter? vs := by
  rw [lastSetter?, List.filter_append, List.getLast?_append]
  by_cases hv : setsAnalysis v.command.action <;> simp [hv, lastSetter?]

/-- What is answered to the visits under a configuration, among others. -/
def answers (config : Path) (d : Disk) : List Visit → List (Except Error Json)
  | [] => []
  | v :: vs =>
    if v.command.config = config then (v.run d).1 :: answers config (v.run d).2 vs
    else answers config (v.run d).2 vs

/-- What the last analysis offers to apply: nothing, if it has been applied. -/
def offer (c : Config) (queryKey : String) (id : UInt32) : Step (Option AppliedIndex) := do
  let batch ← loadAnalysis c
  let applied := AppliedSet.ofRecords (← list (← appliedStore c) c.principal)
  if applied.contains queryKey id then return none
  return some (← orFail .store (batch.application queryKey id (← read).now))

/-- What an action takes from elsewhere than the records of its principal is the same on both
disks: the log that is uploaded, and what the last analysis offers to apply. -/
def SameOutlook (c : Config) (s : Surroundings) (d e : Disk) : Action → Prop
  | .upload file =>
    QueryLog.load s.freshId s.now file c.acceptedExtensions d =
      QueryLog.load s.freshId s.now file c.acceptedExtensions e
  | .apply queryKey id =>
    ((offer c queryKey id).exec s ⟨d, .empty, 0⟩).1 =
      ((offer c queryKey id).exec s ⟨e, .empty, 0⟩).1
  | _ => True

/-- On the disk `d` the data directory can be opened, which gives `e`. Whatever becomes of the data
files then, the file is read as it is on `d`. -/
def Apart (d e : Disk) (m : Place) (file : Path) : Prop :=
  ∀ d', e.SameOutside (dataPlaces m) d' → d'.readBytes file = d.readBytes file

theorem Opens.exec_offer {d e : Disk} {c : Config} {s : Surroundings} {m : Place} {L : Ledger}
    (hp : checkPrincipal c.principal = .ok ()) (h : Opens d e c.dataPath m L) (queryKey : String)
    (id : UInt32) : ((offer c queryKey id).exec s ⟨d, .empty, 0⟩).1 =
      L.offer c.principal queryKey id s.now := by
  have hload := h.yields_loadAnalysis (s := s)
  simp only [Ledger.offer]
  cases hbatch : L.batch with
  | error fault =>
      rw [hbatch] at hload
      exact (hload.bind_error _ rfl).1
  | ok batch =>
      rw [hbatch] at hload
      -- The time is read only for a pair that is not applied yet, so both ways begin alike.
      have hrest {r : Except Error (Option AppliedIndex)}
          (hr : Yields (if (AppliedSet.ofRecords (L.appliedOf c.principal)).contains queryKey id
            then return none
            else return some (← orFail .store (batch.application queryKey id s.now))) s e r e) :
          Yields (offer c queryKey id) s d r e := by
        refine hload.bind (h.yields_appliedStore.bind ((yields_list (h.listApplied hp)).bind ?_))
        by_cases happlied : (AppliedSet.ofRecords (L.appliedOf c.principal)).contains queryKey id
        · rw [if_pos happlied] at hr ⊢
          exact hr
        · rw [if_neg happlied] at hr ⊢
          exact yields_read.bind hr
      by_cases happlied : (AppliedSet.ofRecords (L.appliedOf c.principal)).contains queryKey id
      · simp only [bind, Except.bind, happlied, if_true]
        refine (hrest ?_ _ rfl).1
        rw [if_pos happlied]
        exact yields_pure none
      · cases hrecord : batch.application queryKey id s.now with
        | error fault =>
            simp only [bind, Except.bind, happlied, hrecord]
            refine (hrest ?_ _ rfl).1
            rw [if_neg happlied, hrecord]
            exact (yields_orFail Error.store (.error fault)).bind_error
        | ok record =>
            simp only [bind, Except.bind, happlied, hrecord]
            refine (hrest ?_ _ rfl).1
            rw [if_neg happlied, hrecord]
            exact (yields_orFail Error.store (.ok record)).bind (yields_pure (some record))

/-- A file that is found at another place is apart. -/
theorem apart_of_locate {d e : Disk} {m l : Place} {p file : Path}
    (hmade : d.makeDirectories p = (.ok (), e)) (hl : d.locate file = .ok l)
    (hnode : e.node? l = d.node? l) (hplace : l ∉ dataPlaces m) : Apart d e m file := by
  intro d' hsame
  have hgrows := d.grows_makeDirectories p
  rw [hmade] at hgrows
  have hl' := (hgrows.keeps.trans hsame.keeps).locate hl
  rw [Disk.readBytes, Disk.readBytes, hl, hl']
  simp only [bind, Except.bind, hsame.node? l hplace, hnode]

/-! ## Two principals in one directory -/

/-- Two principals have one data directory, which can be opened and is intact, and their
configurations are not among its files. -/
structure Shared (a b : Path) (cA cB : Config) (d e : Disk) (m : Place) (L : Ledger) : Prop
    extends Opens d e cA.dataPath m L where
  sameDirectory : cB.dataPath = cA.dataPath
  ne_principal : cB.principal ≠ cA.principal
  loadA : Config.load a d = .ok cA
  loadB : Config.load b d = .ok cB
  apartA : Apart d e m a
  apartB : Apart d e m b

/-- Reads a log for a run on a disk. -/
def loadOn (c : Config) (s : Surroundings) (d : Disk) (path : Path) :
    Except QueryLog.Error (List LoggedQuery) :=
  QueryLog.load s.freshId s.now path c.acceptedExtensions d

namespace Opens.Leaves

variable {d e d₁ : Disk} {c : Config} {dir file : Path} {m : Place} {L L₁ : Ledger}

/-- What a command leaves can be opened. -/
theorem opens (hl : Leaves d e dir m L d₁ L₁) (h : Opens d e dir m L) :
    ∃ e₁, Opens d₁ e₁ dir m L₁ ∧ e.SameOutside (dataPlaces m) e₁ := by
  rcases hl with ⟨rfl, rfl⟩ | ⟨hholds, hsame⟩
  · exact ⟨e, h, h.sameOutside_refl⟩
  · exact ⟨d₁, hholds.opens, hsame⟩

/-- Files that are not in the data directory are read as before. -/
theorem readBytes (hl : Leaves d e dir m L d₁ L₁) (hfile : Apart d e m file) :
    d₁.readBytes file = d.readBytes file := by
  rcases hl with ⟨rfl, -⟩ | ⟨-, hsame⟩
  · rfl
  · exact hfile d₁ hsame

theorem load (hl : Leaves d e dir m L d₁ L₁) (hfile : Apart d e m file) :
    Config.load file d₁ = Config.load file d := by
  simp only [Config.load, Disk.readText, hl.readBytes hfile]

theorem loadOn (hl : Leaves d e dir m L d₁ L₁) (hfile : Apart d e m file) (s : Surroundings) :
    loadOn c s d₁ file = loadOn c s d file := by
  simp only [Command.loadOn, QueryLog.load, QueryLog.content, Disk.readText, hl.readBytes hfile]

/-- **One visit** under a configuration that is there when it begins. -/
theorem run_of_load (hl : Leaves d e c.dataPath m L d₁ L₁) (h : Opens d e c.dataPath m L)
    {v : Visit} (hload : Config.load v.command.config d₁ = .ok c)
    {r : Except Error Json × Ledger}
    (hr : L₁.act c v.surroundings (Command.loadOn c v.surroundings d₁) v.command.action = r) :
    (v.run d₁).1 = r.1 ∧ Leaves d e c.dataPath m L (v.run d₁).2 r.2 := by
  subst hr
  obtain ⟨e₁, hopens, hsame⟩ := hl.opens h
  obtain ⟨hanswer, hleaves⟩ := hopens.run (s := v.surroundings)
    (w := ⟨d₁, .empty, 0⟩) hload rfl rfl
  refine ⟨hanswer, ?_⟩
  rcases hleaves with ⟨hdisk, hledger⟩ | ⟨hholds, hsame'⟩
  · have hdisk : (v.run d₁).2 = d₁ := hdisk
    have hledger : (L₁.act c v.surroundings (Command.loadOn c v.surroundings d₁)
      v.command.action).2 = L₁ := hledger
    rw [hdisk, hledger]
    exact hl
  · exact Or.inr ⟨hholds, hsame.trans hsame'⟩

/-- A visit under a configuration that is apart from the data files. -/
theorem run (hl : Leaves d e c.dataPath m L d₁ L₁) (h : Opens d e c.dataPath m L) {v : Visit}
    (hload : Config.load v.command.config d = .ok c) (hfile : Apart d e m v.command.config)
    {r : Except Error Json × Ledger}
    (hr : L₁.act c v.surroundings (Command.loadOn c v.surroundings d₁) v.command.action = r) :
    (v.run d₁).1 = r.1 ∧ Leaves d e c.dataPath m L (v.run d₁).2 r.2 :=
  hl.run_of_load h ((hl.load hfile).trans hload) hr

end Opens.Leaves

/-- A statement about every visit and those before it, with one more visit in front. -/
theorem forall_split_cons {α : Type} {P : List α → α → Prop} {x : α} {xs : List α} :
    (∀ before y later, x :: xs = before ++ y :: later → P before y) ↔
      P [] x ∧ ∀ before y later, xs = before ++ y :: later → P (x :: before) y := by
  constructor
  · intro h
    exact ⟨h [] x xs rfl, fun before y later hsplit => h (x :: before) y later (by rw [hsplit]; rfl)⟩
  · rintro ⟨hx, hxs⟩ before y later hsplit
    cases before with
    | nil =>
        cases hsplit
        exact hx
    | cons z before =>
        obtain ⟨rfl, htail⟩ := List.cons.inj hsplit
        exact hxs before y later htail

namespace Shared

variable {a b : Path} {cA cB : Config} {d e : Disk} {m : Place} {L : Ledger}

theorem ne_config (h : Shared a b cA cB d e m L) : b ≠ a := by
  rintro rfl
  exact h.ne_principal (congrArg Config.principal (Except.ok.inj (h.loadB.symm.trans h.loadA)))

section TwoRuns

variable {d₁ d₂ : Disk} {L₁ L₂ : Ledger}

/-- On disks and on ledgers the outlook is the same. -/
theorem sameOutlook_iff (h : Shared a b cA cB d e m L)
    (h₁ : Opens.Leaves d e cA.dataPath m L d₁ L₁) (h₂ : Opens.Leaves d e cA.dataPath m L d₂ L₂)
    (s : Surroundings) (action : Action) : SameOutlook cA s d₁ d₂ action ↔
      Ledger.SameOutlook cA s.now (loadOn cA s d₁) (loadOn cA s d₂) L₁ L₂ action := by
  have hp := checkPrincipal_of_load h.loadA
  cases action with
  | apply queryKey id =>
      obtain ⟨e₁, hopens₁, -⟩ := h₁.opens h.toOpens
      obtain ⟨e₂, hopens₂, -⟩ := h₂.opens h.toOpens
      simp only [SameOutlook, Ledger.SameOutlook, hopens₁.exec_offer hp, hopens₂.exec_offer hp]
  | _ => exact Iff.rfl

/-- **A visit of the other one** leaves the records as they are. -/
theorem run_other (h : Shared a b cA cB d e m L) (h₁ : Opens.Leaves d e cA.dataPath m L d₁ L₁)
    {v : Visit} (hv : v.command.config = b) : ∃ L', Opens.Leaves d e cA.dataPath m L (v.run d₁).2 L' ∧
      Ledger.SameFor cA.principal L' L₁ ∧
        (setsAnalysis v.command.action = false → L'.analysis? = L₁.analysis?) := by
  subst hv
  have hdir := h.sameDirectory
  have hrun := (hdir ▸ h₁).run (hdir ▸ h.toOpens) h.loadB h.apartB rfl
  exact ⟨_, hdir ▸ hrun.2, Ledger.sameFor_act_other h.ne_principal, Ledger.analysis_act_of_not⟩

/-- **A visit of one's own** to two disks with the same records. -/
theorem run_own (h : Shared a b cA cB d e m L) (h₁ : Opens.Leaves d e cA.dataPath m L d₁ L₁)
    (h₂ : Opens.Leaves d e cA.dataPath m L d₂ L₂) (hsame : Ledger.SameFor cA.principal L₁ L₂)
    {v : Visit} (hv : v.command.config = a) :
    ((v.run d₁).1 = (v.run d₂).1 ↔ SameOutlook cA v.surroundings d₁ d₂ v.command.action) ∧
    (SameOutlook cA v.surroundings d₁ d₂ v.command.action → ∃ L₁' L₂',
      Opens.Leaves d e cA.dataPath m L (v.run d₁).2 L₁' ∧
      Opens.Leaves d e cA.dataPath m L (v.run d₂).2 L₂' ∧
      Ledger.SameFor cA.principal L₁' L₂' ∧
        (setsAnalysis v.command.action = true ∨ L₁.analysis? = L₂.analysis? →
          L₁'.analysis? = L₂'.analysis?)) := by
  subst hv
  obtain ⟨hanswer₁, hleaves₁⟩ := h₁.run h.toOpens h.loadA h.apartA rfl
  obtain ⟨hanswer₂, hleaves₂⟩ := h₂.run h.toOpens h.loadA h.apartA rfl
  rw [hanswer₁, hanswer₂, h.sameOutlook_iff h₁ h₂]
  refine ⟨Ledger.act_eq_iff hsame, fun houtlook => ⟨_, _, hleaves₁, hleaves₂,
    hsame.act houtlook, fun hanalysis => ?_⟩⟩
  cases hsets : setsAnalysis v.command.action with
  | true => exact hsame.analysis_act hsets
  | false =>
      rw [Ledger.analysis_act_of_not hsets, Ledger.analysis_act_of_not hsets]
      exact hanalysis.resolve_left (by simp [hsets])

/-- A session seen with and without the visits of the other one, from disks with the same
records. -/
theorem answers_eq_iff_of_leaves (h : Shared a b cA cB d e m L)
    (h₁ : Opens.Leaves d e cA.dataPath m L d₁ L₁) (h₂ : Opens.Leaves d e cA.dataPath m L d₂ L₂)
    (hsame : Ledger.SameFor cA.principal L₁ L₂) {vs : List Visit}
    (hvs : ∀ v ∈ vs, v.command.config = a ∨ v.command.config = b) :
    answers a d₁ vs = answers a d₂ (own a vs) ↔
      ∀ before v later, vs = before ++ v :: later → v.command.config = a →
        SameOutlook cA v.surroundings (after d₁ before) (after d₂ (own a before))
          v.command.action := by
  induction vs generalizing d₁ d₂ L₁ L₂ with
  | nil => exact ⟨fun _ before v later hsplit => by simp at hsplit, fun _ => rfl⟩
  | cons v vs ih =>
      have hrest : ∀ v ∈ vs, v.command.config = a ∨ v.command.config = b :=
        fun u hu => hvs u (List.mem_cons_of_mem v hu)
      rw [forall_split_cons (P := fun before v => v.command.config = a →
        SameOutlook cA v.surroundings (after d₁ before) (after d₂ (own a before))
          v.command.action)]
      rcases hvs v List.mem_cons_self with hv | hv
      · obtain ⟨hanswer, hnext⟩ := h.run_own h₁ h₂ hsame hv
        have hown (before : List Visit) : own a (v :: before) = v :: own a before :=
          List.filter_cons_of_pos (beq_iff_eq.mpr hv)
        simp only [hown, answers, if_pos hv, List.cons.injEq, hanswer]
        constructor
        · rintro ⟨houtlook, hanswers⟩
          obtain ⟨L₁', L₂', h₁', h₂', hsame', -⟩ := hnext houtlook
          exact ⟨fun _ => houtlook, (ih h₁' h₂' hsame' hrest).mp hanswers⟩
        · rintro ⟨houtlook, hlater⟩
          obtain ⟨L₁', L₂', h₁', h₂', hsame', -⟩ := hnext (houtlook hv)
          exact ⟨houtlook hv, (ih h₁' h₂' hsame' hrest).mpr hlater⟩
      · have hne : v.command.config ≠ a := hv ▸ h.ne_config
        obtain ⟨L₁', h₁', hsame', -⟩ := h.run_other h₁ hv
        have hown (before : List Visit) : own a (v :: before) = own a before :=
          List.filter_cons_of_neg (by simpa using hne)
        simp only [hown, answers, if_neg hne]
        rw [ih h₁' h₂ ⟨hsame'.queries.trans hsame.queries, hsame'.applied.trans hsame.applied⟩ hrest]
        exact ⟨fun hlater => ⟨fun hv => absurd hv hne, hlater⟩, fun hlater => hlater.2⟩

end TwoRuns

/-- What A takes from elsewhere is the same where the logs are not among the data files and the
last analysis is the same. -/
theorem sameOutlook_of_analysis (h : Shared a b cA cB d e m L) {d₁ d₂ : Disk} {L₁ L₂ : Ledger}
    (h₁ : Opens.Leaves d e cA.dataPath m L d₁ L₁) (h₂ : Opens.Leaves d e cA.dataPath m L d₂ L₂)
    (hsame : Ledger.SameFor cA.principal L₁ L₂) {s : Surroundings} {action : Action}
    (hupload : ∀ file, action = .upload file → Apart d e m file)
    (happly : ∀ queryKey id, action = .apply queryKey id → L₁.analysis? = L₂.analysis?) :
    SameOutlook cA s d₁ d₂ action := by
  rw [h.sameOutlook_iff h₁ h₂]
  cases action with
  | upload file =>
      have hfile := hupload file rfl
      exact (h₁.loadOn hfile s).trans (h₂.loadOn hfile s).symm
  | apply queryKey id => exact hsame.offer (happly queryKey id rfl) queryKey id s.now
  | _ => trivial

/-- What A finds after a session in which it applies from its own analyses only: the same records
as without B, and the same last analysis if the last one to set it was A. -/
theorem leaves_after (h : Shared a b cA cB d e m L) {vs : List Visit}
    (hvs : ∀ v ∈ vs, v.command.config = a ∨ v.command.config = b)
    (hupload : ∀ v ∈ vs, ∀ file, v.command = ⟨a, .upload file⟩ → Apart d e m file)
    (happly : ∀ before v later, vs = before ++ v :: later →
      ∀ queryKey id, v.command = ⟨a, .apply queryKey id⟩ →
        ∀ u ∈ lastSetter? before, u.command.config = a) :
    ∃ L₁ L₂, Opens.Leaves d e cA.dataPath m L (after d vs) L₁ ∧
      Opens.Leaves d e cA.dataPath m L (after d (own a vs)) L₂ ∧
      Ledger.SameFor cA.principal L₁ L₂ ∧
      ((∀ u ∈ lastSetter? vs, u.command.config = a) → L₁.analysis? = L₂.analysis?) := by
  induction vs using List.reverseRecOn with
  | nil =>
      exact ⟨L, L, Opens.leaves_self d e _ m L, Opens.leaves_self d e _ m L, ⟨rfl, rfl⟩, fun _ => rfl⟩
  | append_singleton vs v ih =>
      obtain ⟨L₁, L₂, h₁, h₂, hsame, hanalysis⟩ := ih
        (fun u hu => hvs u (List.mem_append_left _ hu))
        (fun u hu => hupload u (List.mem_append_left _ hu))
        (fun before u later hsplit => happly before u (later ++ [v]) (by rw [hsplit]; simp))
      rw [after_concat, lastSetter?_concat]
      -- A visit of one's own is made on both disks, one of the other's on the shared disk only.
      rcases hvs v (by simp) with hv | hv
      · have hown : own a (vs ++ [v]) = own a vs ++ [v] := by simp [own, hv]
        have houtlook := h.sameOutlook_of_analysis (s := v.surroundings) h₁ h₂ hsame
          (fun file haction => hupload v (by simp) file (congrArg₂ Command.mk hv haction))
          (fun queryKey id haction => hanalysis
            (happly vs v [] rfl queryKey id (congrArg₂ Command.mk hv haction)))
        obtain ⟨L₁', L₂', h₁', h₂', hsame', hanalysis'⟩ := (h.run_own h₁ h₂ hsame hv).2 houtlook
        rw [hown, after_concat]
        refine ⟨L₁', L₂', h₁', h₂', hsame', fun hlast => hanalysis' ?_⟩
        cases hsets : setsAnalysis v.command.action with
        | true => exact Or.inl rfl
        | false =>
            rw [if_neg (by simp [hsets])] at hlast
            exact Or.inr (hanalysis hlast)
      · have hne : v.command.config ≠ a := hv ▸ h.ne_config
        have hown : own a (vs ++ [v]) = own a vs := by simp [own, hne]
        obtain ⟨L₁', h₁', hsame', hanalysis'⟩ := h.run_other h₁ hv
        rw [hown]
        refine ⟨L₁', L₂, h₁', h₂, ⟨hsame'.queries.trans hsame.queries,
          hsame'.applied.trans hsame.applied⟩, fun hlast => ?_⟩
        cases hsets : setsAnalysis v.command.action with
        | true => exact absurd (hlast v (by rw [if_pos hsets]; rfl)) hne
        | false =>
            rw [if_neg (by simp [hsets])] at hlast
            exact (hanalysis' hsets).trans (hanalysis hlast)

end Shared

/-- **Principals that share a directory** see of each other the last analysis only. In every session
of the two, the answers that A gets are those that it gets without B exactly if each log that A
uploads reads the same and each time that A applies a recommendation the last analysis offers it the
same. That is so if A's logs are not among the data files and if, whenever A applies a
recommendation, the last one to have analyzed or cleared was A, or nobody has. -/
theorem answers_own_iff {a b : Path} {cA cB : Config} {d e : Disk} {m : Place} {L : Ledger}
    (h : Shared a b cA cB d e m L) (vs : List Visit)
    (hvs : ∀ v ∈ vs, v.command.config = a ∨ v.command.config = b) :
    (answers a d vs = answers a d (own a vs) ↔
      ∀ before v later, vs = before ++ v :: later → v.command.config = a →
        SameOutlook cA v.surroundings (after d before) (after d (own a before))
          v.command.action) ∧
    ((∀ v ∈ vs, ∀ file, v.command = ⟨a, .upload file⟩ → Apart d e m file) →
      (∀ before v later, vs = before ++ v :: later →
        ∀ queryKey id, v.command = ⟨a, .apply queryKey id⟩ →
          ∀ u ∈ lastSetter? before, u.command.config = a) →
      answers a d vs = answers a d (own a vs)) := by
  have hself := Opens.leaves_self d e cA.dataPath m L
  have hiff := h.answers_eq_iff_of_leaves hself hself ⟨rfl, rfl⟩ hvs
  refine ⟨hiff, fun hupload happly => hiff.mpr fun before v later hsplit hv => ?_⟩
  have hbefore : ∀ u ∈ before, u.command.config = a ∨ u.command.config = b := fun u hu =>
    hvs u (by rw [hsplit]; exact List.mem_append_left _ hu)
  obtain ⟨L₁, L₂, h₁, h₂, hsame, hanalysis⟩ := h.leaves_after hbefore
    (fun u hu => hupload u (by rw [hsplit]; exact List.mem_append_left _ hu))
    (fun first u later' hsplit' => happly first u (later' ++ v :: later) (by
      rw [hsplit, hsplit', List.append_assoc, List.cons_append]))
  exact h.sameOutlook_of_analysis h₁ h₂ hsame
    (fun file haction => hupload v (by rw [hsplit]; simp) file (congrArg₂ Command.mk hv haction))
    (fun queryKey id haction => hanalysis
      (happly before v later hsplit queryKey id (congrArg₂ Command.mk hv haction)))

/-! ### Ada and Bob -/

/-- The configuration of a principal of the directory "data". -/
def pairConfig (principal : String) : Config := ⟨"data", principal, some 1, ["txt"], "info"⟩

/-- A disk with nothing but the configurations of two principals. -/
def pairDisk : Disk :=
  ⟨.root, ["ada", "bob"].map fun principal =>
    (.ofNames [principal], .file (Text.Utf8.encode (pairConfig principal).toJson.render))⟩

/-- The disk once the directory has been made. -/
def pairOpened : Disk := pairDisk.put (.ofNames ["data"]) .directory

/-- A visit of one of the two. -/
def pairVisit (principal : String) (action : Action) : Visit :=
  ⟨⟨⟨principal⟩, action⟩, ⟨"now", "0", fun _ => "id", 0⟩⟩

theorem shared_pair : Shared ⟨"ada"⟩ ⟨"bob"⟩ (pairConfig "ada") (pairConfig "bob") pairDisk
    pairOpened (.ofNames ["data"]) .empty where
  text_ne := by decide
  entered := by decide +kernel
  accepted := by decide +kernel
  node_ne := by decide +kernel
  queries := by decide +kernel
  applied := by decide +kernel
  analysis := by decide +kernel
  made := by decide +kernel
  early := Or.inr rfl
  sameDirectory := rfl
  ne_principal := by decide
  loadA := by decide +kernel
  loadB := by decide +kernel
  apartA := apart_of_locate (l := .ofNames ["ada"]) (p := ⟨"data"⟩) (by decide +kernel)
    (by decide +kernel) (by decide +kernel) (by decide +kernel)
  apartB := apart_of_locate (l := .ofNames ["bob"]) (p := ⟨"data"⟩) (by decide +kernel)
    (by decide +kernel) (by decide +kernel) (by decide +kernel)

/-- Ada may look at what Bob has applied, and gets the answers that she gets without him. -/
theorem answers_own_iff_pair :
    let vs := [pairVisit "ada" .analyze, pairVisit "bob" (.clear true),
      pairVisit "ada" (.apply "q0" 1), pairVisit "bob" .analyze, pairVisit "ada" .applied]
    answers ⟨"ada"⟩ pairDisk vs = answers ⟨"ada"⟩ pairDisk (own ⟨"ada"⟩ vs) := by
  refine (answers_own_iff shared_pair _ (by decide)).2 ?_ ?_
  · simp [pairVisit]
  · simp [forall_split_cons, pairVisit, lastSetter?, setsAnalysis]

/-- **The last analysis is shared.** Ada analyzes, Bob clears his statements, and Ada can apply
nothing any more. -/
theorem answers_ne_own_pair :
    let vs := [pairVisit "ada" .analyze, pairVisit "bob" (.clear false),
      pairVisit "ada" (.apply "q0" 1)]
    answers ⟨"ada"⟩ pairDisk vs ≠ answers ⟨"ada"⟩ pairDisk (own ⟨"ada"⟩ vs) := by
  intro vs heq
  exact absurd (congrArg (List.map failure?) heq) (by decide +kernel)

end IndexAdvisor.Command
