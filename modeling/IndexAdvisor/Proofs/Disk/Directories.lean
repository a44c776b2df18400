import IndexAdvisor.Disk.Basic
import IndexAdvisor.Proofs.Fallible

/-!
# Directories that stay

A path is followed through directories only, so what it leads to is the same on every disk that has
these directories and perhaps more. Files play no part in it. Making directories that are there
already changes nothing.
-/

set_option autoImplicit false

namespace IndexAdvisor

namespace Disk

variable {d e : Disk}

/-- The directories of a disk are directories of another one, and relative paths begin at the same
place. -/
structure Keeps (d e : Disk) : Prop where
  workingDirectory : e.workingDirectory = d.workingDirectory
  directory : ∀ {l : Place}, d.node? l = some .directory → e.node? l = some .directory

namespace Keeps

theorem refl (d : Disk) : d.Keeps d := ⟨rfl, id⟩

theorem trans {c : Disk} (h : c.Keeps d) (k : d.Keeps e) : c.Keeps e :=
  ⟨k.workingDirectory.trans h.workingDirectory, fun hl => k.directory (h.directory hl)⟩

end Keeps

/-- The root is a directory, so whatever is none is not the root. -/
theorem ne_root_of_node? {l : Place} (h : d.node? l ≠ some .directory) : l ≠ .root := by
  rintro rfl
  exact h rfl

/-- A place that is no directory may be filled, and all directories stay. -/
theorem keeps_put {l : Place} (h : d.node? l ≠ some .directory) (n : Node) :
    d.Keeps (d.put l n) := by
  refine ⟨rfl, fun {k} hk => ?_⟩
  have hne : k ≠ l := fun heq => h (heq ▸ hk)
  rw [node?_put_of_ne d n hne, hk]

/-- The two disks have the same directories. -/
structure SameDirectories (d e : Disk) : Prop where
  there : d.Keeps e
  back : e.Keeps d

namespace SameDirectories

theorem refl (d : Disk) : d.SameDirectories d := ⟨Keeps.refl d, Keeps.refl d⟩

theorem symm (h : d.SameDirectories e) : e.SameDirectories d := ⟨h.back, h.there⟩

theorem trans {c : Disk} (h : c.SameDirectories d) (k : d.SameDirectories e) :
    c.SameDirectories e := ⟨h.there.trans k.there, k.back.trans h.back⟩

end SameDirectories

/-- Files come and go, and all directories stay. -/
theorem sameDirectories_put_file {l : Place} (h : d.node? l ≠ some .directory)
    (bytes : List UInt8) : d.SameDirectories (d.put l (.file bytes)) := by
  refine ⟨keeps_put h _, rfl, fun {k} hk => ?_⟩
  by_cases heq : k = l
  · rw [heq, node?_put_self d _ (ne_root_of_node? h)] at hk
    cases hk
  · rwa [node?_put_of_ne d _ heq] at hk

theorem sameDirectories_erase {l : Place} (h : d.node? l ≠ some .directory) :
    d.SameDirectories (d.erase l) := by
  refine ⟨⟨rfl, fun {k} hk => ?_⟩, rfl, fun {k} hk => ?_⟩
  · have hne : k ≠ l := fun heq => h (heq ▸ hk)
    rw [node?_erase_of_ne d hne, hk]
  · by_cases heq : k = l
    · rw [heq, node?_erase_self d (ne_root_of_node? h)] at hk
      cases hk
    · rwa [node?_erase_of_ne d heq] at hk

/-! ## Following paths -/

/-- A step can be taken from a directory, if its name is not too long. -/
theorem follow_eq_ok_iff {l k : Place} {step : String} : d.follow l step = .ok k ↔
    d.node? l = some .directory ∧ step.utf8ByteSize ≤ nameLimit ∧ next l step = k := by
  unfold follow
  split
  · rename_i h
    simp [h]
  · rename_i h
    simp [h]
  · rename_i h
    by_cases hlong : nameLimit < step.utf8ByteSize
    · simp [hlong, Nat.not_le_of_lt hlong]
    · simp [h, hlong, Nat.le_of_not_lt hlong]

/-- The steps on the way lead to a directory. -/
theorem enter_eq_ok_iff {l k : Place} {steps : List String} : d.enter l steps = .ok k ↔
    d.walk l steps = .ok k ∧ d.node? k = some .directory := by
  unfold enter
  cases hw : d.walk l steps with
  | error fault => simp [bind, Except.bind]
  | ok m =>
      simp only [bind, Except.bind, Except.ok.injEq]
      constructor
      · intro h
        split at h
        · cases h
        · cases h
        · cases h
          exact ⟨rfl, by assumption⟩
      · rintro ⟨rfl, h⟩
        rw [h]

theorem walk_append (l : Place) (steps more : List String) :
    d.walk l (steps ++ more) = (d.walk l steps).bind fun k => d.walk k more :=
  List.foldlM_append

section Transfer

variable (h : d.Keeps e) {l k : Place} {p : Path}

include h

theorem Keeps.follow {step : String} (hd : d.follow l step = .ok k) : e.follow l step = .ok k := by
  obtain ⟨hl, hshort, hk⟩ := follow_eq_ok_iff.mp hd
  exact follow_eq_ok_iff.mpr ⟨h.directory hl, hshort, hk⟩

theorem Keeps.walk {steps : List String} (hd : d.walk l steps = .ok k) :
    e.walk l steps = .ok k := by
  induction steps generalizing l with
  | nil => exact hd
  | cons step steps ih =>
      rw [Disk.walk, List.foldlM_cons] at hd ⊢
      obtain ⟨m, hm, hrest⟩ := bind_eq_ok_iff.mp hd
      exact bind_eq_ok_iff.mpr ⟨m, h.follow hm, ih hrest⟩

theorem Keeps.enter {steps : List String} (hd : d.enter l steps = .ok k) :
    e.enter l steps = .ok k := by
  obtain ⟨hw, hk⟩ := enter_eq_ok_iff.mp hd
  exact enter_eq_ok_iff.mpr ⟨h.walk hw, h.directory hk⟩

theorem Keeps.origin : e.origin p = d.origin p := by
  rw [Disk.origin, Disk.origin, h.workingDirectory]

theorem Keeps.enclosing (hd : d.enclosing p = .ok k) : e.enclosing p = .ok k := by
  obtain ⟨u, hu, hk⟩ := bind_eq_ok_iff.mp hd
  refine bind_eq_ok_iff.mpr ⟨u, hu, ?_⟩
  rw [h.origin]
  exact h.enter hk

theorem Keeps.locate (hd : d.locate p = .ok k) : e.locate p = .ok k := by
  obtain ⟨u, hu, hk⟩ := bind_eq_ok_iff.mp hd
  refine bind_eq_ok_iff.mpr ⟨u, hu, ?_⟩
  rw [h.origin]
  exact h.walk hk

theorem Keeps.locateNamed {name : Option String} {unnamed : Fault}
    (hd : d.locateNamed p name unnamed = .ok k) : e.locateNamed p name unnamed = .ok k := by
  obtain ⟨l, hl, hk⟩ := bind_eq_ok_iff.mp hd
  refine bind_eq_ok_iff.mpr ⟨l, h.enclosing hl, ?_⟩
  cases name with
  | none => exact hk
  | some name => exact h.follow hk

end Transfer

/-! ## Making directories -/

/-- A step for which a directory has been made leads to it. -/
theorem makeStep_eq_ok {l k : Place} {step : String} (h : d.makeStep l step = (.ok k, e)) :
    d.follow l step = .ok k ∧ e.node? k = some .directory ∧ d.Keeps e := by
  unfold makeStep at h
  split at h
  · cases h
  · rename_i m hm
    split at h
    · rename_i hnone
      cases h
      have hne : k ≠ .root := ne_root_of_node? (d := d) (by simp [hnone])
      exact ⟨hm, node?_put_self d _ hne, keeps_put (by simp [hnone]) _⟩
    · cases h
    · rename_i hdirectory
      cases h
      exact ⟨hm, hdirectory, Keeps.refl d⟩

/-- Where a directory is, none is made. -/
theorem makeStep_of_directory {l k : Place} {step : String} (hstep : d.follow l step = .ok k)
    (hk : d.node? k = some .directory) : d.makeStep l step = (.ok k, d) := by
  simp only [makeStep, hstep, hk]

/-- Makes the last directory of a path, once the directory around it is there. -/
def makeLast (d : Disk) (p : Path) (l : Place) : Except Fault Unit × Disk :=
  match p.pieces.getLast? with
  | none => (.ok (), d)
  | some step =>
    let (r, d) := d.makeStep l step
    (r.map fun _ => (), d)

theorem makeDirectories_of_enclosing {p : Path} {l : Place} (hp : p.text ≠ "")
    (h : d.enclosing p = .ok l) : d.makeDirectories p = d.makeLast p l := by
  simp only [makeDirectories, if_neg hp, h]
  rfl

/-- Directories that have been made were made in an enclosing one, unless there was none to make. -/
theorem exists_of_makeDirectories {p : Path} (hp : p.text ≠ "")
    (h : d.makeDirectories p = (.ok (), e)) :
    ∃ (c : Disk) (l : Place), c.enclosing p = .ok l ∧ c.makeLast p l = (.ok (), e) := by
  simp only [makeDirectories, if_neg hp] at h
  split at h
  · split at h
    · rename_i c _
      cases hc : c.enclosing p with
      | error fault =>
          rw [hc] at h
          cases h
      | ok l =>
          rw [hc] at h
          exact ⟨c, l, hc, h⟩
    · cases h
  · cases hd : d.enclosing p with
    | error fault =>
        rw [hd] at h
        cases h
    | ok l =>
        rw [hd] at h
        exact ⟨d, l, hd, h⟩

/-- **Directories are made once.** Where they have been made, making them again changes nothing,
whatever happened to files in between. -/
theorem makeDirectories_again {c : Disk} {p : Path} (h : c.makeDirectories p = (.ok (), d))
    (hkeeps : d.Keeps e) : e.makeDirectories p = (.ok (), e) := by
  by_cases hp : p.text = ""
  · simp only [makeDirectories, if_pos hp]
  obtain ⟨b, l, hb, hlast⟩ := exists_of_makeDirectories hp h
  -- the enclosing directory is found again, and the last step leads to what was made before
  unfold makeLast at hlast
  cases hstep : p.pieces.getLast? with
  | none =>
      rw [hstep] at hlast
      cases hlast
      rw [makeDirectories_of_enclosing hp (hkeeps.enclosing hb), makeLast, hstep]
  | some step =>
      cases hmake : b.makeStep l step with
      | mk r c =>
          simp only [hstep, hmake] at hlast
          cases r with
          | error fault => cases hlast
          | ok k =>
              cases hlast
              obtain ⟨hfollow, hdirectory, hbd⟩ := makeStep_eq_ok hmake
              have hbe := hbd.trans hkeeps
              rw [makeDirectories_of_enclosing hp (hbe.enclosing hb), makeLast, hstep]
              simp only [makeStep_of_directory (hbe.follow hfollow)
                (hkeeps.directory hdirectory)]
              rfl

/-! ## Directories that are made -/

/-- The disk has got further directories, and nothing else is different. -/
structure Grows (d e : Disk) : Prop where
  workingDirectory : e.workingDirectory = d.workingDirectory
  node? : ∀ l, e.node? l = d.node? l ∨ d.node? l = none ∧ e.node? l = some .directory

namespace Grows

theorem refl (d : Disk) : d.Grows d := ⟨rfl, fun _ => Or.inl rfl⟩

theorem trans {c : Disk} (h : c.Grows d) (k : d.Grows e) : c.Grows e := by
  refine ⟨k.workingDirectory.trans h.workingDirectory, fun l => ?_⟩
  rcases k.node? l with hl | ⟨hnone, hl⟩
  · rw [hl]
    exact h.node? l
  · rcases h.node? l with hc | ⟨hc, hd⟩
    · exact Or.inr ⟨hc ▸ hnone, hl⟩
    · exact Or.inr ⟨hc, hl⟩

/-- What is there stays. -/
theorem node?_eq_some (h : d.Grows e) {l : Place} {n : Node} (hl : d.node? l = some n) :
    e.node? l = some n := by
  rcases h.node? l with he | ⟨hnone, -⟩
  · rw [he, hl]
  · rw [hnone] at hl
    cases hl

theorem keeps (h : d.Grows e) : d.Keeps e := ⟨h.workingDirectory, h.node?_eq_some⟩

/-- Files that are there now were there before. -/
theorem file_iff (h : d.Grows e) {l : Place} {bytes : List UInt8} :
    e.node? l = some (.file bytes) ↔ d.node? l = some (.file bytes) := by
  rcases h.node? l with he | ⟨hnone, he⟩
  · rw [he]
  · rw [hnone, he]
    constructor
    · intro heq
      cases heq
    · intro heq
      cases heq

end Grows

theorem grows_makeStep (d : Disk) (l : Place) (step : String) :
    d.Grows (d.makeStep l step).2 := by
  unfold makeStep
  split
  · exact Grows.refl d
  · rename_i k _
    split
    · rename_i hnone
      refine ⟨rfl, fun j => ?_⟩
      by_cases hj : j = k
      · rw [hj, node?_put_self d _ (ne_root_of_node? (d := d) (by simp [hnone]))]
        exact Or.inr ⟨hnone, rfl⟩
      · exact Or.inl (node?_put_of_ne d _ hj)
    · exact Grows.refl d
    · exact Grows.refl d

theorem grows_makeAlong (d : Disk) (start : Place) (steps : List String) :
    d.Grows (d.makeAlong start steps).2 := by
  induction steps with
  | nil => exact Grows.refl d
  | cons step before ih =>
      rw [makeAlong]
      split
      · exact grows_makeStep d _ step
      · cases hmake : d.makeAlong start before with
        | mk r c =>
            rw [hmake] at ih
            cases r with
            | ok l => exact ih.trans (grows_makeStep c l step)
            | error fault => exact ih
      · exact Grows.refl d

/-- **Making directories makes directories only**, also where it fails. -/
theorem grows_makeDirectories (d : Disk) (p : Path) : d.Grows (d.makeDirectories p).2 := by
  have hlast (c : Disk) (l : Place) : c.Grows (c.makeLast p l).2 := by
    unfold makeLast
    split
    · exact Grows.refl c
    · exact grows_makeStep c l _
  by_cases hp : p.text = ""
  · simp only [makeDirectories, if_pos hp]
    exact Grows.refl d
  simp only [makeDirectories, if_neg hp]
  -- directories around the path are made only if one of them is missing
  cases henclosing : d.enclosing p with
  | ok l => exact hlast d l
  | error fault =>
      cases fault
      case missing =>
        have halong := grows_makeAlong d (d.origin p) (stepsAround p)
        cases hdone : d.makeAlong (d.origin p) (stepsAround p) with
        | mk r c =>
            rw [hdone] at halong
            cases r with
            | ok l =>
                refine halong.trans ?_
                dsimp only
                cases c.enclosing p with
                | ok l => exact hlast c l
                | error fault => exact Grows.refl c
            | error fault => exact halong
      all_goals exact Grows.refl d

end Disk

end IndexAdvisor
