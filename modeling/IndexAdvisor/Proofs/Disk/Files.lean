import IndexAdvisor.Proofs.Disk.Directories

/-!
# Files at the places of paths

Where a path names the place of a file, reading, writing, adding, removing and moving are all about
what is found there. A path goes on naming its place while directories stay.
-/

set_option autoImplicit false

namespace IndexAdvisor

namespace Disk

variable {d e : Disk}

/-- The path names a place where a file is or can be made. -/
structure Names (d : Disk) (p : Path) (l : Place) : Prop where
  located : d.locateNamed p p.bareName? .isDirectory = .ok l
  node_ne : d.node? l ≠ some .directory

/-- The content of the file at a place, if one is there. -/
def bytesAt (d : Disk) (l : Place) : List UInt8 :=
  match d.node? l with
  | some (.file bytes) => bytes
  | _ => []

theorem bytesAt_congr {l : Place} (h : e.node? l = d.node? l) : e.bytesAt l = d.bytesAt l := by
  rw [bytesAt, bytesAt, h]

@[simp] theorem bytesAt_put_file (d : Disk) {l : Place} (h : l ≠ .root) (bytes : List UInt8) :
    (d.put l (.file bytes)).bytesAt l = bytes := by
  rw [bytesAt, node?_put_self d _ h]

/-! ## Changes at some places -/

/-- The disks differ at these places only, where neither has a directory. -/
structure SameOutside (places : List Place) (d e : Disk) : Prop where
  workingDirectory : e.workingDirectory = d.workingDirectory
  node? : ∀ l ∉ places, e.node? l = d.node? l
  ne_directory : ∀ l ∈ places, d.node? l ≠ some .directory ∧ e.node? l ≠ some .directory

namespace SameOutside

variable {places more : List Place}

theorem refl (h : ∀ l ∈ places, d.node? l ≠ some .directory) : d.SameOutside places d :=
  ⟨rfl, fun _ _ => rfl, fun l hl => ⟨h l hl, h l hl⟩⟩

theorem symm (h : d.SameOutside places e) : e.SameOutside places d :=
  ⟨h.workingDirectory.symm, fun l hl => (h.node? l hl).symm, fun l hl => (h.ne_directory l hl).symm⟩

theorem trans {c : Disk} (h : c.SameOutside places d) (k : d.SameOutside places e) :
    c.SameOutside places e :=
  ⟨k.workingDirectory.trans h.workingDirectory, fun l hl => (k.node? l hl).trans (h.node? l hl),
    fun l hl => ⟨(h.ne_directory l hl).1, (k.ne_directory l hl).2⟩⟩

theorem mono (h : d.SameOutside places e) (hmore : ∀ l ∈ places, l ∈ more)
    (hnode : ∀ l ∈ more, d.node? l ≠ some .directory) : d.SameOutside more e where
  workingDirectory := h.workingDirectory
  node? l hl := h.node? l fun hplace => hl (hmore l hplace)
  ne_directory l hl := by
    by_cases hplace : l ∈ places
    · exact h.ne_directory l hplace
    · exact ⟨hnode l hl, by rw [h.node? l hplace]; exact hnode l hl⟩

theorem keeps (h : d.SameOutside places e) : d.Keeps e := by
  refine ⟨h.workingDirectory, fun {l} hl => ?_⟩
  by_cases hplace : l ∈ places
  · exact absurd hl (h.ne_directory l hplace).1
  · rw [h.node? l hplace, hl]

theorem sameDirectories (h : d.SameOutside places e) : d.SameDirectories e := ⟨h.keeps, h.symm.keeps⟩

theorem put_file {l : Place} (h : d.node? l ≠ some .directory) (bytes : List UInt8) :
    d.SameOutside [l] (d.put l (.file bytes)) where
  workingDirectory := rfl
  node? k hk := node?_put_of_ne d _ fun heq => hk (heq ▸ List.mem_cons_self)
  ne_directory k hk := by
    rw [List.mem_singleton.mp hk, node?_put_self d _ (ne_root_of_node? h)]
    exact ⟨h, fun heq => by cases heq⟩

theorem erase {l : Place} (h : d.node? l ≠ some .directory) : d.SameOutside [l] (d.erase l) where
  workingDirectory := rfl
  node? k hk := node?_erase_of_ne d fun heq => hk (heq ▸ List.mem_cons_self)
  ne_directory k hk := by
    rw [List.mem_singleton.mp hk, node?_erase_self d (ne_root_of_node? h)]
    exact ⟨h, fun heq => by cases heq⟩

end SameOutside

/-! ## The same files -/

/-- The disks have the same files with the same content. There may be further directories. -/
structure SameFiles (d e : Disk) : Prop where
  keeps : d.Keeps e
  file_iff : ∀ {l : Place} {bytes : List UInt8},
    e.node? l = some (.file bytes) ↔ d.node? l = some (.file bytes)

namespace SameFiles

theorem refl (d : Disk) : d.SameFiles d := ⟨Keeps.refl d, Iff.rfl⟩

theorem trans {c : Disk} (h : c.SameFiles d) (k : d.SameFiles e) : c.SameFiles e :=
  ⟨h.keeps.trans k.keeps, k.file_iff.trans h.file_iff⟩

/-- A file is put where it is already. -/
theorem put_self {l : Place} {bytes : List UInt8} (h : d.node? l = some (.file bytes)) :
    d.SameFiles (d.put l (.file bytes)) := by
  have hne : d.node? l ≠ some .directory := by simp [h]
  refine ⟨keeps_put hne _, fun {k more} => ?_⟩
  by_cases hk : k = l
  · rw [hk, node?_put_self d _ (ne_root_of_node? hne), h]
  · rw [node?_put_of_ne d _ hk]

end SameFiles

theorem Grows.sameFiles (h : d.Grows e) : d.SameFiles e := ⟨h.keeps, h.file_iff⟩

/-! ## Naming -/

namespace Names

variable {p : Path} {l : Place}

theorem ne_root (h : d.Names p l) : l ≠ .root := ne_root_of_node? h.node_ne

/-- Files do not matter to what a path names. -/
theorem mono (h : d.Names p l) (hsame : d.SameDirectories e) : e.Names p l :=
  ⟨hsame.there.locateNamed h.located, fun hl => h.node_ne (hsame.back.directory hl)⟩

/-- A path that names a place ends in a name, with no slash behind it. -/
theorem exists_name (h : d.Names p l) : ∃ name m, p.endsInSlash = false ∧
    p.lastName? = some name ∧ p.pieces = p.pieces.dropLast ++ [name] ∧
      d.enclosing p = .ok m ∧ d.follow m name = .ok l := by
  obtain ⟨m, hm, hl⟩ := bind_eq_ok_iff.mp h.located
  cases hbare : p.bareName? with
  | none =>
      rw [hbare] at hl
      cases hl
  | some name =>
      rw [hbare] at hl
      rw [Path.bareName?] at hbare
      split at hbare
      · cases hbare
      · rename_i hslash
        have hlast := hbare
        rw [Path.lastName?, Option.filter_eq_some_iff] at hlast
        refine ⟨name, m, eq_false_of_ne_true hslash, hbare, ?_, hm, hl⟩
        rw [List.getLast?_eq_some_iff] at hlast
        obtain ⟨⟨before, hpieces⟩, -⟩ := hlast
        rw [hpieces, List.dropLast_concat]

/-- The path leads to the place that it names. -/
theorem locate (h : d.Names p l) : d.locate p = .ok l := by
  obtain ⟨name, m, hslash, -, hpieces, hm, hl⟩ := h.exists_name
  obtain ⟨u, hu, hm⟩ := bind_eq_ok_iff.mp hm
  refine bind_eq_ok_iff.mpr ⟨u, hu, ?_⟩
  have hsteps : p.steps = p.pieces.dropLast ++ [name] := by
    rw [Path.steps, hslash, if_neg Bool.false_ne_true, List.append_nil]
    exact hpieces
  rw [hsteps, walk_append, (enter_eq_ok_iff.mp hm).1]
  show d.walk m [name] = _
  rw [walk, List.foldlM_cons, hl]
  rfl

/-! ## Reading and changing -/

/-- What is read is what is found at the place. -/
theorem readBytes (h : d.Names p l) {bytes : List UInt8} (hl : d.node? l = some (.file bytes)) :
    d.readBytes p = .ok bytes := by
  rw [Disk.readBytes, h.locate]
  simp only [bind, Except.bind, hl]

theorem readBytes_of_none (h : d.Names p l) (hl : d.node? l = none) :
    d.readBytes p = .error .missing := by
  rw [Disk.readBytes, h.locate]
  simp only [bind, Except.bind, hl]

/-- A file is changed at its place. -/
theorem change (h : d.Names p l) (f : List UInt8 → List UInt8) :
    d.change p f = .ok (d.put l (.file (f (d.bytesAt l)))) := by
  rw [Disk.change, h.located, bytesAt]
  simp only [bind, Except.bind]
  cases hl : d.node? l with
  | none => rfl
  | some node =>
      cases node with
      | file bytes => rfl
      | directory => exact absurd hl h.node_ne

theorem write (h : d.Names p l) (bytes : List UInt8) :
    d.write p bytes = .ok (d.put l (.file bytes)) := h.change fun _ => bytes

/-- The file is removed from its place. -/
theorem remove (h : d.Names p l) {bytes : List UInt8} (hl : d.node? l = some (.file bytes)) :
    d.remove p = .ok (d.erase l) := by
  obtain ⟨name, m, hslash, hname, -, hm, hfollow⟩ := h.exists_name
  simp only [Disk.remove, locateNamed, hm, hname, hfollow, bind, Except.bind, hl, hslash,
    Bool.false_eq_true, if_false]

theorem remove_of_none (h : d.Names p l) (hl : d.node? l = none) :
    d.remove p = .error .missing := by
  obtain ⟨name, m, -, hname, -, hm, hfollow⟩ := h.exists_name
  simp only [Disk.remove, locateNamed, hm, hname, hfollow, bind, Except.bind, hl]

/-- The file is moved from its place to that of the other path. -/
theorem rename {q : Path} {k : Place} (hp : d.Names p l) (hq : d.Names q k) {bytes : List UInt8}
    (hl : d.node? l = some (.file bytes)) :
    d.rename p q = .ok ((d.erase l).put k (.file bytes)) := by
  simp only [Disk.rename, hp.readBytes hl, hp.remove hl, bind, Except.bind,
    (hq.mono (sameDirectories_erase hp.node_ne)).write]

end Names

/-- A path along which a file could be changed names a place. -/
theorem names_of_change {p : Path} {f : List UInt8 → List UInt8} (h : d.change p f = .ok e) :
    ∃ l, d.Names p l ∧ e = d.put l (.file (f (d.bytesAt l))) := by
  obtain ⟨l, hl, he⟩ := bind_eq_ok_iff.mp h
  have hnames : d.Names p l := by
    refine ⟨hl, fun hnode => ?_⟩
    rw [hnode] at he
    cases he
  exact ⟨l, hnames, Except.ok.inj (h.symm.trans (hnames.change f))⟩

end Disk

end IndexAdvisor
