import IndexAdvisor.Proofs.Disk.Children

/-!
# Footprints of changes

An operation on a disk changes files at the places of its own paths only. Where a path leads may
become known only when directories have been made, so places are found on the disk behind the
operation. A path that leads to a name in a directory leads to no other name, and to no other
directory, however it is spelled.
-/

set_option autoImplicit false

namespace IndexAdvisor

namespace Disk

variable {d e : Disk} {p q dir : Path} {ps qs : List Path} {l m : Place} {name : String}

/-- The disks have the same files, but for the places to which these paths lead. There may be
further directories. -/
structure SameBut (ps : List Path) (d e : Disk) : Prop where
  keeps : d.Keeps e
  file_iff : ∀ {l : Place} {bytes : List UInt8}, (∀ p ∈ ps, e.locate p ≠ .ok l) →
    (e.node? l = some (.file bytes) ↔ d.node? l = some (.file bytes))

theorem SameFiles.sameBut (h : d.SameFiles e) (ps : List Path) : d.SameBut ps e :=
  ⟨h.keeps, fun _ => h.file_iff⟩

namespace SameBut

theorem refl (d : Disk) (ps : List Path) : d.SameBut ps d := (SameFiles.refl d).sameBut ps

/-- A path leads to the same place all along. -/
theorem trans {c : Disk} (h : c.SameBut ps d) (k : d.SameBut ps e) : c.SameBut ps e where
  keeps := h.keeps.trans k.keeps
  file_iff hl := (k.file_iff hl).trans (h.file_iff fun p hp hd => hl p hp (k.keeps.locate hd))

theorem mono (h : d.SameBut ps e) (hps : ∀ p ∈ ps, p ∈ qs) : d.SameBut qs e :=
  ⟨h.keeps, fun hl => h.file_iff fun p hp => hl p (hps p hp)⟩

end SameBut

/-! ## Operations -/

theorem Names.sameBut_put_file (h : d.Names p l) (bytes : List UInt8) :
    d.SameBut [p] (d.put l (.file bytes)) where
  keeps := keeps_put h.node_ne _
  file_iff {k _} hk := by
    have hlocate := (h.mono (sameDirectories_put_file h.node_ne bytes)).locate
    have hne : k ≠ l := by
      rintro rfl
      exact hk p List.mem_cons_self hlocate
    rw [node?_put_of_ne d _ hne]

theorem Names.sameBut_erase (h : d.Names p l) : d.SameBut [p] (d.erase l) where
  keeps := (sameDirectories_erase h.node_ne).there
  file_iff {k _} hk := by
    have hlocate := (h.mono (sameDirectories_erase h.node_ne)).locate
    have hne : k ≠ l := by
      rintro rfl
      exact hk p List.mem_cons_self hlocate
    rw [node?_erase_of_ne d hne]

theorem sameBut_of_change {f : List UInt8 → List UInt8} (h : d.change p f = .ok e) :
    d.SameBut [p] e := by
  obtain ⟨l, hl, rfl⟩ := names_of_change h
  exact hl.sameBut_put_file _

/-- A path along which a file could be removed names a place. -/
theorem names_of_remove (h : d.remove p = .ok e) : ∃ l, d.Names p l ∧ e = d.erase l := by
  obtain ⟨l, hl, h⟩ := bind_eq_ok_iff.mp h
  split at h
  · cases h
  · cases h
  · rename_i bytes hnode
    by_cases hslash : p.endsInSlash
    · rw [if_pos hslash] at h
      cases h
    · rw [if_neg hslash] at h
      cases h
      have hbare : p.bareName? = p.lastName? := by rw [Path.bareName?, if_neg hslash]
      exact ⟨l, ⟨by rw [hbare]; exact hl, by simp [hnode]⟩, rfl⟩

theorem sameBut_of_remove (h : d.remove p = .ok e) : d.SameBut [p] e := by
  obtain ⟨l, hl, rfl⟩ := names_of_remove h
  exact hl.sameBut_erase

theorem sameBut_of_rename (h : d.rename p q = .ok e) : d.SameBut [p, q] e := by
  obtain ⟨bytes, -, h⟩ := bind_eq_ok_iff.mp h
  obtain ⟨b, hremove, hwrite⟩ := bind_eq_ok_iff.mp h
  have hsource : d.SameBut [p, q] b := (sameBut_of_remove hremove).mono fun s hs =>
    List.mem_singleton.mp hs ▸ List.mem_cons_self
  have htarget : b.SameBut [p, q] e := (sameBut_of_change hwrite).mono fun s hs =>
    List.mem_cons_of_mem p hs
  exact hsource.trans htarget

/-! ## Names in directories -/

/-- Where a name in a directory leads somewhere, the directory is there. -/
theorem isHome_of_locate_child (hdir : dir.text ≠ "") (hname : Path.IsName name)
    (h : d.locate (dir.child name) = .ok l) : ∃ m, d.IsHome dir m ∧ l = m.below name := by
  obtain ⟨u, -, hwalk⟩ := bind_eq_ok_iff.mp h
  rw [Path.steps_child hdir hname, origin_child hdir hname, walk_append] at hwalk
  obtain ⟨m, hm, hlast⟩ := bind_eq_ok_iff.mp hwalk
  rw [walk, List.foldlM_cons] at hlast
  obtain ⟨k, hk, hrest⟩ := bind_eq_ok_iff.mp hlast
  cases hrest
  obtain ⟨hnode, -, hnext⟩ := follow_eq_ok_iff.mp hk
  refine ⟨m, ⟨hdir, enter_eq_ok_iff.mpr ⟨hm, hnode⟩⟩, ?_⟩
  rw [← hnext, next, if_neg hname.ne_point, if_neg hname.ne_points]

namespace IsHome

/-- The path of a directory leads to it, also with a slash behind it. -/
theorem locate (h : d.IsHome dir m) (haccept : accept dir = .ok ()) : d.locate dir = .ok m := by
  obtain ⟨hwalk, hm⟩ := enter_eq_ok_iff.mp h.entered
  refine bind_eq_ok_iff.mpr ⟨(), haccept, ?_⟩
  rw [Path.steps, walk_append, hwalk]
  by_cases hslash : dir.endsInSlash
  · rw [if_pos hslash]
    have hpoint : d.follow m "." = .ok m := follow_eq_ok_iff.mpr ⟨hm, by decide, rfl⟩
    show d.walk m ["."] = .ok m
    rw [walk, List.foldlM_cons, hpoint]
    rfl
  · rw [if_neg hslash]
    rfl

end IsHome

/-- **Names in directories that lead to one place** are the same name, in directories whose paths
lead to one place. -/
theorem eq_of_locate_child {dir' : Path} {name' : String} (hdir : dir.text ≠ "")
    (hdir' : dir'.text ≠ "") (hname : Path.IsName name) (hname' : Path.IsName name')
    (h : d.locate (dir.child name) = .ok l) (h' : d.locate (dir'.child name') = .ok l) :
    name = name' ∧ d.locate dir = d.locate dir' := by
  obtain ⟨m, hm, rfl⟩ := isHome_of_locate_child hdir hname h
  obtain ⟨m', hm', hplace⟩ := isHome_of_locate_child hdir' hname' h'
  obtain ⟨hnames, hways⟩ := List.cons.inj (congrArg Place.way hplace)
  obtain rfl : m = m' := Place.ext hways
  obtain ⟨u, haccept, -⟩ := bind_eq_ok_iff.mp h
  obtain ⟨u', haccept', -⟩ := bind_eq_ok_iff.mp h'
  refine ⟨hnames, ?_⟩
  rw [hm.locate (accept_of_child hdir hname haccept),
    hm'.locate (accept_of_child hdir' hname' haccept')]

end Disk

end IndexAdvisor
