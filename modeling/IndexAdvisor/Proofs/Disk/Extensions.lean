import IndexAdvisor.Proofs.Disk.Footprints

/-!
# Files that are added to

What is added to a file stands behind what the file held, and nothing else changes. Two additions in
a row are one, of the one piece behind the other.
-/

set_option autoImplicit false

namespace IndexAdvisor.Disk

variable {d e : Disk} {p : Path} {added more : List UInt8}

/-! ## Additions in a row -/

/-- What is put at a place counts, not what was put there before. -/
theorem put_put (d : Disk) (l : Place) (n m : Node) : (d.put l n).put l m = d.put l m := by
  simp [put]

/-- Whether a file can be changed does not depend on how it is to be. -/
theorem change_eq_error {f g : List UInt8 → List UInt8} {fault : Fault}
    (h : d.change p f = .error fault) : d.change p g = .error fault := by
  rw [change] at h ⊢
  cases hl : d.locateNamed p p.bareName? .isDirectory with
  | error other =>
      rw [hl] at h
      exact h
  | ok l =>
      rw [hl] at h
      simp only [bind, Except.bind] at h ⊢
      split at h <;> cases h
      rfl

/-- **Two additions in a row are one.** -/
theorem append_append (d : Disk) (p : Path) (added more : List UInt8) :
    (d.append p added >>= fun e => e.append p more) = d.append p (added ++ more) := by
  cases h : d.append p added with
  | error fault => exact (change_eq_error h).symm
  | ok e =>
      obtain ⟨l, hl, rfl⟩ := names_of_change h
      have hput := sameDirectories_put_file hl.node_ne (d.bytesAt l ++ added)
      have hagain := (hl.mono hput).change (· ++ more)
      rw [bytesAt_put_file d hl.ne_root, put_put, List.append_assoc] at hagain
      exact hagain.trans (hl.change (· ++ (added ++ more))).symm

/-! ## Extensions -/

/-- The file of the path holds what it held, and behind it what is added. If that is not empty,
there is such a file. -/
structure Extends (d e : Disk) (p : Path) (added : List UInt8) : Prop where
  bytesAt : ∀ {l}, e.locate p = .ok l → e.bytesAt l = d.bytesAt l ++ added
  located : added ≠ [] → ∃ l, e.locate p = .ok l

/-- The content of a place is told by which file is there. -/
theorem bytesAt_of_file_iff {l : Place}
    (h : ∀ bytes, e.node? l = some (.file bytes) ↔ d.node? l = some (.file bytes)) :
    e.bytesAt l = d.bytesAt l := by
  rw [Disk.bytesAt, Disk.bytesAt]
  cases he : e.node? l with
  | none =>
      cases hd : d.node? l with
      | none => rfl
      | some n =>
          cases n with
          | directory => rfl
          | file bytes => exact absurd ((h bytes).mpr hd) (by simp [he])
  | some n =>
      cases n with
      | file bytes => rw [(h bytes).mp he]
      | directory =>
          cases hd : d.node? l with
          | none => rfl
          | some m =>
              cases m with
              | directory => rfl
              | file bytes => exact absurd ((h bytes).mpr hd) (by simp [he])

namespace Extends

/-- A file that is kept is extended by nothing. -/
theorem of_file_iff (h : ∀ l, e.locate p = .ok l →
    ∀ bytes, e.node? l = some (.file bytes) ↔ d.node? l = some (.file bytes)) :
    d.Extends e p [] where
  bytesAt hl := by rw [bytesAt_of_file_iff (h _ hl), List.append_nil]
  located hne := absurd rfl hne

theorem of_sameFiles (h : d.SameFiles e) (p : Path) : d.Extends e p [] :=
  of_file_iff fun _ _ _ => h.file_iff

/-- Files that are kept do not matter before an extension. -/
theorem after_sameFiles {c : Disk} (h : c.SameFiles d) (k : d.Extends e p added) :
    c.Extends e p added where
  bytesAt hl := by rw [k.bytesAt hl, bytesAt_of_file_iff fun _ => h.file_iff]
  located := k.located

/-- Extensions in a row are one, if the path led somewhere between them: it still leads there. -/
theorem trans {c : Disk} (h : c.Extends d p added) (k : d.Extends e p more) (hkeeps : d.Keeps e)
    {l : Place} (hl : d.locate p = .ok l) : c.Extends e p (added ++ more) where
  bytesAt {m} hm := by
    obtain rfl : m = l := Except.ok.inj (hm.symm.trans (hkeeps.locate hl))
    rw [k.bytesAt hm, h.bytesAt hl, List.append_assoc]
  located _ := ⟨l, hkeeps.locate hl⟩

end Extends

/-- An addition that has been made extends the file, whose path leads to its place. -/
theorem extends_of_append (h : d.append p added = .ok e) :
    d.Extends e p added ∧ d.Keeps e ∧ ∃ l, e.locate p = .ok l := by
  obtain ⟨l, hl, rfl⟩ := names_of_change h
  have hput := sameDirectories_put_file hl.node_ne (d.bytesAt l ++ added)
  have hlocate := (hl.mono hput).locate
  refine ⟨⟨fun {m} hm => ?_, fun _ => ⟨l, hlocate⟩⟩, hput.there, l, hlocate⟩
  obtain rfl : m = l := Except.ok.inj (hm.symm.trans hlocate)
  rw [bytesAt_put_file d hl.ne_root]

end IndexAdvisor.Disk
