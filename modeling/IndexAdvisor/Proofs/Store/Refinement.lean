import IndexAdvisor.Proofs.Disk.Files
import IndexAdvisor.Proofs.Store.Entries
import IndexAdvisor.Store.Memory
import Mathlib.Data.List.Forall2

/-!
# Stores in files are stores in memory

A store in a file answers every request as the store in memory does, and its file is at all times
made of the lines of the entries that are in memory. `Stands f d es` is what every operation keeps:
on the disk `d` the file of `f` holds the entries `es`.
-/

set_option autoImplicit false

namespace IndexAdvisor.Store

variable {α : Type}

/-! ## Requests -/

/-- What may be asked of a store. -/
inductive Request (α : Type) where
  | insert (principal : String) (record : α)
  | list (principal : String)
  | clear (principal : String)
  | reopen

/-- What a store answers. -/
inductive Answer (α : Type) where
  | done
  | records (rs : List α)
  | removed (count : Nat)
  | failed (e : Error)

/-- The store in a file after a request, and its answer. -/
def File.step (f : File α) (d : Disk) : Request α → Answer α × Disk
  | .insert principal record =>
    match f.insert principal record d with
    | .ok d => (.done, d)
    | .error e => (.failed e, d)
  | .list principal =>
    match f.list principal d with
    | .ok rs => (.records rs, d)
    | .error e => (.failed e, d)
  | .clear principal =>
    match f.clear principal d with
    | .ok (count, d) => (.removed count, d)
    | .error e => (.failed e, d)
  | .reopen =>
    match f.prepare d with
    | (.ok (), d) => (.done, d)
    | (.error e, d) => (.failed e, d)

/-- The store in memory after a request, and its answer. -/
def Memory.step (m : Memory α) : Request α → Answer α × Memory α
  | .insert principal record =>
    match m.insert principal record with
    | .ok m => (.done, m)
    | .error e => (.failed e, m)
  | .list principal =>
    match m.list principal with
    | .ok rs => (.records rs, m)
    | .error e => (.failed e, m)
  | .clear principal =>
    match m.clear principal with
    | .ok (count, m) => (.removed count, m)
    | .error e => (.failed e, m)
  | .reopen => (.done, m)

/-- The answers to some requests in turn, each with the store behind it. -/
def trace {σ : Type} (step : σ → Request α → Answer α × σ) (s : σ) :
    List (Request α) → List (Answer α × σ)
  | [] => []
  | r :: rs => step s r :: trace step (step s r).2 rs

/-! ## Files that hold entries -/

/-- The file that takes the place of the stored one. -/
def File.aside (f : File α) : Path := f.path.withExtension "tmp"

/-- The store has been opened, and its file and the one beside it can be made. -/
structure Ready (f : File α) (d : Disk) : Prop where
  opened : ∃ b c : Disk, b.makeDirectories f.path.parent = (.ok (), c) ∧ c.Keeps d
  names : ∃ l, d.Names f.path l
  aside : ∃ k, d.Names f.aside k

/-- The file holds these entries. -/
structure Stands (f : File α) (d : Disk) (es : List (String × α)) : Prop extends Ready f d where
  content : f.content d = .ok (f.lines es)

section Stands

variable {f : File α} {d : Disk} {es : List (String × α)}

/-- Files do not matter to whether a store is ready. -/
theorem Ready.mono (h : Ready f d) {e : Disk} (hsame : d.SameDirectories e) : Ready f e where
  opened := by
    obtain ⟨b, c, hopen, hkeeps⟩ := h.opened
    exact ⟨b, c, hopen, hkeeps.trans hsame.there⟩
  names := by
    obtain ⟨l, hl⟩ := h.names
    exact ⟨l, hl.mono hsame⟩
  aside := by
    obtain ⟨k, hk⟩ := h.aside
    exact ⟨k, hk.mono hsame⟩

/-- A store that has been opened has the directory of its file. -/
theorem makeDirectories_of_prepare {e : Disk} (h : f.prepare d = (.ok (), e)) :
    d.makeDirectories f.path.parent = (.ok (), e) := by
  unfold File.prepare at h
  cases hmake : d.makeDirectories f.path.parent with
  | mk r c =>
      rw [hmake] at h
      cases r with
      | ok u =>
          cases h
          rfl
      | error fault => cases h

/-- Opening a store again changes nothing. -/
theorem Ready.prepare (h : Ready f d) : f.prepare d = (.ok (), d) := by
  obtain ⟨b, c, hopen, hkeeps⟩ := h.opened
  simp only [File.prepare, Disk.makeDirectories_again hopen hkeeps]
  rfl

/-- What is found at the place of the file is its content. -/
theorem content_of_names {l : Place} (h : d.Names f.path l) : f.content d = .ok (d.bytesAt l) := by
  rw [File.content, Disk.bytesAt]
  cases hl : d.node? l with
  | none => rw [h.readBytes_of_none hl]
  | some node =>
      cases node with
      | directory => exact absurd hl h.node_ne
      | file bytes =>
          rw [h.readBytes hl]
          rfl

/-- What is put at the place of the file is held. -/
theorem Ready.put (h : Ready f d) {l : Place} (hl : d.Names f.path l)
    (es : List (String × α)) : Stands f (d.put l (.file (f.lines es))) es where
  toReady := h.mono (Disk.sameDirectories_put_file hl.node_ne _)
  content := by
    rw [content_of_names (hl.mono (Disk.sameDirectories_put_file hl.node_ne _)),
      Disk.bytesAt_put_file d hl.ne_root]

/-- Added lines make added entries. -/
theorem Stands.append (h : Stands f d es) {l : Place} (hl : d.Names f.path l)
    (more : List (String × α)) : ∃ e, d.append f.path (f.lines more) = .ok e ∧
      Stands f e (es ++ more) ∧ d.SameOutside [l] e := by
  have hbytes : d.bytesAt l = f.lines es :=
    Except.ok.inj ((content_of_names hl).symm.trans h.content)
  refine ⟨_, hl.change _, ?_, Disk.SameOutside.put_file hl.node_ne _⟩
  rw [hbytes, ← File.lines_append]
  exact h.put hl (es ++ more)

/-- A file whose place and the one beside it are there can be replaced. -/
theorem replace_of_names {l k : Place} (hl : d.Names f.path l) (hk : d.Names f.aside k)
    (new : List UInt8) :
    f.replace new d = .ok (((d.put k (.file new)).erase k).put l (.file new)) := by
  have hput := Disk.sameDirectories_put_file hk.node_ne new
  have hwrite : d.write (f.path.withExtension "tmp") new = _ := hk.write _
  have hmoved := (hk.mono hput).rename (hl.mono hput) (d.node?_put_self _ hk.ne_root)
  simp only [File.replace, hwrite, bind, Except.bind]
  exact congrArg onDisk hmoved

/-- Replaced lines make other entries, also where the file is its own aside. -/
theorem Ready.replace (h : Ready f d) {l k : Place} (hl : d.Names f.path l)
    (hk : d.Names f.aside k) (es : List (String × α)) :
    ∃ e, f.replace (f.lines es) d = .ok e ∧ Stands f e es ∧ d.SameOutside [l, k] e := by
  have hput := Disk.SameOutside.put_file hk.node_ne (f.lines es)
  have hk' := hk.mono hput.sameDirectories
  have herase := Disk.SameOutside.erase hk'.node_ne
  have hl' := (hl.mono hput.sameDirectories).mono herase.sameDirectories
  have hends : ∀ p ∈ [l, k], d.node? p ≠ some .directory := by
    intro p hp
    rcases List.mem_cons.mp hp with rfl | hp
    · exact hl.node_ne
    · exact List.mem_singleton.mp hp ▸ hk.node_ne
  have hplace : ∀ p ∈ [k], p ∈ [l, k] := fun p hp => List.mem_cons_of_mem l hp
  have haside := (hput.mono hplace hends).trans
    (herase.mono hplace fun p hp => ((hput.mono hplace hends).ne_directory p hp).2)
  exact ⟨_, replace_of_names hl hk _,
    ((h.mono hput.sameDirectories).mono herase.sameDirectories).put hl' es,
    haside.trans ((Disk.SameOutside.put_file hl'.node_ne _).mono
      (fun p hp => List.mem_singleton.mp hp ▸ List.mem_cons_self)
      fun p hp => (haside.ne_directory p hp).2)⟩

/-! ## Operations -/

/-- Adding records adds entries. -/
theorem Stands.insertAll (h : Stands f d es) {l : Place} (hl : d.Names f.path l)
    {principal : String} (hp : checkPrincipal principal = .ok ()) (records : List α) :
    ∃ e, f.insertAll principal records d = .ok e ∧
      Stands f e (es ++ records.map fun r => (principal, r)) ∧ d.SameOutside [l] e := by
  cases records with
  | nil =>
      refine ⟨d, rfl, by rwa [List.map_nil, List.append_nil], Disk.SameOutside.refl fun p hp => ?_⟩
      rw [List.mem_singleton.mp hp]
      exact hl.node_ne
  | cons r rs =>
      obtain ⟨e, he, hstands⟩ := h.append hl ((r :: rs).map fun r => (principal, r))
      rw [File.lines, List.flatMap_map] at he
      refine ⟨e, ?_, hstands⟩
      simp only [File.insertAll, List.isEmpty_cons, Bool.false_eq_true, if_false, hp, bind,
        Except.bind]
      exact congrArg onDisk he

/-- Adding a record adds an entry. -/
theorem Stands.insert (h : Stands f d es) {l : Place} (hl : d.Names f.path l) {principal : String}
    (hp : checkPrincipal principal = .ok ()) (record : α) :
    ∃ e, f.insert principal record d = .ok e ∧ Stands f e (es ++ [(principal, record)]) ∧
      d.SameOutside [l] e := by
  rw [← f.insertAll_singleton]
  exact h.insertAll hl hp [record]

/-- Listing gives the records of the entries of the principal. -/
theorem Stands.list (h : Stands f d es) (hf : Faithful f.layout) {principal : String}
    (hp : checkPrincipal principal = .ok ()) :
    f.list principal d = .ok ((es.filter fun e => e.1 == principal).map Prod.snd) := by
  simp only [File.list, hp, h.content, File.entries_lines hf, bind, Except.bind]
  rw [List.filter_map, List.map_map]
  rfl

/-- The entries that are not kept when those of a principal are removed are as many as these. -/
theorem length_sub_length_filter_ne (es : List (String × α)) (principal : String) :
    es.length - (es.filter fun e => e.1 != principal).length =
      (es.filter fun e => e.1 == principal).length := by
  have hlength : es.length = (es.filter fun e => e.1 == principal).length +
      (es.filter fun e => e.1 != principal).length := List.length_eq_length_filter_add _
  omega

/-- Removing the records of a principal keeps the entries of the others. -/
theorem Stands.clear (h : Stands f d es) (hf : Faithful f.layout) {l k : Place}
    (hl : d.Names f.path l) (hk : d.Names f.aside k) {principal : String}
    (hp : checkPrincipal principal = .ok ()) :
    ∃ e, f.clear principal d = .ok ((es.filter fun e => e.1 == principal).length, e) ∧
      Stands f e (es.filter fun e => e.1 != principal) ∧ d.SameOutside [l, k] e := by
  have hkept := f.filter_numbered (fun owner => owner != principal) 1 es
  have hlength := congrArg List.length hkept
  have hlines := congrArg (List.flatMap sealedLine) hkept
  rw [List.length_map, List.length_map] at hlength
  rw [List.flatMap_map, List.flatMap_map] at hlines
  simp only [File.clear, hp, h.content, File.payloads_lines, File.owners_lines hf, bind,
    Except.bind, File.length_numbered, hlength, length_sub_length_filter_ne]
  -- a file from which nothing is removed is not written
  by_cases hnone : (es.filter fun e => e.1 == principal).length = 0
  · rw [if_pos hnone, hnone]
    have hall : (es.filter fun e => e.1 != principal) = es := by
      rw [List.length_eq_zero_iff, List.filter_eq_nil_iff] at hnone
      exact List.filter_eq_self.mpr fun e he => bne_iff_ne.mpr fun heq =>
        hnone e he (beq_iff_eq.mpr heq)
    refine ⟨d, rfl, by rwa [hall], Disk.SameOutside.refl fun p hp => ?_⟩
    rcases List.mem_cons.mp hp with rfl | hp
    · exact hl.node_ne
    · exact List.mem_singleton.mp hp ▸ hk.node_ne
  · rw [if_neg hnone]
    obtain ⟨e, he, hstands⟩ := h.replace hl hk (es.filter fun e => e.1 != principal)
    refine ⟨e, ?_, hstands⟩
    have hreplace := (congrArg (fun bytes => f.replace bytes d) hlines).trans he
    simp only [hreplace]

end Stands

/-! ## Runs -/

/-- A store in a file is empty as long as the file is missing. -/
theorem stands_nil {f : File α} {d : Disk} (h : Ready f d)
    (hmissing : d.readBytes f.path = .error .missing) : Stands f d [] where
  toReady := h
  content := by
    rw [File.content, hmissing]
    rfl

/-- **One request**: the answers are the same, and the file goes on holding what is in memory. A
blank name is refused, and nothing changes. -/
theorem Stands.step {f : File α} {d : Disk} {m : Memory α} (h : Stands f d m.entries)
    (hf : Faithful f.layout) (r : Request α) :
    (f.step d r).1 = (m.step r).1 ∧ Stands f (f.step d r).2 (m.step r).2.entries := by
  obtain ⟨l, hl⟩ := h.names
  obtain ⟨k, hk⟩ := h.aside
  cases r with
  | insert principal record =>
      cases hp : checkPrincipal principal with
      | error e =>
          simp only [File.step, File.insert, Memory.step, Memory.insert, hp, bind, Except.bind]
          exact ⟨trivial, h⟩
      | ok u =>
          obtain ⟨e, he, hstands, -⟩ := h.insert hl hp record
          simp only [File.step, he, Memory.step, Memory.insert, hp, bind, Except.bind]
          exact ⟨trivial, hstands⟩
  | list principal =>
      cases hp : checkPrincipal principal with
      | error e =>
          simp only [File.step, File.list, Memory.step, Memory.list, hp, bind, Except.bind]
          exact ⟨trivial, h⟩
      | ok u =>
          simp only [File.step, h.list hf hp, Memory.step, Memory.list, hp, bind, Except.bind]
          exact ⟨trivial, h⟩
  | clear principal =>
      cases hp : checkPrincipal principal with
      | error e =>
          simp only [File.step, File.clear, Memory.step, Memory.clear, hp, bind, Except.bind]
          exact ⟨trivial, h⟩
      | ok u =>
          obtain ⟨e, he, hstands, -⟩ := h.clear hf hl hk hp
          simp only [File.step, he, Memory.step, Memory.clear, hp, bind, Except.bind]
          exact ⟨trivial, hstands⟩
  | reopen =>
      simp only [File.step, h.prepare, Memory.step]
      exact ⟨trivial, h⟩

/-- **A run** from a file that holds what is in memory. -/
theorem Stands.trace {f : File α} {d : Disk} {m : Memory α} (h : Stands f d m.entries)
    (hf : Faithful f.layout) (rs : List (Request α)) :
    List.Forall₂ (fun x y => x.1 = y.1 ∧ f.content x.2 = .ok (f.lines y.2.entries))
      (trace f.step d rs) (trace Memory.step m rs) := by
  induction rs generalizing d m with
  | nil => exact List.Forall₂.nil
  | cons r rs ih =>
      obtain ⟨hanswer, hstands⟩ := h.step hf r
      exact List.Forall₂.cons ⟨hanswer, hstands.content⟩ (ih hstands)

/-- **Stores in files refine stores in memory.** On a missing file and a healthy disk, where a
store has been opened and its file and the one beside it can be written, every run of requests has
the answers that it has in memory, and after each request the file is made of the sealed lines of
the entries in memory, in order of insertion. This is so for all records that read back from their
entries, which those of the program do. -/
theorem trace_forall₂_memory :
    ((∀ now, Faithful (LoggedQuery.layout now)) ∧ Faithful AppliedIndex.layout ∧
      Faithful Json.Layout.text ∧ Faithful Json.Layout.word) ∧
    ∀ {α : Type} (f : File α), Faithful f.layout →
      ∀ d₀ d e₁ e₂ : Disk, f.prepare d₀ = (.ok (), d) →
        d.readBytes f.path = .error .missing →
        d.append f.path [] = .ok e₁ → d.write (f.path.withExtension "tmp") [] = .ok e₂ →
        ∀ rs : List (Request α),
          List.Forall₂
            (fun x y => x.1 = y.1 ∧ f.content x.2 =
              .ok (y.2.entries.flatMap fun e =>
                sealedLine ((Entry.layout f.layout).write ⟨e.1, e.2⟩)))
            (trace f.step d rs) (trace Memory.step .empty rs) := by
  refine ⟨⟨faithful_loggedQuery, faithful_appliedIndex, faithful_text, faithful_word⟩, ?_⟩
  intro α f hf d₀ d e₁ e₂ hopen hmissing hfile haside rs
  have hready : Ready f d := by
    refine ⟨⟨d₀, d, makeDirectories_of_prepare hopen, Disk.Keeps.refl d⟩, ?_, ?_⟩
    · obtain ⟨l, hl, -⟩ := Disk.names_of_change hfile
      exact ⟨l, hl⟩
    · obtain ⟨k, hk, -⟩ := Disk.names_of_change haside
      exact ⟨k, hk⟩
  exact (stands_nil hready hmissing).trace hf rs

/-- On an empty disk a store of texts answers as the one in memory does. -/
theorem trace_forall₂_memory_texts :
    let f : File String := ⟨.text, ⟨"log.jsonl"⟩⟩
    let rs : List (Request String) :=
      [.insert "ada" "one", .insert "bob" "two", .insert " " "three", .list "bob", .clear "ada",
        .reopen, .list "ada"]
    List.Forall₂
      (fun x y => x.1 = y.1 ∧ f.content x.2 =
        .ok (y.2.entries.flatMap fun e => sealedLine ((Entry.layout f.layout).write ⟨e.1, e.2⟩)))
      (trace f.step ⟨.root, []⟩ rs) (trace Memory.step .empty rs) :=
  trace_forall₂_memory.2 _ faithful_text ⟨.root, []⟩ _ _ _ rfl rfl rfl rfl _

end IndexAdvisor.Store
