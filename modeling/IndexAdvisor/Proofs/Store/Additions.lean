import IndexAdvisor.Proofs.Store.Torn

/-!
# Adding several records

Records that are added at once stand in lines behind what the file held. If the file was ended they
are all listed behind the others of their principal, in order. If it was not, already the first of
their lines goes on with the last one, and the file is damaged.
-/

set_option autoImplicit false

namespace IndexAdvisor.Store

open IndexAdvisor.Text

variable {α : Type} {f : File α} {d e : Disk} {principal : String} {records : List α}
variable {bytes : List UInt8} {es : List (Entry α)}

/-- Records that have been added have their lines behind what the file held. -/
theorem names_of_insertAll (hne : records ≠ []) (h : f.insertAll principal records d = .ok e) :
    checkPrincipal principal = .ok () ∧ ∃ l, d.Names f.path l ∧
      e = d.put l (.file (d.bytesAt l ++ records.flatMap (f.line principal))) := by
  have hsome : records.isEmpty = false := List.isEmpty_eq_false_iff.mpr hne
  simp only [File.insertAll, hsome, Bool.false_eq_true, if_false] at h
  obtain ⟨u, hp, happend⟩ := bind_eq_ok_iff.mp h
  exact ⟨hp, Disk.names_of_change (onDisk_eq_ok_iff.mp happend)⟩

/-- **Behind an ended line** every added line is a line of its own. -/
theorem entries_append_lines (hf : Faithful f.layout) (hes : entries f.layout bytes = .ok es)
    (hended : Ended bytes) (principal : String) (records : List α) :
    entries f.layout (bytes ++ records.flatMap (f.line principal)) =
      .ok (es ++ records.map (Entry.mk principal)) := by
  induction records generalizing bytes es with
  | nil => rwa [List.flatMap_nil, List.append_nil, List.map_nil, List.append_nil]
  | cons record records ih =>
      have hfirst := (entries_append_line_iff hf hes principal record).mpr hended
      have hrest := ih hfirst (ended_append_sealedLine bytes _)
      rwa [List.append_assoc, List.append_assoc] at hrest

theorem plain_of_mem_payloads (principal : String) (records : List α) :
    ∀ p ∈ records.map fun r => (Entry.layout f.layout).write ⟨principal, r⟩, Plain p := by
  intro p hp
  obtain ⟨r, -, rfl⟩ := List.mem_map.mp hp
  exact plain_payload principal r

theorem flatMap_line (principal : String) (records : List α) :
    records.flatMap (f.line principal) =
      (records.map fun r => (Entry.layout f.layout).write ⟨principal, r⟩).flatMap sealedLine := by
  rw [List.flatMap_map]
  rfl

/-- **Where the last line is not ended** nothing is read behind the added lines: a line is
damaged. -/
theorem exists_corruption_of_lines (hes : entries f.layout bytes = .ok es) (h : ¬Ended bytes)
    (principal : String) (hne : records ≠ []) : ∃ fault, fault.isCorruption = true ∧
      entries f.layout (bytes ++ records.flatMap (f.line principal)) = .error fault := by
  obtain ⟨record, records, rfl⟩ := List.exists_cons_of_ne_nil hne
  have hfirst := plain_payload (f := f) principal record
  cases hmore : entries f.layout (bytes ++ (record :: records).flatMap (f.line principal)) with
  | ok es' =>
      -- the first line ends the file, so what it leaves could be read as well
      rw [List.flatMap_cons, flatMap_line, ← List.append_assoc] at hmore
      obtain ⟨es₁, hes₁, -⟩ :=
        exists_entries_of_ended (ended_append_sealedLine bytes _)
          (plain_of_mem_payloads principal records) hmore
      exact absurd (ended_of_entries_append hfirst hes hes₁) h
  | error fault =>
      obtain ⟨ps, hps, -⟩ := entries_eq_ok_iff.mp hes
      obtain ⟨cs, rfl⟩ := exists_eq_encode_of_payloads hps
      have htext : (record :: records).flatMap (f.line principal) = Utf8.encode
          ((record :: records).flatMap fun r =>
            sealed ((Entry.layout f.layout).write ⟨principal, r⟩) ++ ['\n']) := by
        induction record :: records with
        | nil => rfl
        | cons r rs ih =>
            rw [List.flatMap_cons, List.flatMap_cons, Utf8.encode_append, ih]
            rfl
      rw [htext, ← Utf8.encode_append, entries_encode] at hmore
      exact ⟨fault, isCorruption_of_judgement hmore, rfl⟩

/-- **Several records are listed** behind those that a principal could list, if the file was ended.
Otherwise, if there are any, the file is damaged. -/
theorem list_insertAll (hf : Faithful f.layout) {rs : List α}
    (hlist : f.list principal d = .ok rs) (hne : records ≠ [])
    (hinsert : f.insertAll principal records d = .ok e) :
    ∃ bytes, f.content d = .ok bytes ∧
      (Ended bytes → f.list principal e = .ok (rs ++ records)) ∧
      (¬Ended bytes → ∃ fault, fault.isCorruption = true ∧ f.list principal e = .error fault) := by
  obtain ⟨hp, l, hl, rfl⟩ := names_of_insertAll hne hinsert
  obtain ⟨bytes, es, hbytes, hes, rfl⟩ := exists_entries_of_list hlist
  obtain rfl : d.bytesAt l = bytes := Except.ok.inj ((content_of_names hl).symm.trans hbytes)
  have hcontent := content_put_file hl (d.bytesAt l ++ records.flatMap (f.line principal))
  refine ⟨_, hbytes, fun hended => ?_, fun hended => ?_⟩
  · rw [list_eq_map hp hcontent, entries_append_lines hf hes hended]
    simp [Except.map, List.filter_map, Function.comp_def]
  · obtain ⟨fault, hfault, hmore⟩ := exists_corruption_of_lines hes hended principal hne
    exact ⟨fault, hfault, (list_eq_error_iff hp hcontent).mpr hmore⟩

end IndexAdvisor.Store
