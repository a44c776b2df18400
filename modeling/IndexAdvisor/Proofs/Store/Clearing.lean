import IndexAdvisor.Proofs.Disk.Siblings
import IndexAdvisor.Proofs.Json.Passage
import IndexAdvisor.Proofs.Store.Removal
import IndexAdvisor.Proofs.Store.Torn

/-!
# What clearing leaves

Removing the records of a principal writes the payloads of the others anew, each on a line of its
own and as it was. Their owners are told by a reader that does not know the form of the records, and
the one that does tells the same owners. So the others are told what they were told before, unless a
payload ends in a carriage return: on its new line that goes with the end of the line, and the
checksum is wrong then.
-/

set_option autoImplicit false

namespace IndexAdvisor.Store

open IndexAdvisor.Text

/-! ## Lines that are written anew -/

/-- A line is opened if its mark is the checksum of the rest. -/
theorem opened?_mark (r : UInt32) (payload : List Char) :
    opened? (hexDigits 8 r.toNat ++ ' ' :: payload) =
      if r = checksum (Utf8.encode payload) then some payload else none := by
  have hspace : ' ' ∉ hexDigits 8 r.toNat := notMem_hexDigits (by decide) 8 _
  simp only [opened?, splitAtFirst?_append hspace, sealNumber?_hexDigits, bind, Option.bind,
    UInt32.toNat_inj]

/-- The line of a payload as it is read. -/
theorem unreturned_sealed (payload : List Char) : unreturned (sealed payload) =
    hexDigits 8 (checksum (Utf8.encode payload)).toNat ++ ' ' :: unreturned payload := by
  rw [sealed, unreturned_append _ (List.cons_ne_nil _ _)]
  cases payload with
  | nil => rfl
  | cons c payload => rw [unreturned_cons_cons]

/-- The line of a payload begins with a digit. -/
theorem isBlankText_unreturned_sealed (payload : List Char) :
    isBlankText (unreturned (sealed payload)) = false := by
  have hdigits : ∀ d : Fin 16, isBlank (hexDigit d.val) = false := by decide
  rw [unreturned_sealed, isBlankText, List.all_eq_false]
  generalize (checksum (Utf8.encode payload)).toNat = n
  refine ⟨hexDigit (n % 16), List.mem_append_left _ (by simp [hexDigits]), ?_⟩
  rw [hdigits ⟨n % 16, Nat.mod_lt n (by decide)⟩]
  exact Bool.false_ne_true

/-- A payload of a file takes one line. -/
theorem feed_notMem_of_payloads {bytes : List UInt8} {ps : List (Nat × List Char)}
    (h : payloads bytes = .ok ps) : ∀ payload ∈ ps.map Prod.snd, '\n' ∉ payload := by
  obtain ⟨cs, rfl⟩ := exists_eq_encode_of_payloads h
  rw [payloads_encode, mapM_openLine] at h
  cases hfirst : (written cs).findSome? mismatch? with
  | some fault =>
      rw [hfirst] at h
      cases h
  | none =>
      rw [hfirst] at h
      cases h
      intro payload hmem hfeed
      obtain ⟨p, hp, rfl⟩ := List.mem_map.mp hmem
      obtain ⟨l, hl, hopened⟩ := List.mem_filterMap.mp hp
      obtain ⟨payload, hpayload, rfl⟩ := Option.map_eq_some_iff.mp hopened
      obtain ⟨mark, -, hmark⟩ := exists_mark_of_opened? hpayload
      obtain ⟨⟨line, n⟩, hline, rfl⟩ := List.mem_map.mp hl
      have hinLines := List.fst_mem_of_mem_zipIdx (List.mem_filter.mp hline).1
      -- the payload is part of a line, and lines are cut at line feeds
      have hinLine : '\n' ∈ line := by
        rw [show line = mark ++ ' ' :: payload from hmark]
        exact List.mem_append_right _ (List.mem_cons_of_mem _ hfeed)
      exact (mem_and_ne_of_mem_splitLines hinLines hinLine).2 rfl

/-- The lines of payloads as they are read, with their numbers. -/
def sealedLines (n : Nat) (ks : List (List Char)) : List (Nat × List Char) :=
  writtenFrom n (ks.map fun k => unreturned (sealed k))

/-- Payloads that take one line each are read from the lines that are written for them. -/
theorem payloads_flatMap_sealedLine {ks : List (List Char)} (h : ∀ k ∈ ks, '\n' ∉ k) :
    payloads (ks.flatMap sealedLine) = (sealedLines 1 ks).mapM openLine := by
  have hbytes : ks.flatMap sealedLine =
      Utf8.encode ((ks.map sealed).flatMap fun l => l ++ ['\n']) := by
    induction ks with
    | nil => rfl
    | cons k ks ih =>
        rw [List.flatMap_cons, ih fun l hl => h l (List.mem_cons_of_mem k hl), List.map_cons,
          List.flatMap_cons, Utf8.encode_append]
        rfl
  have hfeed : ∀ l ∈ ks.map sealed, '\n' ∉ l := by
    intro l hl hmem
    obtain ⟨k, hk, rfl⟩ := List.mem_map.mp hl
    rw [sealed, List.mem_append, List.mem_cons] at hmem
    rcases hmem with hmem | hmem | hmem
    · exact notMem_hexDigits (by decide) 8 _ hmem
    · exact absurd hmem (by decide)
    · exact h k hk hmem
  rw [hbytes, payloads_encode, written, lines_flatMap_feed hfeed, List.map_map]
  rfl

theorem sealedLines_cons (n : Nat) (k : List Char) (ks : List (List Char)) :
    sealedLines n (k :: ks) = (n, unreturned (sealed k)) :: sealedLines (n + 1) ks := by
  rw [sealedLines, List.map_cons, writtenFrom_cons (isBlankText_unreturned_sealed k), sealedLines]

/-- The checksum of a payload is right for what is read of its line. -/
def Lasting (payload : List Char) : Prop :=
  checksum (Utf8.encode payload) = checksum (Utf8.encode (unreturned payload))

instance (payload : List Char) : Decidable (Lasting payload) :=
  inferInstanceAs (Decidable (_ = _))

theorem opened?_unreturned_sealed (payload : List Char) :
    opened? (unreturned (sealed payload)) =
      if Lasting payload then some (unreturned payload) else none := by
  rw [unreturned_sealed, opened?_mark]
  rfl

/-- Lines whose checksums are right give their payloads without the returns at the ends. -/
theorem mapM_sealedLines {ks : List (List Char)} (h : ∀ k ∈ ks, Lasting k) (n : Nat) :
    ∃ qs, (sealedLines n ks).mapM openLine = .ok qs ∧ qs.map Prod.snd = ks.map unreturned := by
  induction ks generalizing n with
  | nil => exact ⟨[], rfl, rfl⟩
  | cons k ks ih =>
      obtain ⟨qs, hqs, hsnd⟩ := ih (fun l hl => h l (List.mem_cons_of_mem k hl)) (n + 1)
      refine ⟨(n, unreturned k) :: qs, ?_, by rw [List.map_cons, List.map_cons, hsnd]⟩
      rw [sealedLines_cons, List.mapM_cons, hqs, openLine, opened?_unreturned_sealed,
        if_pos (h k List.mem_cons_self)]
      rfl

/-- A line whose checksum is not right damages the file. -/
theorem exists_mismatch_of_sealedLines {ks : List (List Char)} (h : ∃ k ∈ ks, ¬Lasting k)
    (n : Nat) : ∃ line, (sealedLines n ks).mapM openLine = .error (.checksumMismatch line) := by
  induction ks generalizing n with
  | nil => exact absurd h (by simp)
  | cons k ks ih =>
      by_cases hk : Lasting k
      · have hrest : ∃ l ∈ ks, ¬Lasting l := by
          obtain ⟨l, hl, hbad⟩ := h
          rcases List.mem_cons.mp hl with rfl | hl
          · exact absurd hk hbad
          · exact ⟨l, hl, hbad⟩
        obtain ⟨line, hline⟩ := ih hrest (n + 1)
        refine ⟨line, ?_⟩
        rw [sealedLines_cons, List.mapM_cons, hline, openLine, opened?_unreturned_sealed, if_pos hk]
        rfl
      · refine ⟨n, ?_⟩
        rw [sealedLines_cons, List.mapM_cons, openLine, opened?_unreturned_sealed, if_neg hk]
        rfl

theorem unreturned_eq_iff {l : List Char} : unreturned l = l ↔ l.getLast? ≠ some '\r' := by
  rw [unreturned]
  split
  · rename_i hlast
    obtain ⟨stem, rfl⟩ := List.getLast?_eq_some_iff.mp hlast
    simp
  · rename_i hlast
    exact iff_of_true rfl hlast

/-- **Payloads are read again as they were written** exactly if none ends in a carriage return. -/
theorem exists_payloads_iff {ks : List (List Char)} (h : ∀ k ∈ ks, '\n' ∉ k) :
    (∃ qs, payloads (ks.flatMap sealedLine) = .ok qs ∧ qs.map Prod.snd = ks) ↔
      ∀ k ∈ ks, k.getLast? ≠ some '\r' := by
  rw [payloads_flatMap_sealedLine h]
  simp only [← unreturned_eq_iff]
  constructor
  · rintro ⟨qs, hqs, hsnd⟩
    -- a checksum that is not right would have damaged the file, so each line lost at most a return
    by_cases hall : ∀ k ∈ ks, Lasting k
    · obtain ⟨qs', hqs', hsnd'⟩ := mapM_sealedLines hall 1
      obtain rfl := Except.ok.inj (hqs.symm.trans hqs')
      have hsame : ks.map unreturned = ks.map id := by rw [← hsnd', hsnd, List.map_id]
      exact fun k hk => List.map_inj_left.mp hsame k hk
    · rw [not_forall] at hall
      obtain ⟨k, hk⟩ := hall
      obtain ⟨line, hline⟩ := exists_mismatch_of_sealedLines ⟨k, Classical.not_imp.mp hk⟩ 1
      rw [hline] at hqs
      cases hqs
  · intro hsame
    obtain ⟨qs, hqs, hsnd⟩ := mapM_sealedLines (fun k hk => by rw [Lasting, hsame k hk]) 1
    refine ⟨qs, hqs, ?_⟩
    rw [hsnd, List.map_congr_left hsame, List.map_id']

/-! ## Owners -/

section Owners

variable {α β : Type} {L : Json.Layout α} {M : Json.Layout β}

/-- The entry that a payload writes. -/
def entryOf? (L : Json.Layout α) (payload : List Char) : Option (Entry α) :=
  ((Entry.layout L).read payload).toOption

/-- The owner that a payload names, whatever its record is. -/
def owner? (payload : List Char) : Option String := (entryOf? .any payload).map Entry.principal

theorem entryOf?_eq_some_iff {payload : List Char} {e : Entry α} :
    entryOf? L payload = some e ↔ (Entry.layout L).read payload = .ok e := by
  rw [entryOf?]
  cases (Entry.layout L).read payload <;> simp [Except.toOption]

theorem owner?_of_read {payload : List Char} {e : Entry Json}
    (h : (Entry.layout .any).read payload = .ok e) : owner? payload = some e.principal :=
  congrArg (Option.map Entry.principal) (entryOf?_eq_some_iff.mpr h)

/-- Whoever removes records reads the owner of a line. -/
theorem readOwner_eq_ok_iff {p : Nat × List Char} {q : String} :
    (readEntry .any p).map Entry.principal = .ok q ↔ owner? p.2 = some q := by
  rw [map_eq_ok_iff, owner?, Option.map_eq_some_iff]
  simp only [readEntry_eq_ok_iff, entryOf?_eq_some_iff]

theorem exists_of_entryOf? {payload : List Char} {e : Entry α} (h : entryOf? L payload = some e) :
    ∃ v rest, (Entry.layout L).shape.read Json.maxNesting payload = .ok (v, rest) ∧
      e.principal = v.1 := by
  obtain ⟨v, hwhole, rfl⟩ := map_eq_ok_iff.mp (entryOf?_eq_some_iff.mp h)
  obtain ⟨rest, hv⟩ := Json.exists_of_readWhole hwhole
  exact ⟨v, rest, hv, rfl⟩

/-- **Whatever is expected of the record**, its owner is the same. -/
theorem principal_of_entryOf? {payload : List Char} {e : Entry α} (h : entryOf? L payload = some e)
    {q : String} (hq : owner? payload = some q) : e.principal = q := by
  obtain ⟨e', he', rfl⟩ := Option.map_eq_some_iff.mp hq
  obtain ⟨v, rest, hread, hv⟩ := exists_of_entryOf? h
  obtain ⟨v', rest', hread', hv'⟩ := exists_of_entryOf? he'
  rw [hv, hv']
  exact Json.Shape.fst_read_record hread hread'

/-- The entries of a file are those of its payloads, each of which has to write one. -/
theorem entries_eq_ok_iff_of_payloads {bytes : List UInt8} {ps : List (Nat × List Char)}
    (hps : payloads bytes = .ok ps) {es : List (Entry α)} : entries L bytes = .ok es ↔
      (∀ payload ∈ ps.map Prod.snd, (entryOf? L payload).isSome) ∧
        es = (ps.map Prod.snd).filterMap (entryOf? L) := by
  have hentries : entries L bytes = ps.mapM (readEntry L) := by
    rw [entries, hps]
    rfl
  have hcorrupt (p : Nat × List Char) : corruption? L p = none ↔ (entryOf? L p.2).isSome := by
    rw [corruption?, entryOf?]
    cases (Entry.layout L).read p.2 <;> simp [Except.toOption]
  have hnone : ps.findSome? (corruption? L) = none ↔
      ∀ payload ∈ ps.map Prod.snd, (entryOf? L payload).isSome := by
    simp only [List.findSome?_eq_none_iff, hcorrupt, List.forall_mem_map]
  rw [hentries, mapM_readEntry, ← hnone, List.filterMap_map]
  cases ps.findSome? (corruption? L) with
  | some fault => simp
  | none => simp [eq_comm, Function.comp_def, entryOf?]

/-- The payloads that do not belong to a principal. -/
def others (principal : String) (payloads : List (List Char)) : List (List Char) :=
  payloads.filter fun payload => owner? payload != some principal

/-- What is kept where the records of a principal are removed. -/
theorem others_of_owners (principal : String) {ps : List (Nat × List Char)}
    {owners : List String}
    (h : ps.mapM (fun p => (readEntry .any p).map Entry.principal) = .ok owners) :
    (∀ payload ∈ ps.map Prod.snd, (owner? payload).isSome) ∧
      (keptPayloads principal ps owners).map (fun e => e.1.2) =
        others principal (ps.map Prod.snd) := by
  induction ps generalizing owners with
  | nil =>
      cases h
      exact ⟨nofun, rfl⟩
  | cons p ps ih =>
      rw [List.mapM_cons] at h
      obtain ⟨q, hq, h⟩ := bind_eq_ok_iff.mp h
      obtain ⟨qs, hqs, h⟩ := bind_eq_ok_iff.mp h
      cases h
      obtain ⟨hsome, hothers⟩ := ih hqs
      have howner : owner? p.2 = some q := readOwner_eq_ok_iff.mp hq
      refine ⟨?_, ?_⟩
      · rw [List.map_cons, List.forall_mem_cons]
        exact ⟨by rw [howner]; rfl, hsome⟩
      · rw [keptPayloads] at hothers ⊢
        rw [others] at hothers ⊢
        rw [List.zip_cons_cons, List.map_cons, List.filter_cons, List.filter_cons, howner]
        by_cases heq : q = principal
        · simp [heq, hothers]
        · simp [heq, hothers]

/-- Payloads with owners are read by whoever removes records. -/
theorem exists_owners {ps : List (Nat × List Char)}
    (h : ∀ payload ∈ ps.map Prod.snd, (owner? payload).isSome) :
    ∃ owners, ps.mapM (fun p => (readEntry .any p).map Entry.principal) = .ok owners := by
  induction ps with
  | nil => exact ⟨[], rfl⟩
  | cons p ps ih =>
      rw [List.map_cons, List.forall_mem_cons] at h
      obtain ⟨q, hq⟩ := Option.isSome_iff_exists.mp h.1
      obtain ⟨owners, howners⟩ := ih h.2
      refine ⟨q :: owners, ?_⟩
      rw [List.mapM_cons, readOwner_eq_ok_iff.mpr hq, howners]
      rfl

/-- The entries of another principal are all kept. -/
theorem filter_entries_others {principal q : String} (hq : q ≠ principal)
    (payloads : List (List Char)) :
    ((others principal payloads).filterMap (entryOf? L)).filter (fun e => e.principal == q) =
      (payloads.filterMap (entryOf? L)).filter fun e => e.principal == q := by
  induction payloads with
  | nil => rfl
  | cons payload payloads ih =>
      rw [others] at ih ⊢
      rw [List.filter_cons, List.filterMap_cons]
      by_cases howner : owner? payload = some principal
      · -- what is left out is no entry of another principal, for both readers tell the same owner
        rw [if_neg (by simp [howner]), ih]
        cases hentry : entryOf? L payload with
        | none => rfl
        | some e =>
            have hne : e.principal ≠ q := by
              rw [principal_of_entryOf? hentry howner]
              exact Ne.symm hq
            rw [List.filter_cons_of_neg (by simpa using hne)]
      · rw [if_pos (by simpa using howner), List.filterMap_cons]
        cases entryOf? L payload with
        | none => exact ih
        | some e => simp only [List.filter_cons, ih]

end Owners

/-! ## Clearing -/

section Clear

variable {α : Type} {f : File α} {d e : Disk} {principal : String} {n : Nat}
  {old new : List UInt8} {ps qs : List (Nat × List Char)}

/-- Each payload is kept or counted. -/
theorem length_sub_length_others (payloads : List (List Char)) :
    payloads.length - (others principal payloads).length =
      (payloads.filter fun payload => owner? payload == some principal).length := by
  have hlength : payloads.length =
      (payloads.filter fun payload => owner? payload == some principal).length +
        (others principal payloads).length := List.length_eq_length_filter_add _
  omega

/-- Where the payloads of the others are read again, the others are told what they were told. -/
theorem list_of_others (hold : f.content d = .ok old) (hps : payloads old = .ok ps)
    (hnew : f.content e = .ok new) (hqs : payloads new = .ok qs)
    (hothers : qs.map Prod.snd = others principal (ps.map Prod.snd)) {q : String}
    (hq : q ≠ principal) {rs : List α} (h : f.list q d = .ok rs) : f.list q e = .ok rs := by
  have hcheck : checkPrincipal q = .ok () := by
    obtain ⟨u, hu, -⟩ := bind_eq_ok_iff.mp h
    exact hu
  obtain ⟨bytes, es, hbytes, hes, rfl⟩ := exists_entries_of_list h
  obtain rfl := Except.ok.inj (hold.symm.trans hbytes)
  obtain ⟨hall, rfl⟩ := (entries_eq_ok_iff_of_payloads hps).mp hes
  have hes' : entries f.layout new =
      .ok ((others principal (ps.map Prod.snd)).filterMap (entryOf? f.layout)) := by
    refine (entries_eq_ok_iff_of_payloads hqs).mpr ⟨?_, by rw [hothers]⟩
    rw [hothers]
    exact fun payload hpayload => hall payload (List.mem_filter.mp hpayload).1
  rw [list_eq_map hcheck hnew, hes', Except.map, filter_entries_others hq]

/-- Where nothing belongs to a principal nothing is removed. -/
theorem clear_of_others (hcheck : checkPrincipal principal = .ok ()) (hnew : f.content e = .ok new)
    (hqs : payloads new = .ok qs) (hsome : ∀ payload ∈ qs.map Prod.snd, (owner? payload).isSome)
    (hothers : others principal (qs.map Prod.snd) = qs.map Prod.snd) :
    f.clear principal e = .ok (0, e) := by
  obtain ⟨owners, howners⟩ := exists_owners hsome
  have hlength := congrArg List.length (others_of_owners principal howners).2
  rw [hothers, List.length_map, List.length_map] at hlength
  have hnone : qs.length - (keptPayloads principal qs owners).length = 0 := by omega
  simp only [File.clear, hcheck, hnew, hqs, howners, bind, Except.bind]
  rw [← keptPayloads, if_pos hnone]

/-- Where a file is damaged nobody is told anything, and nothing is removed. -/
theorem damaged_of_payloads (hnew : f.content e = .ok new) {fault : Error}
    (h : payloads new = .error fault) {q : String} (hcheck : checkPrincipal q = .ok ()) :
    f.list q e = .error fault ∧ f.clear q e = .error fault := by
  constructor
  · rw [list_eq_map hcheck hnew, entries, h]
    rfl
  · simp only [File.clear, hcheck, hnew, h, bind, Except.bind]

/-- A file that has been replaced holds what is new, and nothing is left beside it, unless its
path has the extension of the file beside it already. -/
theorem content_of_replace (h : f.replace new d = .ok e)
    (hpath : ¬".tmp".toList <:+ f.path.text.toList) :
    f.content e = .ok new ∧ e.isPresent f.aside = false := by
  obtain ⟨l, k, hl, hk, rfl, hsame⟩ := names_of_replace h
  have hne : k ≠ l := (hl.ne_of_withExtension hk (by decide) hpath).symm
  refine ⟨?_, ?_⟩
  · rw [content_of_names (hl.mono hsame), Disk.bytesAt_put_file _ hl.ne_root]
  · rw [Disk.isPresent, (hk.mono hsame).locate]
    simp only [Disk.node?_put_of_ne _ _ hne, Disk.node?_erase_self _ hk.ne_root, Option.isSome_none]

theorem step_clear_eq {answer : Answer α} (h : f.step d (.clear principal) = (answer, e)) :
    (∃ fault, answer = .failed fault ∧ e = d) ∨
      ∃ n, answer = .removed n ∧ f.clear principal d = .ok (n, e) := by
  simp only [File.step] at h
  split at h
  · rename_i n d' hclear
    cases h
    exact Or.inr ⟨n, rfl, hclear⟩
  · rename_i fault hclear
    cases h
    exact Or.inl ⟨fault, rfl, rfl⟩

/-- **Clearing removes the records of one principal**, and does so as a whole. If it fails or finds
nothing, nothing is changed. Otherwise each payload of the file has an owner; those of the principal
are counted, and the new file has the lines of the others, in order and as they were, with nothing
left beside it. They are read again as they were exactly if none of them ends in a carriage return;
then everyone else is told what they were told before, and clearing again finds nothing. If one
does, and its checksum is not by chance that of the payload without it, the file is damaged for
everyone. -/
theorem step_clear {answer : Answer α} (hpath : ¬".tmp".toList <:+ f.path.text.toList)
    (h : f.step d (.clear principal) = (answer, e)) :
    (∀ fault, answer = .failed fault → e = d) ∧ (answer = .removed 0 → e = d) ∧
    ∀ n, answer = .removed n → n ≠ 0 → ∃ old ps kept,
      f.content d = .ok old ∧ payloads old = .ok ps ∧ kept = others principal (ps.map Prod.snd) ∧
      (∀ payload ∈ ps.map Prod.snd, ∃ q, owner? payload = some q) ∧
      n = ((ps.map Prod.snd).filter fun payload => owner? payload == some principal).length ∧
      f.content e = .ok (kept.flatMap sealedLine) ∧ e.isPresent f.aside = false ∧
      ((∃ qs, payloads (kept.flatMap sealedLine) = .ok qs ∧ qs.map Prod.snd = kept) ↔
        ∀ payload ∈ kept, payload.getLast? ≠ some '\r') ∧
      ((∀ payload ∈ kept, payload.getLast? ≠ some '\r') →
        (∀ q, q ≠ principal → ∀ rs, f.list q d = .ok rs → f.list q e = .ok rs) ∧
          f.step e (.clear principal) = (.removed 0, e)) ∧
      ((∃ payload ∈ kept, ¬Lasting payload) → ∃ line, ∀ q, checkPrincipal q = .ok () →
        f.list q e = .error (.checksumMismatch line) ∧
          f.step e (.clear q) = (.failed (.checksumMismatch line), e)) := by
  rcases step_clear_eq h with ⟨fault, rfl, rfl⟩ | ⟨m, rfl, hclear⟩
  · exact ⟨fun _ _ => rfl, nofun, nofun⟩
  refine ⟨nofun, fun hm => ?_, fun n hn hne => ?_⟩
  · cases hm
    exact eq_of_clear_zero hclear
  cases hn
  obtain ⟨u, hcheck, -⟩ := bind_eq_ok_iff.mp hclear
  obtain ⟨old, ps, owners, hold, hps, howners, hcount, -, hreplace⟩ := clear_eq_ok hclear
  obtain ⟨hsome, hkept⟩ := others_of_owners principal howners
  obtain ⟨hnew, haside⟩ := content_of_replace (hreplace hne) hpath
  have hlines : ((keptPayloads principal ps owners).flatMap fun e => sealedLine e.1.2) =
      (others principal (ps.map Prod.snd)).flatMap sealedLine := by
    rw [← hkept, List.flatMap_map]
  rw [hlines] at hnew
  -- each payload has been read of one line, and so takes one line again
  have hfeed : ∀ payload ∈ others principal (ps.map Prod.snd), '\n' ∉ payload := fun payload hp =>
    feed_notMem_of_payloads hps payload (List.mem_filter.mp hp).1
  have hagain := exists_payloads_iff hfeed
  refine ⟨old, ps, _, hold, hps, rfl,
    fun payload hp => Option.isSome_iff_exists.mp (hsome payload hp), ?count, hnew, haside, hagain,
    fun hlast => ?kept, fun hbad => ?damaged⟩
  case count =>
    have hlength := congrArg List.length hkept
    rw [List.length_map] at hlength
    rw [hcount, hlength, ← length_sub_length_others, List.length_map]
  case kept =>
    obtain ⟨qs, hqs, hsnd⟩ := hagain.mpr hlast
    refine ⟨fun q hq rs hlist => list_of_others hold hps hnew hqs hsnd hq hlist, ?_⟩
    have hzero : f.clear principal e = .ok (0, e) := by
      refine clear_of_others hcheck hnew hqs ?_ ?_
      · rw [hsnd]
        exact fun payload hp => hsome payload (List.mem_filter.mp hp).1
      · rw [hsnd, others, others, List.filter_filter]
        simp only [Bool.and_self]
    simp only [File.step, hzero]
  case damaged =>
    obtain ⟨line, hline⟩ := exists_mismatch_of_sealedLines hbad 1
    rw [← payloads_flatMap_sealedLine hfeed] at hline
    refine ⟨line, fun q hq => ?_⟩
    obtain ⟨hlist, hfails⟩ := damaged_of_payloads hnew hline hq
    exact ⟨hlist, by simp only [File.step, hfails]⟩

end Clear

/-! ## Two owners -/

/-- Ada's text is removed and Bob's is kept. -/
theorem step_clear_two :
    let before := textLog.line "ada" "x" ++ textLog.line "bob" "y"
    let after := logOf (textLog.line "bob" "y")
    textLog.step (logOf before) (.clear "ada") = (.removed 1, after) ∧
      textLog.list "bob" after = .ok ["y"] ∧
        textLog.step after (.clear "ada") = (.removed 0, after) := by
  intro before after
  have hclear : textLog.clear "ada" (logOf before) = .ok (1, after) := by decide +kernel
  have hstep : textLog.step (logOf before) (.clear "ada") = (.removed 1, after) := by
    simp only [File.step, hclear]
  have hcontent : textLog.content (logOf before) = .ok before := by decide +kernel
  have hpayloads : payloads before =
      .ok [(1, textLog.payload ("ada", "x")), (2, textLog.payload ("bob", "y"))] := by
    decide +kernel
  have hlist : textLog.list "bob" (logOf before) = .ok ["y"] := by decide +kernel
  obtain ⟨old, ps, kept, hold, hps, hkept, -, -, -, -, -, hspared, -⟩ :=
    (step_clear (by decide) hstep).2.2 1 rfl (by decide)
  rw [Except.ok.inj (hold.symm.trans hcontent), hpayloads] at hps
  have hbob : kept = [textLog.payload ("bob", "y")] := by
    rw [hkept, ← Except.ok.inj hps]
    decide +kernel
  obtain ⟨hothers, hagain⟩ := hspared (by rw [hbob]; decide +kernel)
  exact ⟨hstep, hothers "bob" (by decide) _ hlist, hagain⟩

/-- **A payload that ends in a carriage return** is kept, but cannot be read any more. -/
theorem step_clear_return :
    let before := textLog.line "ada" "x" ++
      Utf8.encode (sealed (textLog.payload ("bob", "x") ++ ['\r']))
    textLog.list "bob" (logOf before) = .ok ["x"] ∧
      ∃ e, textLog.step (logOf before) (.clear "ada") = (.removed 1, e) ∧
        textLog.list "bob" e = .error (.checksumMismatch 1) ∧
          textLog.step e (.clear "ada") = (.failed (.checksumMismatch 1), e) := by
  intro before
  let after := logOf (Utf8.encode (sealed (textLog.payload ("bob", "x") ++ ['\r']) ++ ['\n']))
  have hclear : textLog.clear "ada" (logOf before) = .ok (1, after) := by decide +kernel
  have hagain : textLog.clear "ada" after = .error (.checksumMismatch 1) := by decide +kernel
  refine ⟨by decide +kernel, after, ?_, by decide +kernel, ?_⟩
  · simp only [File.step, hclear]
  · simp only [File.step, hagain]

end IndexAdvisor.Store
