import IndexAdvisor.Proofs.Store.Growth
import IndexAdvisor.Proofs.Store.Verdict

/-!
# Adding to a file that can be listed

A record that is added to a file that could be listed is listed behind the others of its principal,
and nobody else is told anything new, exactly if the last line of the file was ended. Otherwise the
added line goes on with the last one, and from then on nobody can list the file.
-/

set_option autoImplicit false

namespace IndexAdvisor.Store

open IndexAdvisor.Text

variable {α : Type} {f : File α} {d e : Disk} {principal : String} {record : α}

/-- A record that has been added has its line behind what the file held. -/
theorem content_of_insert (h : f.insert principal record d = .ok e) :
    checkPrincipal principal = .ok () ∧ ∃ bytes, f.content d = .ok bytes ∧
      f.content e = .ok (bytes ++ f.line principal record) := by
  obtain ⟨u, hp, happend⟩ := bind_eq_ok_iff.mp h
  obtain ⟨l, hl, rfl⟩ := Disk.names_of_change (onDisk_eq_ok_iff.mp happend)
  exact ⟨hp, _, content_of_names hl, content_put_file hl _⟩

/-- **Where the last line is not ended** nothing is read any more: a line is damaged. -/
theorem exists_corruption_of_not_ended {L : Json.Layout α} {bytes : List UInt8}
    {payload : List Char} {es : List (Entry α)} (hplain : Plain payload)
    (hes : entries L bytes = .ok es) (h : ¬Ended bytes) :
    ∃ fault, fault.isCorruption = true ∧
      entries L (bytes ++ sealedLine payload) = .error fault := by
  obtain ⟨ps, hps, -⟩ := entries_eq_ok_iff.mp hes
  obtain ⟨cs, rfl⟩ := exists_eq_encode_of_payloads hps
  cases hmore : entries L (Utf8.encode cs ++ sealedLine payload) with
  | ok es' => exact absurd (ended_of_entries_append hplain hes hmore) h
  | error fault =>
      rw [sealedLine, ← Utf8.encode_append, entries_encode] at hmore
      exact ⟨fault, isCorruption_of_judgement hmore, rfl⟩

/-- An entry of a principal is listed behind the others of the principal, and not for others. -/
theorem list_of_entries_append {bytes more : List UInt8} {es : List (Entry α)}
    (hcontent : f.content d = .ok bytes) (hes : entries f.layout bytes = .ok es)
    (hcontent' : f.content e = .ok more)
    (hes' : entries f.layout more = .ok (es ++ [⟨principal, record⟩])) (q : String) :
    f.list q e = (f.list q d).map fun rs => if q = principal then rs ++ [record] else rs := by
  cases hq : checkPrincipal q with
  | error fault =>
      rw [list_of_checkPrincipal hq, list_of_checkPrincipal hq]
      rfl
  | ok u =>
      rw [list_eq_map hq hcontent, list_eq_map hq hcontent', hes, hes']
      simp only [Except.map, List.filter_append, List.map_append]
      by_cases heq : q = principal
      · simp [heq]
      · simp [heq, Ne.symm heq]

/-- **An insertion makes itself listed, and nothing else, exactly if the file was ended.** In a file
that a principal could list, a record that has been added for the principal is listed behind those
that were, and every other principal is told what it was told before, if and only if the file was
empty or its last line was ended. If it was not, the file is damaged for everyone from then on. This
is so for all records that read back from their entries, which those of the program do. -/
theorem list_insert_iff_ended (hf : Faithful f.layout) {rs : List α}
    (hlist : f.list principal d = .ok rs) (hinsert : f.insert principal record d = .ok e) :
    ((∀ now, Faithful (LoggedQuery.layout now)) ∧ Faithful AppliedIndex.layout ∧
      Faithful Json.Layout.text ∧ Faithful Json.Layout.word) ∧
    ∃ bytes, f.content d = .ok bytes ∧
      ((f.list principal e = .ok (rs ++ [record]) ∧
          ∀ q, q ≠ principal → f.list q e = f.list q d) ↔ Ended bytes) ∧
      (¬Ended bytes → ∃ fault, fault.isCorruption = true ∧
        ∀ q, checkPrincipal q = .ok () → f.list q e = .error fault) := by
  refine ⟨⟨faithful_loggedQuery, faithful_appliedIndex, faithful_text, faithful_word⟩, ?_⟩
  obtain ⟨hp, bytes, hbytes, hcontent⟩ := content_of_insert hinsert
  obtain ⟨bytes', es, hbytes', hes, rfl⟩ := exists_entries_of_list hlist
  obtain rfl := Except.ok.inj (hbytes.symm.trans hbytes')
  have hdamaged : ¬Ended bytes → ∃ fault, fault.isCorruption = true ∧
      ∀ q, checkPrincipal q = .ok () → f.list q e = .error fault := by
    intro hended
    obtain ⟨fault, hfault, hmore⟩ :=
      exists_corruption_of_not_ended (plain_payload principal record) hes hended
    exact ⟨fault, hfault, fun q hq => (list_eq_error_iff hq hcontent).mpr hmore⟩
  refine ⟨bytes, hbytes, ⟨fun hlisted => ?_, fun hended => ?_⟩, hdamaged⟩
  · by_contra hended
    obtain ⟨fault, -, hfails⟩ := hdamaged hended
    have hnone := hlisted.1
    rw [hfails principal hp] at hnone
    cases hnone
  · have hes' := (entries_append_line_iff hf hes principal record).mpr hended
    have hafter := list_of_entries_append hbytes hes hcontent hes'
    refine ⟨?_, fun q hq => ?_⟩
    · rw [hafter principal, hlist]
      simp [Except.map]
    · rw [hafter q]
      cases f.list q d <;> simp [Except.map, hq]

/-- A log of texts. -/
def textLog : File String := ⟨.text, ⟨"log.jsonl"⟩⟩

/-- A disk with nothing but a log. -/
def logOf (bytes : List UInt8) : Disk := ⟨.root, [(.ofNames ["log.jsonl"], .file bytes)]⟩

/-- The line of a text of Ada, and how it ends. -/
def oneText (ending : List Char) : List UInt8 :=
  Utf8.encode (sealed (textLog.payload ("ada", "x")) ++ ending)

/-- Behind a blank line that is ended a text is listed. -/
theorem list_insert_iff_ended_blank :
    let before := oneText ['\r', '\n', ' ', '\n']
    let after := before ++ textLog.line "ada" "y"
    textLog.list "ada" (logOf after) = .ok ["x", "y"] ∧
      textLog.list "bob" (logOf after) = textLog.list "bob" (logOf before) := by
  intro before after
  have hlist : textLog.list "ada" (logOf before) = .ok ["x"] := by decide +kernel
  have hinsert : textLog.insert "ada" "y" (logOf before) = .ok (logOf after) := by decide +kernel
  have hcontent : textLog.content (logOf before) = .ok before := by decide +kernel
  have hended : Ended before := by decide +kernel
  obtain ⟨-, bytes, hbytes, hiff, -⟩ := list_insert_iff_ended faithful_text hlist hinsert
  obtain rfl := Except.ok.inj (hcontent.symm.trans hbytes)
  exact ⟨(hiff.mpr hended).1, (hiff.mpr hended).2 "bob" (by decide)⟩

section Lost

-- the checksum of both lines together is computed octet by octet
set_option maxRecDepth 2000

/-- **A last line without its end** is lost together with the text that is added behind it. -/
theorem list_insert_torn : textLog.list "ada" (logOf (oneText [])) = .ok ["x"] ∧
    ∃ e, textLog.insert "ada" "y" (logOf (oneText [])) = .ok e ∧
      textLog.list "ada" e = .error (.checksumMismatch 1) :=
  ⟨by decide +kernel, logOf (oneText [] ++ textLog.line "ada" "y"), by decide +kernel,
    by decide +kernel⟩

end Lost

end IndexAdvisor.Store
