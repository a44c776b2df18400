import IndexAdvisor.Proofs.Text.Lines

/-!
# What a reader of a file is told

A file is read as a whole. The first line whose checksum is wrong decides, wherever it stands; if
there is none, the first line that holds no entry does; and only if all lines are in order are the
records of the principal told. Who asks does not matter to whether a file can be read, and blank
lines do not matter but to the numbers of the lines behind them.
-/

set_option autoImplicit false

namespace IndexAdvisor.Store

open IndexAdvisor.Text

/-! ## Written lines -/

/-- The lines that are not blank with their numbers, the first of all lines having the number
`n`. -/
def writtenFrom (n : Nat) (ls : List (List Char)) : List (Nat × List Char) :=
  ((ls.zipIdx n).filter fun l => !isBlankText l.1).map Prod.swap

/-- The lines of a text that are not blank, with their numbers in the text. -/
def written (cs : List Char) : List (Nat × List Char) := writtenFrom 1 (lines cs)

theorem writtenFrom_cons_of_blank {l : List Char} (h : isBlankText l = true) (n : Nat)
    (ls : List (List Char)) : writtenFrom n (l :: ls) = writtenFrom (n + 1) ls := by
  rw [writtenFrom, List.zipIdx_cons, List.filter_cons_of_neg (by simp [h])]
  rfl

theorem writtenFrom_cons {l : List Char} (h : isBlankText l = false) (n : Nat)
    (ls : List (List Char)) : writtenFrom n (l :: ls) = (n, l) :: writtenFrom (n + 1) ls := by
  rw [writtenFrom, List.zipIdx_cons, List.filter_cons_of_pos (by simp [h])]
  rfl

/-- What a written line gives: its payload, or the news that its checksum is wrong. -/
def openLine (l : Nat × List Char) : Except Error (Nat × List Char) :=
  match opened? l.2 with
  | some payload => .ok (l.1, payload)
  | none => .error (.checksumMismatch l.1)

theorem payloadsFrom_encode (n : Nat) (ls : List (List Char)) :
    payloadsFrom n (ls.map Utf8.encode) = (writtenFrom n ls).mapM openLine := by
  induction ls generalizing n with
  | nil => rfl
  | cons l ls ih =>
      rw [List.map_cons, payloadsFrom]
      simp only [Utf8.decode?_encode]
      cases hblank : isBlankText l with
      | true => rw [if_pos rfl, ih, writtenFrom_cons_of_blank hblank]
      | false =>
          rw [if_neg Bool.false_ne_true, writtenFrom_cons hblank, List.mapM_cons, openLine, ih]
          cases opened? l with
          | none => rfl
          | some payload => rfl

/-- **The payloads of a text** are those of its written lines. -/
theorem payloads_encode (cs : List Char) :
    payloads (Utf8.encode cs) = (written cs).mapM openLine := by
  rw [payloads, byteLines_encode, payloadsFrom_encode, written]

theorem exists_eq_encode_of_payloadsFrom {n : Nat} {ls : List (List UInt8)}
    {ps : List (Nat × List Char)} (h : payloadsFrom n ls = .ok ps) :
    ∀ l ∈ ls, ∃ cs, l = Utf8.encode cs := by
  induction ls generalizing n ps with
  | nil => exact nofun
  | cons l ls ih =>
      rw [payloadsFrom] at h
      split at h
      · cases h
      · rename_i cs hcs
        -- blank or opened, the line leaves the others to be read
        have hrest : ∃ m qs, payloadsFrom m ls = .ok qs := by
          split at h
          · exact ⟨_, _, h⟩
          · split at h
            · cases h
            · obtain ⟨qs, hqs, -⟩ := bind_eq_ok_iff.mp h
              exact ⟨_, qs, hqs⟩
        obtain ⟨m, qs, hqs⟩ := hrest
        intro k hk
        rcases List.mem_cons.mp hk with rfl | hk
        · exact ⟨cs, (Utf8.encode_of_decode? hcs).symm⟩
        · exact ih hqs k hk

/-- **A file that can be read holds a text.** -/
theorem exists_eq_encode_of_payloads {bytes : List UInt8} {ps : List (Nat × List Char)}
    (h : payloads bytes = .ok ps) : ∃ cs, bytes = Utf8.encode cs :=
  exists_eq_encode (exists_eq_encode_of_payloadsFrom h)

/-! ## Verdicts -/

section Verdict

variable {α : Type}

/-- What is wrong with a line by itself: its checksum. -/
def mismatch? (l : Nat × List Char) : Option Error :=
  match opened? l.2 with
  | some _ => none
  | none => some (.checksumMismatch l.1)

/-- What is wrong with a payload: it does not write an entry. -/
def corruption? (L : Json.Layout α) (p : Nat × List Char) : Option Error :=
  match (Entry.layout L).read p.2 with
  | .ok _ => none
  | .error fault => some (.corruptRecord p.1 fault)

/-- The payloads of the lines that can be opened, with the numbers of the lines. -/
def openedLines (ls : List (Nat × List Char)) : List (Nat × List Char) :=
  ls.filterMap fun l => (opened? l.2).map fun payload => (l.1, payload)

/-- What is to be said of written lines: the first wrong checksum of all, or else the first payload
that is no entry, or else the entries. -/
def judgement (L : Json.Layout α) (ls : List (Nat × List Char)) : Except Error (List (Entry α)) :=
  match ls.findSome? mismatch? with
  | some fault => .error fault
  | none =>
    match (openedLines ls).findSome? (corruption? L) with
    | some fault => .error fault
    | none => .ok ((openedLines ls).filterMap fun p => ((Entry.layout L).read p.2).toOption)

theorem mapM_openLine (ls : List (Nat × List Char)) :
    ls.mapM openLine = (ls.findSome? mismatch?).elim (.ok (openedLines ls)) .error := by
  have hfault (l : Nat × List Char) : fault? (openLine l) = mismatch? l := by
    rw [openLine, mismatch?]
    cases opened? l.2 <;> rfl
  have hpayload (l : Nat × List Char) :
      (openLine l).toOption = (opened? l.2).map fun payload => (l.1, payload) := by
    rw [openLine]
    cases opened? l.2 <;> rfl
  rw [mapM_eq_elim]
  simp only [hfault, hpayload]
  rfl

theorem fault?_readEntry (L : Json.Layout α) (p : Nat × List Char) :
    fault? (readEntry L p) = corruption? L p := by
  rw [readEntry, corruption?]
  cases (Entry.layout L).read p.2 <;> rfl

theorem mapM_readEntry (L : Json.Layout α) (ps : List (Nat × List Char)) :
    ps.mapM (readEntry L) = (ps.findSome? (corruption? L)).elim
      (.ok (ps.filterMap fun p => ((Entry.layout L).read p.2).toOption)) .error := by
  have hentry (p : Nat × List Char) :
      (readEntry L p).toOption = ((Entry.layout L).read p.2).toOption := by
    rw [readEntry]
    cases (Entry.layout L).read p.2 <;> rfl
  rw [mapM_eq_elim]
  simp only [fault?_readEntry, hentry]

/-- **What is read of a text is the verdict on its written lines.** -/
theorem entries_encode (L : Json.Layout α) (cs : List Char) :
    entries L (Utf8.encode cs) = judgement L (written cs) := by
  rw [entries, payloads_encode, mapM_openLine, judgement]
  cases (written cs).findSome? mismatch? with
  | some fault => rfl
  | none =>
      show (openedLines (written cs)).mapM (readEntry L) = _
      rw [mapM_readEntry]
      cases (openedLines (written cs)).findSome? (corruption? L) <;> rfl

/-- What is wrong with a text is damage to a line. -/
theorem isCorruption_of_judgement {L : Json.Layout α} {ls : List (Nat × List Char)} {fault : Error}
    (h : judgement L ls = .error fault) : fault.isCorruption = true := by
  rw [judgement] at h
  split at h
  · rename_i wrong hwrong
    cases h
    obtain ⟨l, -, hl⟩ := List.exists_of_findSome?_eq_some hwrong
    rw [mismatch?] at hl
    split at hl
    · cases hl
    · cases hl
      rfl
  · split at h
    · rename_i wrong hwrong
      cases h
      obtain ⟨p, -, hp⟩ := List.exists_of_findSome?_eq_some hwrong
      rw [corruption?] at hp
      split at hp
      · cases hp
      · cases hp
        rfl
    · cases h

/-! ## Numbers of lines -/

/-- The error with another number for each line. -/
def Error.renumber (number : Nat → Nat) : Error → Error
  | .checksumMismatch n => .checksumMismatch (number n)
  | .corruptRecord n fault => .corruptRecord (number n) fault
  | fault => fault

/-- The number of a line if as many lines as `added` are put in behind the first `above` ones. -/
def shifted (above added n : Nat) : Nat := if n ≤ above then n else n + added

theorem writtenFrom_append (n : Nat) (ls ks : List (List Char)) :
    writtenFrom n (ls ++ ks) = writtenFrom n ls ++ writtenFrom (n + ls.length) ks := by
  simp only [writtenFrom, List.zipIdx_append, List.filter_append, List.map_append]

/-- Blank lines are not written lines. -/
theorem writtenFrom_of_blank {ls : List (List Char)} (h : ∀ l ∈ ls, isBlankText l = true)
    (n : Nat) : writtenFrom n ls = [] := by
  induction ls generalizing n with
  | nil => rfl
  | cons l ls ih =>
      rw [writtenFrom_cons_of_blank (h l List.mem_cons_self)]
      exact ih (fun k hk => h k (List.mem_cons_of_mem l hk)) (n + 1)

/-- Lines that are moved have other numbers. -/
theorem map_writtenFrom {number : Nat → Nat} {n m : Nat} {ls : List (List Char)}
    (h : ∀ i < ls.length, number (n + i) = m + i) :
    (writtenFrom n ls).map (Prod.map number id) = writtenFrom m ls := by
  induction ls generalizing n m with
  | nil => rfl
  | cons l ls ih =>
      have hrest := ih (n := n + 1) (m := m + 1) fun i hi => by
        have hi := h (i + 1) (Nat.succ_lt_succ hi)
        rwa [Nat.add_comm i, ← Nat.add_assoc, ← Nat.add_assoc] at hi
      cases hblank : isBlankText l with
      | true => rw [writtenFrom_cons_of_blank hblank, writtenFrom_cons_of_blank hblank, hrest]
      | false =>
          have hfirst : number n = m := h 0 (Nat.zero_lt_succ _)
          rw [writtenFrom_cons hblank, writtenFrom_cons hblank, List.map_cons, hrest,
            Prod.map_apply, hfirst, id]

/-- Where blank lines are put in, the lines behind them have other numbers. -/
theorem written_of_blank {cs cs' : List Char} {above blanks below : List (List Char)}
    (hcs : lines cs = above ++ below) (hcs' : lines cs' = above ++ blanks ++ below)
    (hblank : ∀ l ∈ blanks, isBlankText l = true) :
    written cs' = (written cs).map (Prod.map (shifted above.length blanks.length) id) := by
  -- above nothing is moved, and below every line by as many as were put in
  rw [written, written, hcs, hcs', writtenFrom_append, writtenFrom_append, writtenFrom_append,
    writtenFrom_of_blank hblank, List.append_nil, List.map_append, map_writtenFrom (m := 1),
    map_writtenFrom (m := 1 + (above ++ blanks).length)]
  · intro i hi
    rw [List.length_append, shifted, if_neg (by omega)]
    omega
  · intro i hi
    rw [shifted, if_pos (by omega)]

/-- What is wrong with lines that are moved is what was wrong with them. -/
theorem findSome?_map_renumber {number : Nat → Nat} {wrong? : Nat × List Char → Option Error}
    (h : ∀ l, wrong? (Prod.map number id l) = (wrong? l).map (Error.renumber number))
    (ls : List (Nat × List Char)) : (ls.map (Prod.map number id)).findSome? wrong? =
      (ls.findSome? wrong?).map (Error.renumber number) := by
  rw [List.findSome?_map, List.map_findSome?]
  exact congrArg (List.findSome? · ls) (funext h)

theorem mismatch?_map (number : Nat → Nat) (l : Nat × List Char) :
    mismatch? (Prod.map number id l) = (mismatch? l).map (Error.renumber number) := by
  rw [mismatch?, mismatch?, Prod.map_snd, id]
  cases opened? l.2 <;> rfl

theorem corruption?_map (L : Json.Layout α) (number : Nat → Nat) (p : Nat × List Char) :
    corruption? L (Prod.map number id p) = (corruption? L p).map (Error.renumber number) := by
  rw [corruption?, corruption?, Prod.map_snd, id]
  cases (Entry.layout L).read p.2 <;> rfl

theorem openedLines_map (number : Nat → Nat) (ls : List (Nat × List Char)) :
    openedLines (ls.map (Prod.map number id)) =
      (openedLines ls).map (Prod.map number id) := by
  rw [openedLines, openedLines, List.filterMap_map, List.map_filterMap]
  refine congrArg (List.filterMap · ls) (funext fun l => ?_)
  rw [Function.comp_apply, Prod.map_snd, id]
  cases opened? l.2 <;> rfl

/-- With other numbers for the lines the verdict is the same, but for the number that it names. -/
theorem judgement_map (L : Json.Layout α) (number : Nat → Nat) (ls : List (Nat × List Char)) :
    judgement L (ls.map (Prod.map number id)) =
      (judgement L ls).mapError (Error.renumber number) := by
  rw [judgement, judgement, findSome?_map_renumber (mismatch?_map number), openedLines_map,
    findSome?_map_renumber (corruption?_map L number), List.filterMap_map]
  cases ls.findSome? mismatch? with
  | some fault => rfl
  | none => cases (openedLines ls).findSome? (corruption? L) <;> rfl

/-! ## Reading -/

variable {f : File α} {d e : Disk} {principal : String}

/-- What is put at the place of the file is its content. -/
theorem content_put_file {l : Place} (h : d.Names f.path l) (bytes : List UInt8) :
    f.content (d.put l (.file bytes)) = .ok bytes := by
  rw [content_of_names (h.mono (Disk.sameDirectories_put_file h.node_ne bytes)),
    Disk.bytesAt_put_file d h.ne_root]

/-- A list is made of what the entries of the file hold of a principal. -/
theorem list_eq_map (hp : checkPrincipal principal = .ok ()) {bytes : List UInt8}
    (hcontent : f.content d = .ok bytes) : f.list principal d =
      (entries f.layout bytes).map fun es =>
        (es.filter fun e => e.principal == principal).map Entry.record := by
  simp only [File.list, hp, hcontent, bind, Except.bind]
  cases entries f.layout bytes <;> rfl

/-- What has been listed has been read. -/
theorem exists_entries_of_list {rs : List α} (h : f.list principal d = .ok rs) :
    ∃ bytes es, f.content d = .ok bytes ∧ entries f.layout bytes = .ok es ∧
      rs = (es.filter fun e => e.principal == principal).map Entry.record := by
  obtain ⟨u, -, h⟩ := bind_eq_ok_iff.mp h
  obtain ⟨bytes, hbytes, h⟩ := bind_eq_ok_iff.mp h
  obtain ⟨es, hes, h⟩ := bind_eq_ok_iff.mp h
  cases h
  exact ⟨bytes, es, hbytes, hes, rfl⟩

/-- A blank name is refused, whatever the file holds. -/
theorem list_of_checkPrincipal {fault : Error} (hp : checkPrincipal principal = .error fault)
    (f : File α) (d : Disk) : f.list principal d = .error fault := by
  simp only [File.list, hp, bind, Except.bind]

/-- The refusal of a name does not tell of a line. -/
theorem renumber_of_checkPrincipal {fault : Error} (hp : checkPrincipal principal = .error fault)
    (number : Nat → Nat) : fault.renumber number = fault := by
  unfold checkPrincipal at hp
  split at hp
  · cases hp
  · cases hp
    rfl

/-- A list is made of entries that have been read, or fails as they could not be. -/
theorem list_eq_error_iff (hp : checkPrincipal principal = .ok ()) {bytes : List UInt8}
    (hcontent : f.content d = .ok bytes) {fault : Error} :
    f.list principal d = .error fault ↔ entries f.layout bytes = .error fault := by
  rw [list_eq_map hp hcontent]
  cases entries f.layout bytes <;> simp [Except.map]

/-- Where blank lines are put in, the same is read, but for the numbers of lines. -/
theorem list_of_blank {cs cs' : List Char} {above blanks below : List (List Char)}
    (hcs : lines cs = above ++ below) (hcs' : lines cs' = above ++ blanks ++ below)
    (hblank : ∀ l ∈ blanks, isBlankText l = true)
    (hcontent : f.content d = .ok (Utf8.encode cs))
    (hcontent' : f.content e = .ok (Utf8.encode cs')) : f.list principal e =
      (f.list principal d).mapError (Error.renumber (shifted above.length blanks.length)) := by
  cases hp : checkPrincipal principal with
  | error fault =>
      rw [list_of_checkPrincipal hp, list_of_checkPrincipal hp, Except.mapError,
        renumber_of_checkPrincipal hp]
  | ok u =>
      rw [list_eq_map hp hcontent, list_eq_map hp hcontent', entries_encode, entries_encode,
        written_of_blank hcs hcs' hblank, judgement_map]
      cases judgement f.layout (written cs) <;> rfl

/-- **The verdict on a file is its first bad line.** A file that holds a text is listed by the
verdict on its written lines: the first wrong checksum decides, or else the first payload that is no
entry, and otherwise the records of the principal are given in order. Whether and how a list fails
does not depend on who asks. Blank lines change nothing but the numbers of the lines behind them,
wherever they are put in: between any two lines, and in particular behind any part of the text that
is ended. -/
theorem list_eq_judgement {cs : List Char} (hcontent : f.content d = .ok (Utf8.encode cs)) :
    (∀ p, checkPrincipal p = .ok () → f.list p d =
      (judgement f.layout (written cs)).map fun es =>
        (es.filter fun e => e.principal == p).map Entry.record) ∧
    (∀ p q fault, checkPrincipal p = .ok () → checkPrincipal q = .ok () →
      (f.list p d = .error fault ↔ f.list q d = .error fault)) ∧
    (∀ above blanks below cs' e, lines cs = above ++ below →
      lines cs' = above ++ blanks ++ below → (∀ l ∈ blanks, isBlankText l = true) →
      f.content e = .ok (Utf8.encode cs') → ∀ p, f.list p e =
        (f.list p d).mapError (Error.renumber (shifted above.length blanks.length))) ∧
    ∀ above blanks below e, cs = above ++ below → (∀ c ∈ above.getLast?, c = '\n') →
      isBlankText blanks = true → (∀ c ∈ blanks.getLast?, c = '\n') →
      f.content e = .ok (Utf8.encode (above ++ blanks ++ below)) → ∀ p, f.list p e =
        (f.list p d).mapError
          (Error.renumber (shifted (lines above).length (lines blanks).length)) := by
  refine ⟨fun p hp => ?_, fun p q fault hp hq => ?_, ?_, ?_⟩
  · rw [list_eq_map hp hcontent, entries_encode]
  · rw [list_eq_error_iff hp hcontent, list_eq_error_iff hq hcontent]
  · intro above blanks below cs' e hcs hcs' hblank hcontent' p
    exact list_of_blank hcs hcs' hblank hcontent hcontent'
  · intro above blanks below e hcs habove hblank hblanks hcontent' p
    have hlines : lines cs = lines above ++ lines below := by
      rw [hcs, lines_append_of_ended habove]
    have hlines' : lines (above ++ blanks ++ below) =
        lines above ++ lines blanks ++ lines below := by
      rw [List.append_assoc, lines_append_of_ended habove, lines_append_of_ended hblanks,
        List.append_assoc]
    exact list_of_blank hlines hlines' (fun l hl => isBlankText_of_mem_lines hblank hl) hcontent
      hcontent'

/-- A line that holds no entry does not count before a later one whose checksum is wrong, and a
blank line between them moves the latter. -/
theorem list_eq_judgement_mismatch :
    let f : File String := ⟨.text, ⟨"log.jsonl"⟩⟩
    let disk (cs : List Char) : Disk :=
      Disk.put ⟨.root, []⟩ (.ofNames ["log.jsonl"]) (.file (Utf8.encode cs))
    let above := sealed ['x'] ++ ['\r', '\n']
    let blanks := [' ', '\n']
    let below := ['\n', 'y']
    f.list "ada" (disk (above ++ below)) = .error (.checksumMismatch 3) ∧
      f.list "bob" (disk (above ++ below)) = .error (.checksumMismatch 3) ∧
      f.list "ada" (disk (above ++ blanks ++ below)) = .error (.checksumMismatch 4) := by
  intro f disk above blanks below
  have hnames : Disk.Names ⟨.root, []⟩ ⟨"log.jsonl"⟩ (.ofNames ["log.jsonl"]) :=
    ⟨by decide +kernel, nofun⟩
  have hcontent (cs : List Char) : f.content (disk cs) = .ok (Utf8.encode cs) :=
    content_put_file hnames _
  obtain ⟨hlist, hsame, -, hblank⟩ := list_eq_judgement (hcontent (above ++ below))
  have hada : f.list "ada" (disk (above ++ below)) = .error (.checksumMismatch 3) := by
    rw [hlist "ada" rfl]
    rfl
  refine ⟨hada, (hsame "ada" "bob" _ rfl rfl).mp hada, ?_⟩
  have hended : ∀ c ∈ above.getLast?, c = '\n' := by simp [above]
  have hblanks : ∀ c ∈ blanks.getLast?, c = '\n' := by simp [blanks]
  rw [hblank above blanks below _ rfl hended rfl hblanks (hcontent _) "ada", hada]
  rfl

end Verdict

end IndexAdvisor.Store
