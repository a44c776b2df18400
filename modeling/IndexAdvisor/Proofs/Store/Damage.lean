import IndexAdvisor.Proofs.Store.Checksum
import IndexAdvisor.Proofs.Store.Clearing
import IndexAdvisor.Proofs.Store.Marks

/-!
# Files with a damaged line

A line of a file that can be read is blank, or what stands behind its mark has the checksum that the
mark says. Damage to a payload within four octets gives it another checksum, so the file cannot be
read any more, unless the damage puts a line end into the payload and what stands before that
happens to have the old checksum.
-/

set_option autoImplicit false

namespace IndexAdvisor.Store

open IndexAdvisor.Text

/-! ## Pieces of files that can be read -/

section Pieces

variable {before piece after : List UInt8} {ps : List (Nat × List Char)}

theorem mem_of_payloadsFrom_cons {n : Nat} {line : List UInt8} {lines : List (List UInt8)}
    (h : payloadsFrom n (line :: lines) = .ok ps) : ∃ cs, line = Utf8.encode cs ∧
      (isBlankText cs = true ∨
        ∃ payload, opened? cs = some payload ∧ payload ∈ ps.map Prod.snd) := by
  rw [payloadsFrom] at h
  split at h
  · cases h
  · rename_i cs hcs
    refine ⟨cs, (Utf8.encode_of_decode? hcs).symm, ?_⟩
    split at h
    · rename_i hblank
      exact Or.inl hblank
    · split at h
      · cases h
      · rename_i payload hopened
        obtain ⟨more, -, heq⟩ := bind_eq_ok_iff.mp h
        cases heq
        exact Or.inr ⟨payload, hopened, List.mem_cons_self⟩

/-- **A piece of a file that can be read** is blank or opened, as far as it does not break off. -/
theorem exists_of_payloads (hbefore : Ended before) (hafter : EndsLine after) (hne : piece ≠ [])
    (h : payloads (before ++ (piece ++ after)) = .ok ps) : ∃ cs,
      (Utf8.encode cs = piece ∨ BreaksOff (Utf8.encode cs) piece after) ∧
      (isBlankText cs = true ∨
        ∃ payload, opened? cs = some payload ∧ payload ∈ ps.map Prod.snd) := by
  rw [payloads, byteLines_append_of_ended hbefore, payloadsFrom_append] at h
  obtain ⟨front, -, h⟩ := bind_eq_ok_iff.mp h
  obtain ⟨back, hback, h⟩ := bind_eq_ok_iff.mp h
  cases h
  have hfirst := headD_byteLines hafter piece
  cases hlines : byteLines (piece ++ after) with
  | nil =>
      have hnone := splitLines_eq_nil_iff.mp hlines
      have hlast : (dropReturns 13 10 (piece ++ after)).getLast? = (piece ++ after).getLast? :=
        getLast?_dropReturns _
      rw [hnone, eq_comm] at hlast
      exact absurd (List.append_eq_nil_iff.mp (List.getLast?_eq_none_iff.mp hlast)).1 hne
  | cons line lines =>
      rw [hlines] at hfirst hback
      obtain ⟨cs, rfl, hcs⟩ := mem_of_payloadsFrom_cons hback
      refine ⟨cs, hfirst, hcs.imp_right ?_⟩
      rintro ⟨payload, hopened, hmem⟩
      exact ⟨payload, hopened, by rw [List.map_append]; exact List.mem_append_right _ hmem⟩

end Pieces

/-! ## Marks in front of pieces -/

section Marks

variable {before piece after : List UInt8} {ps : List (Nat × List Char)} {mark : List Char}
  {r : UInt32}

/-- The octets of a mark and of the space behind it. -/
def markOctets (r : UInt32) : List UInt8 := Utf8.encode (hexDigits 8 r.toNat ++ [' '])

theorem encode_sealed (payload : List Char) : Utf8.encode (sealed payload) =
    markOctets (checksum (Utf8.encode payload)) ++ Utf8.encode payload := by
  rw [markOctets, ← Utf8.encode_append, sealed, List.append_assoc, List.singleton_append]

/-- An octet that is no control character ends no line. -/
theorem ne_of_le {b : UInt8} (h : 0x20 ≤ b.toNat) : b ≠ 10 ∧ b ≠ 13 := by
  constructor <;>
  · rintro rfl
    exact absurd h (by decide)

/-- A mark and the space behind it end no line. -/
theorem Spells.ne_of_mem_encode (h : Spells mark r) {b : UInt8}
    (hb : b ∈ Utf8.encode (mark ++ [' '])) : b ≠ 10 ∧ b ≠ 13 := by
  have hchars : ∀ c ∈ mark ++ [' '], 0x20 ≤ c.toNat := by
    intro c hc
    rcases List.mem_append.mp hc with hc | hc
    · exact Nat.le_of_lt (h.of_mem hc).2.1
    · rw [List.mem_singleton.mp hc]
      decide
  exact ne_of_le (Utf8.toNat_ge_of_mem_encode hchars hb)

/-- A line with a mark is not blank. -/
theorem Spells.isBlankText_append (h : Spells mark r) (cs : List Char) :
    isBlankText (mark ++ cs) = false := by
  have hlength := h.length_eq
  cases mark with
  | nil => cases hlength
  | cons c ds =>
      have hblank := (h.of_mem List.mem_cons_self).2.2
      rw [isBlankText, List.all_eq_false]
      exact ⟨c, by simp, by simp [hblank]⟩

/-- **Behind a mark** that stands in a file that can be read the payload of the mark stands, or
begins with what does not break off. -/
theorem exists_of_payloads_mark {r : UInt32} (hbefore : Ended before) (hafter : EndsLine after)
    (h : payloads (before ++ (markOctets r ++ piece ++ after)) = .ok ps) : ∃ payload,
      (Utf8.encode payload = piece ∨ BreaksOff (Utf8.encode payload) piece after) ∧
      checksum (Utf8.encode payload) = r ∧ payload ∈ ps.map Prod.snd := by
  have hne : markOctets r ++ piece ≠ [] := by simp [markOctets, Utf8.encode, hexDigits]
  obtain ⟨cs, hline, hcs⟩ := exists_of_payloads hbefore hafter hne h
  -- no octet of the mark ends a line, so the line goes on behind it
  have hmore : ∃ more, Utf8.encode cs = markOctets r ++ more ∧
      (more = piece ∨ BreaksOff more piece after) := by
    rcases hline with hline | hline
    · exact ⟨piece, hline, Or.inl rfl⟩
    · obtain ⟨more, hmore, hoff⟩ := hline.exists_of_append fun _ hb =>
        (spells_hexDigits r).ne_of_mem_encode hb
      exact ⟨more, hmore, Or.inr hoff⟩
  obtain ⟨more, hmore, hoff⟩ := hmore
  obtain ⟨payload, rfl, rfl⟩ := Utf8.exists_of_encode_eq_append hmore
  rw [List.append_assoc] at hcs
  rcases hcs with hblank | ⟨payload', hopened, hmem⟩
  · rw [(spells_hexDigits r).isBlankText_append] at hblank
    cases hblank
  · rw [List.singleton_append, opened?_mark] at hopened
    split at hopened
    · rename_i hsum
      cases hopened
      exact ⟨payload, hoff, hsum.symm, hmem⟩
    · cases hopened

end Marks

/-! ## Lists of damaged files -/

section Lists

variable {α : Type} {f : File α} {d e : Disk}

/-- Files with the same payloads are listed alike. -/
theorem list_congr {bytes bytes' : List UInt8} (hcontent : f.content d = .ok bytes)
    (hcontent' : f.content e = .ok bytes') (h : payloads bytes' = payloads bytes) (q : String) :
    f.list q e = f.list q d := by
  cases hq : checkPrincipal q with
  | error fault => rw [list_of_checkPrincipal hq, list_of_checkPrincipal hq]
  | ok u => rw [list_eq_map hq hcontent, list_eq_map hq hcontent', entries, entries, h]

/-- What can be listed has payloads, each of which writes an entry. -/
theorem exists_payloads_of_list {bytes : List UInt8} (hcontent : f.content d = .ok bytes)
    {q : String} {rs : List α} (h : f.list q d = .ok rs) : ∃ ps, payloads bytes = .ok ps ∧
      ∀ payload ∈ ps.map Prod.snd, (entryOf? f.layout payload).isSome := by
  obtain ⟨bytes', es, hbytes, hes, -⟩ := exists_entries_of_list h
  obtain rfl := Except.ok.inj (hcontent.symm.trans hbytes)
  obtain ⟨ps, hps, -⟩ := entries_eq_ok_iff.mp hes
  exact ⟨ps, hps, ((entries_eq_ok_iff_of_payloads hps).mp hes).1⟩

/-- A list fails if it does not succeed. -/
theorem list_eq_error_of_ne_ok {q : String} (h : ∀ rs, f.list q d ≠ .ok rs) :
    ∃ fault, f.list q d = .error fault := by
  cases hlist : f.list q d with
  | ok rs => exact absurd hlist (h rs)
  | error fault => exact ⟨fault, rfl⟩

end Lists

/-! ## Damage within four octets -/

theorem window_of_getElem?_set {bs : List UInt8} {k i : Nat} {b : UInt8}
    (h : (bs.set k b)[i]? ≠ bs[i]?) : k ≤ i ∧ i < k + 4 := by
  by_cases hi : k = i
  · omega
  · rw [List.getElem?_set_ne hi] at h
    exact absurd rfl h

/-- **Damage to a payload within four octets is seen**, however long the payload is: the checksum is
another one, so that the old mark does not open the new payload, and no list of the file succeeds,
unless the damage puts a line end into the payload and what stands before it happens to have the
checksum of the old payload. -/
theorem damage_seen_of_window {p p' : List UInt8} {k : Nat} (hlength : p'.length = p.length)
    (hne : p' ≠ p) (hwindow : ∀ i, p'[i]? ≠ p[i]? → k ≤ i ∧ i < k + 4) :
    checksum p' ≠ checksum p ∧
    (∀ payload, Utf8.encode payload = p' →
      opened? (hexDigits 8 (checksum p).toNat ++ ' ' :: payload) = none) ∧
    ∀ {α : Type} (f : File α) (d : Disk) (before after : List UInt8), Ended before →
      EndsLine after →
      f.content d = .ok (before ++ (markOctets (checksum p) ++ p' ++ after)) →
      (∀ q rs, f.list q d = .ok rs →
        ∃ head, BreaksOff head p' after ∧ checksum head = checksum p) ∧
      (10 ∉ p' → (p'.getLast? = some 13 → after.head? ≠ some 10) →
        ∀ q, ∃ fault, f.list q d = .error fault) := by
  have hsum := checksum_ne_of_window hlength hne hwindow
  refine ⟨hsum, ?_, ?_⟩
  · rintro payload rfl
    rw [opened?_mark, if_neg hsum.symm]
  · intro α f d before after hbefore hafter hcontent
    have hlist : ∀ q rs, f.list q d = .ok rs →
        ∃ head, BreaksOff head p' after ∧ checksum head = checksum p := by
      intro q rs h
      obtain ⟨ps, hps, -⟩ := exists_payloads_of_list hcontent h
      obtain ⟨payload, hline, hopened, -⟩ := exists_of_payloads_mark hbefore hafter hps
      rcases hline with rfl | hoff
      · exact absurd hopened hsum
      · exact ⟨_, hoff, hopened⟩
    refine ⟨hlist, fun hfeed hreturn q => list_eq_error_of_ne_ok fun rs h => ?_⟩
    obtain ⟨head, hoff, -⟩ := hlist q rs h
    exact unbroken_of_notMem hfeed hreturn head hoff

/-- With another letter in its record a line is not opened any more, and nobody can list the log. -/
theorem damage_seen_of_window_letter :
    let p := Utf8.encode (textLog.payload ("ada", "x"))
    let p' := p.set 29 0x79
    checksum p' ≠ checksum p ∧
      opened? (hexDigits 8 (checksum p).toNat ++ ' ' :: textLog.payload ("ada", "y")) = none ∧
      ∀ q, ∃ fault,
        textLog.list q (logOf (markOctets (checksum p) ++ p' ++ [10])) = .error fault := by
  intro p p'
  have hletter : Utf8.encode (textLog.payload ("ada", "y")) = p' := by decide +kernel
  have hne : p' ≠ p := by decide +kernel
  have hcontent : textLog.content (logOf (markOctets (checksum p) ++ p' ++ [10])) =
      .ok ([] ++ (markOctets (checksum p) ++ p' ++ [10])) := by decide +kernel
  obtain ⟨hsum, hopened, hlist⟩ := damage_seen_of_window List.length_set hne fun i hi =>
    window_of_getElem?_set hi
  obtain ⟨-, hfails⟩ := hlist textLog _ [] [10] nofun rfl hcontent
  exact ⟨hsum, hopened _ hletter, hfails (by decide +kernel) (by decide +kernel)⟩

/-- The payload of a text with a space behind it. The space does not change the checksum. -/
def spaced : List Char := textLog.payload ("ada", "awsubood") ++ [' ']

section Unseen

-- the checksums are computed octet by octet
set_option maxRecDepth 2000

/-- **A carriage return in place of a space** that does not count goes with the end of the line. -/
theorem damage_unseen_return :
    let p := Utf8.encode spaced
    let p' := p.set 39 13
    p'.length = p.length ∧ p' ≠ p ∧ (∀ i, p'[i]? ≠ p[i]? → 39 ≤ i ∧ i < 39 + 4) ∧
      textLog.list "ada" (logOf (markOctets (checksum p) ++ p' ++ [10])) = .ok ["awsubood"] :=
  ⟨List.length_set, by decide +kernel, fun _ hi => window_of_getElem?_set hi, by decide +kernel⟩

end Unseen

end IndexAdvisor.Store
