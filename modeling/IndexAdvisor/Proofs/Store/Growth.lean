import IndexAdvisor.Proofs.Json.Extent
import IndexAdvisor.Proofs.Store.Insertion

/-!
# Files that grow

Sealed lines are added behind what a file holds. If the file can be read before and after, then it
holds the entries that it held, in order, and others behind them. A last line that is not ended gets
in the way of the first line that is added: such a file cannot be read any more, for nothing but
space may stand behind the entry on it.
-/

set_option autoImplicit false

namespace IndexAdvisor.Store

open IndexAdvisor.Text

/-! ## Lines that go on -/

/-- What stands behind a sealed line goes to its payload. -/
theorem opened?_append {cs payload longer : List Char} (h : opened? cs = some payload)
    {more : List Char} (hlonger : opened? (cs ++ more) = some longer) :
    longer = payload ++ more := by
  obtain ⟨mark, hmark, rfl⟩ := exists_mark_of_opened? h
  obtain ⟨mark', hmark', heq⟩ := exists_mark_of_opened? hlonger
  rw [List.append_assoc] at heq
  obtain ⟨-, htail⟩ := List.append_inj heq (hmark.trans hmark'.symm)
  exact (List.cons.inj htail).2.symm

/-- A sealed line begins with a digit. -/
theorem exists_sealed_eq_cons (payload : List Char) :
    ∃ c cs, sealed payload = c :: cs ∧ Json.isSpace c = false := by
  have hdigits : ∀ d : Fin 16, Json.isSpace (hexDigit d.val) = false := by decide
  have hmark : (hexDigits 8 (checksum (Utf8.encode payload)).toNat).length = 8 :=
    length_hexDigits 8 _
  cases hds : hexDigits 8 (checksum (Utf8.encode payload)).toNat with
  | nil =>
      rw [hds] at hmark
      cases hmark
  | cons c ds =>
      have hc : c ∈ hexDigits 8 (checksum (Utf8.encode payload)).toNat := by
        rw [hds]
        exact List.mem_cons_self
      obtain ⟨d, hd, rfl⟩ := mem_hexDigits hc
      refine ⟨_, ds ++ ' ' :: payload, ?_, hdigits ⟨d, hd⟩⟩
      rw [sealed, hds, List.cons_append]

/-- If a line can be opened with and without a sealed line behind it, that goes to its payload. -/
theorem payloadsFrom_append_sealed {n : Nat} {line : List UInt8} {added : List Char}
    {ps qs : List (Nat × List Char)} (hne : line ≠ []) (hps : payloadsFrom n [line] = .ok ps)
    (hqs : payloadsFrom n [line ++ Utf8.encode (sealed added)] = .ok qs) :
    ∃ payload, ps = [(n, payload)] ∧ qs = [(n, payload ++ sealed added)] := by
  rw [payloadsFrom] at hps
  split at hps
  · cases hps
  · rename_i cs hcs
    split at hps
    · rename_i hblank
      rw [payloadsFrom_blank_append hcs hne hblank] at hqs
      cases hqs
    · split at hps
      · cases hps
      · rename_i payload hopened
        cases hps
        -- the sealed line is read as more of the line before it
        have hline : Utf8.decode? (line ++ Utf8.encode (sealed added)) =
            some (cs ++ sealed added) := by
          rw [← Utf8.encode_of_decode? hcs, ← Utf8.encode_append, Utf8.decode?_encode]
        have hblank : isBlankText (cs ++ sealed added) = false := by
          rw [isBlankText, List.all_append]
          exact Bool.and_eq_false_imp.mpr fun _ => isBlankText_sealed added
        simp only [payloadsFrom, hline, hblank, Bool.false_eq_true, if_false] at hqs
        split at hqs
        · cases hqs
        · rename_i longer hlonger
          cases hqs
          rw [opened?_append hopened hlonger]
          exact ⟨payload, rfl, rfl⟩

section Entries

variable {α : Type} {L : Json.Layout α} {bytes : List UInt8} {es es' : List (Entry α)}

/-- No entry is read from a line behind whose entry a sealed line stands. -/
theorem readEntry_append_ne_ok {n m : Nat} {payload : List Char} {e : Entry α}
    (h : readEntry L (n, payload) = .ok e) (added : List Char) (e' : Entry α) :
    readEntry L (m, payload ++ sealed added) ≠ .ok e' := by
  obtain ⟨c, cs, hsealed, hc⟩ := exists_sealed_eq_cons added
  have hink : Json.skipSpace (c :: cs) ≠ [] := by
    rw [Json.skipSpace_cons hc]
    exact List.cons_ne_nil c cs
  rw [hsealed, ne_eq, readEntry_eq_ok_iff]
  exact Json.Layout.read_append_ne_ok rfl (readEntry_eq_ok_iff.mp h) hink e'

/-- **Only a file that is ended can be read** before and after a line is added. -/
theorem ended_of_entries_append {added : List Char} (hplain : Plain added)
    (hes : entries L bytes = .ok es) (hes' : entries L (bytes ++ sealedLine added) = .ok es') :
    Ended bytes := by
  -- otherwise the last line of the file and the added one are one line, with two records on it
  by_contra hended
  obtain ⟨ps, hps, hread⟩ := entries_eq_ok_iff.mp hes
  obtain ⟨qs, hqs, hread'⟩ := entries_eq_ok_iff.mp hes'
  obtain ⟨ls, l, hne, hlines, hlonger⟩ := exists_byteLines_append hplain bytes hended
  rw [payloads, hlines, payloadsFrom_append] at hps
  rw [payloads, hlonger, payloadsFrom_append] at hqs
  obtain ⟨before, -, hps⟩ := bind_eq_ok_iff.mp hps
  obtain ⟨mine, hmine, hps⟩ := bind_eq_ok_iff.mp hps
  obtain ⟨before', -, hqs⟩ := bind_eq_ok_iff.mp hqs
  obtain ⟨both, hboth, hqs⟩ := bind_eq_ok_iff.mp hqs
  cases hps
  cases hqs
  obtain ⟨payload, rfl, rfl⟩ := payloadsFrom_append_sealed hne hmine hboth
  rw [List.mapM_append] at hread hread'
  obtain ⟨_, -, hread⟩ := bind_eq_ok_iff.mp hread
  obtain ⟨_, hlast, -⟩ := bind_eq_ok_iff.mp hread
  obtain ⟨_, -, hread'⟩ := bind_eq_ok_iff.mp hread'
  obtain ⟨_, hlast', -⟩ := bind_eq_ok_iff.mp hread'
  rw [List.mapM_cons] at hlast hlast'
  obtain ⟨e, he, -⟩ := bind_eq_ok_iff.mp hlast
  obtain ⟨e', he', -⟩ := bind_eq_ok_iff.mp hlast'
  exact readEntry_append_ne_ok he added e' he'

theorem ended_append_sealedLines (h : Ended bytes) (ps : List (List Char)) :
    Ended (bytes ++ ps.flatMap sealedLine) := by
  rcases List.eq_nil_or_concat ps with rfl | ⟨before, p, rfl⟩
  · rwa [List.flatMap_nil, List.append_nil]
  · rw [List.concat_eq_append, List.flatMap_append, List.flatMap_singleton, ← List.append_assoc]
    exact ended_append_sealedLine _ p

/-- What stands in front of added lines can be read if the whole can. -/
theorem exists_entries_of_ended (hended : Ended bytes) {ps : List (List Char)}
    (hplain : ∀ p ∈ ps, Plain p) (h : entries L (bytes ++ ps.flatMap sealedLine) = .ok es') :
    ∃ es, entries L bytes = .ok es ∧ es <+: es' := by
  -- lines are taken off from the end, where each is a payload of its own
  induction ps using List.reverseRecOn generalizing es' with
  | nil =>
      rw [List.flatMap_nil, List.append_nil] at h
      exact ⟨es', h, List.prefix_refl es'⟩
  | append_singleton ps p ih =>
      rw [List.flatMap_append, List.flatMap_singleton, ← List.append_assoc] at h
      obtain ⟨n, hpayloads⟩ := payloads_append_of_ended (hplain p (by simp))
        (bytes ++ ps.flatMap sealedLine) (ended_append_sealedLines hended ps)
      obtain ⟨qs, hqs, hread⟩ := entries_eq_ok_iff.mp h
      rw [hpayloads] at hqs
      cases hbefore : payloads (bytes ++ ps.flatMap sealedLine) with
      | error fault =>
          rw [hbefore] at hqs
          cases hqs
      | ok ps' =>
          rw [hbefore] at hqs
          cases hqs
          rw [List.mapM_append] at hread
          obtain ⟨es₁, hes₁, hread⟩ := bind_eq_ok_iff.mp hread
          obtain ⟨last, -, hread⟩ := bind_eq_ok_iff.mp hread
          cases hread
          obtain ⟨es, hes, hfirst⟩ := ih (fun q hq => hplain q (by simp [hq]))
            (entries_eq_ok_iff.mpr ⟨ps', hbefore, hes₁⟩)
          exact ⟨es, hes, hfirst.trans (List.prefix_append es₁ last)⟩

/-- **A file that grows keeps its entries**, in order and in front of all others. -/
theorem entries_isPrefix {ps : List (List Char)} (hplain : ∀ p ∈ ps, Plain p)
    (hes : entries L bytes = .ok es)
    (hes' : entries L (bytes ++ ps.flatMap sealedLine) = .ok es') : es <+: es' := by
  cases ps with
  | nil =>
      rw [List.flatMap_nil, List.append_nil, hes] at hes'
      exact Except.ok.inj hes' ▸ List.prefix_refl es
  | cons p ps =>
      -- the first line that is added tells whether the file was ended
      have hended : Ended bytes := by
        have hrest := hes'
        rw [List.flatMap_cons, ← List.append_assoc] at hrest
        obtain ⟨es₁, hes₁, -⟩ := exists_entries_of_ended (ended_append_sealedLine bytes p)
          (fun q hq => hplain q (List.mem_cons_of_mem p hq)) hrest
        exact ended_of_entries_append (hplain p List.mem_cons_self) hes hes₁
      obtain ⟨es₀, hes₀, hfirst⟩ := exists_entries_of_ended hended hplain hes'
      rwa [Except.ok.inj (hes.symm.trans hes₀)]

end Entries

end IndexAdvisor.Store
