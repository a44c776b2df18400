import IndexAdvisor.Proofs.Store.Removal

/-!
# Adding to a file

A line that is added to a file begins where the file ends. If the last line of the file is ended,
it stands by itself, and the file holds one entry more. If it is not, as when whoever wrote it was
stopped in front of the line feed, the two make one line, and the entry is not there.
-/

set_option autoImplicit false

namespace IndexAdvisor.Text

/-! ## Lines of two texts in a row -/

section Lines

variable {α : Type} [DecidableEq α] {ret feed : α}

/-- Nothing is dropped from a text behind another one, if it holds no carriage return and does not
begin with a line feed. -/
theorem dropReturns_append {cs : List α} (hret : ret ∉ cs) (hfeed : cs.head? ≠ some feed)
    (bs : List α) : dropReturns ret feed (bs ++ cs) = dropReturns ret feed bs ++ cs := by
  induction bs with
  | nil => exact dropReturns_of_notMem hret
  | cons b bs ih =>
      cases bs with
      | nil =>
          cases cs with
          | nil => rfl
          | cons c cs =>
              have hc : ¬(b = ret ∧ c = feed) := fun h => hfeed (congrArg some h.2)
              show dropReturns ret feed (b :: c :: cs) = b :: c :: cs
              rw [dropReturns, if_neg hc, dropReturns_of_notMem hret]
      | cons b' bs =>
          show dropReturns ret feed (b :: b' :: (bs ++ cs)) = _
          rw [dropReturns, dropReturns]
          by_cases hb : b = ret ∧ b' = feed
          · rw [if_pos hb, if_pos hb]
            exact ih
          · rw [if_neg hb, if_neg hb]
            exact congrArg (b :: ·) ih

/-- The end of a text is not dropped. -/
theorem getLast?_dropReturns (cs : List α) : (dropReturns ret feed cs).getLast? = cs.getLast? := by
  induction cs with
  | nil => rfl
  | cons c cs ih =>
      cases cs with
      | nil => rfl
      | cons d cs =>
          rw [dropReturns]
          split
          · rw [ih, List.getLast?_cons_cons]
          · rw [List.getLast?_cons, ih, List.getLast?_cons_cons, List.getLast?_cons]
            rfl

/-- Only an empty text has no lines. -/
theorem splitLines_eq_nil_iff {cs : List α} : splitLines feed cs = [] ↔ cs = [] := by
  cases cs with
  | nil => exact iff_of_true rfl rfl
  | cons c cs =>
      refine iff_of_false ?_ (List.cons_ne_nil c cs)
      rw [splitLines]
      split
      · exact List.cons_ne_nil _ _
      · split <;> exact List.cons_ne_nil _ _

/-- Behind a line feed a new line begins. -/
theorem splitLines_append_of_ended {bs : List α} (h : ∀ b ∈ bs.getLast?, b = feed)
    (cs : List α) : splitLines feed (bs ++ cs) = splitLines feed bs ++ splitLines feed cs := by
  induction bs with
  | nil => rfl
  | cons b bs ih =>
      cases bs with
      | nil =>
          have hb : b = feed := h b rfl
          show splitLines feed (b :: cs) = splitLines feed [b] ++ _
          rw [splitLines, splitLines, if_pos hb, if_pos hb]
          rfl
      | cons b' bs =>
          have hrest := ih fun x hx => h x (by rwa [List.getLast?_cons_cons])
          rw [List.cons_append, splitLines, splitLines]
          by_cases hb : b = feed
          · rw [if_pos hb, if_pos hb, hrest]
            rfl
          · rw [if_neg hb, if_neg hb, hrest]
            cases hlines : splitLines feed (b' :: bs) with
            | nil => exact absurd (splitLines_eq_nil_iff.mp hlines) (List.cons_ne_nil b' bs)
            | cons l ls => rfl

/-- Behind anything else the last line goes on. -/
theorem exists_splitLines_append {bs : List α} {b : α} (hlast : bs.getLast? = some b)
    (hb : b ≠ feed) : ∃ ls l, l ≠ [] ∧ splitLines feed bs = ls ++ [l] ∧
      ∀ cs, feed ∉ cs → splitLines feed (bs ++ (cs ++ [feed])) = ls ++ [l ++ cs] := by
  induction bs with
  | nil => cases hlast
  | cons x bs ih =>
      cases bs with
      | nil =>
          obtain rfl : x = b := Option.some.inj hlast
          refine ⟨[], [x], List.cons_ne_nil x [], ?_, fun cs hcs => ?_⟩
          · rw [splitLines, if_neg hb]
            rfl
          · have hline : feed ∉ x :: cs := fun hmem =>
              (List.mem_cons.mp hmem).elim (fun heq => hb heq.symm) hcs
            exact splitLines_append hline []
      | cons y bs =>
          obtain ⟨ls, l, hne, hlines, happend⟩ := ih (by rwa [List.getLast?_cons_cons] at hlast)
          by_cases hx : x = feed
          · refine ⟨[] :: ls, l, hne, ?_, fun cs hcs => ?_⟩
            · rw [splitLines, if_pos hx, hlines]
              rfl
            · rw [List.cons_append, splitLines, if_pos hx, happend cs hcs]
              rfl
          · -- The first line gets one more octet; it may be the last one as well.
            cases ls with
            | nil =>
                refine ⟨[], x :: l, List.cons_ne_nil x l, ?_, fun cs hcs => ?_⟩
                · rw [splitLines, if_neg hx, hlines]
                  rfl
                · rw [List.cons_append, splitLines, if_neg hx, happend cs hcs]
                  rfl
            | cons k ls =>
                refine ⟨(x :: k) :: ls, l, hne, ?_, fun cs hcs => ?_⟩
                · rw [splitLines, if_neg hx, hlines]
                  rfl
                · rw [List.cons_append, splitLines, if_neg hx, happend cs hcs]
                  rfl

end Lines

/-- A blank is no digit. -/
theorem hexValue?_of_isBlank {c : Char} (h : isBlank c = true) : hexValue? c = none := by
  have hrange (a b : Char) (ha : 0x21 ≤ a.toNat) (hb : b.toNat ≤ 0x7E) : ¬(a ≤ c ∧ c ≤ b) := by
    rintro ⟨hac, hcb⟩
    have hac : a.toNat ≤ c.toNat := hac
    have hcb : c.toNat ≤ b.toNat := hcb
    simp only [isBlank, Bool.or_eq_true, Bool.and_eq_true, decide_eq_true_eq, beq_iff_eq] at h
    omega
  rw [hexValue?, if_neg (hrange _ _ (by decide) (by decide)),
    if_neg (hrange _ _ (by decide) (by decide)), if_neg (hrange _ _ (by decide) (by decide))]

end IndexAdvisor.Text

namespace IndexAdvisor.Store

open IndexAdvisor.Text

/-! ## Payloads of two texts in a row -/

/-- Lines are read one after the other. -/
theorem payloadsFrom_append (n : Nat) (ls ks : List (List UInt8)) :
    payloadsFrom n (ls ++ ks) = (do
      let ps ← payloadsFrom n ls
      let more ← payloadsFrom (n + ls.length) ks
      .ok (ps ++ more)) := by
  induction ls generalizing n with
  | nil =>
      show payloadsFrom n ks = (do
        let more ← payloadsFrom n ks
        .ok more)
      cases payloadsFrom n ks <;> rfl
  | cons l ls ih =>
      have hlength : n + (l :: ls).length = n + 1 + ls.length := by
        rw [List.length_cons]
        omega
      rw [List.cons_append, payloadsFrom, payloadsFrom, ih, hlength]
      split
      · rfl
      · split
        · rfl
        · split
          · rfl
          · cases payloadsFrom (n + 1) ls with
            | error e => rfl
            | ok ps =>
                simp only [bind, Except.bind]
                cases payloadsFrom (n + 1 + ls.length) ks <;> rfl

/-- A line holds one payload or none. -/
theorem length_payloadsFrom_singleton_le {n : Nat} {line : List UInt8}
    {ps : List (Nat × List Char)} (h : payloadsFrom n [line] = .ok ps) : ps.length ≤ 1 := by
  rw [payloadsFrom] at h
  split at h
  · cases h
  · split at h
    · cases h
      exact Nat.zero_le 1
    · split at h
      · cases h
      · cases h
        exact Nat.le_refl 1

/-- A line that begins with a blank gives no payload. -/
theorem opened?_of_isBlank {c : Char} (h : isBlank c = true) (cs : List Char) :
    opened? (c :: cs) = none := by
  rw [Option.eq_none_iff_forall_ne_some]
  intro payload hopened
  simp only [opened?, bind, Option.bind_eq_some_iff] at hopened
  obtain ⟨⟨mark, rest⟩, hsplit, n, hn, -⟩ := hopened
  have hline := eq_append_of_splitAtFirst? hsplit
  -- the mark would begin with the blank, and no number does
  unfold sealNumber? at hn
  split at hn
  · rename_i hlength
    cases mark with
    | nil => cases hlength
    | cons m mark =>
        obtain ⟨rfl, -⟩ := List.cons.inj hline
        have hplus : c ≠ '+' := by
          rintro rfl
          cases h
        split at hn
        · rename_i heq
          exact hplus (List.cons.inj heq).1
        · rw [ofHexDigits?, List.foldlM_cons, hexValue?_of_isBlank h] at hn
          cases hn
  · cases hn

/-- A blank line without an end spoils the line that is added. -/
theorem payloadsFrom_blank_append {n : Nat} {l : List UInt8} {cs : List Char}
    (hl : Utf8.decode? l = some cs) (hne : l ≠ []) (hblank : isBlankText cs = true)
    (payload : List Char) :
    payloadsFrom n [l ++ Utf8.encode (sealed payload)] = .error (.checksumMismatch n) := by
  have hline : Utf8.decode? (l ++ Utf8.encode (sealed payload)) = some (cs ++ sealed payload) := by
    rw [← Utf8.encode_of_decode? hl, ← Utf8.encode_append, Utf8.decode?_encode]
  have hsealed : isBlankText (cs ++ sealed payload) = false := by
    rw [isBlankText, List.all_append]
    exact Bool.and_eq_false_imp.mpr fun _ => isBlankText_sealed payload
  have hopened : opened? (cs ++ sealed payload) = none := by
    cases cs with
    | nil =>
        rw [← Utf8.encode_of_decode? hl] at hne
        exact absurd rfl hne
    | cons c cs =>
        rw [isBlankText, List.all_cons, Bool.and_eq_true] at hblank
        exact opened?_of_isBlank hblank.1 (cs ++ sealed payload)
  simp only [payloadsFrom, hline, hsealed, Bool.false_eq_true, if_false, hopened]

/-! ## Ended files -/

/-- The last line of a file is ended, if there is one. -/
def Ended (bytes : List UInt8) : Prop := ∀ b ∈ bytes.getLast?, b = 10

theorem ended_iff_all {bytes : List UInt8} :
    Ended bytes ↔ bytes.getLast?.all (· == 10) = true := by
  simp [Ended, Option.all_eq_true]

instance decidableEnded (bytes : List UInt8) : Decidable (Ended bytes) :=
  decidable_of_iff' _ ended_iff_all

/-- Lines that have been written are ended. -/
theorem ended_append_sealedLine (bytes : List UInt8) (payload : List Char) :
    Ended (bytes ++ sealedLine payload) := by
  intro b hb
  rw [sealedLine_eq, ← List.append_assoc, List.getLast?_concat] at hb
  exact (Option.some.inj hb).symm

section Added

variable {payload : List Char} (hplain : Plain payload) (bytes : List UInt8)

include hplain

/-- The octets of a line without its end. -/
theorem toNat_ge_of_mem_sealed {b : UInt8} (hb : b ∈ Utf8.encode (sealed payload)) :
    0x20 ≤ b.toNat := Utf8.toNat_ge_of_mem_encode (plain_sealed hplain) hb

/-- Before lines are cut, an added line stands behind what was there. -/
theorem dropReturns_append_sealedLine : dropReturns 13 10 (bytes ++ sealedLine payload) =
    dropReturns 13 10 bytes ++ (Utf8.encode (sealed payload) ++ [10]) := by
  rw [sealedLine_eq, dropReturns_append]
  · intro hret
    rcases List.mem_append.mp hret with hret | hret
    · exact absurd (toNat_ge_of_mem_sealed hplain hret) (by decide)
    · exact absurd hret (by decide)
  · intro hfeed
    cases hsealed : Utf8.encode (sealed payload) with
    | nil =>
        have hempty : sealed payload = [] := by
          have hdecoded := Utf8.decode?_encode (sealed payload)
          rw [hsealed] at hdecoded
          exact (Option.some.inj hdecoded).symm
        have hblank := isBlankText_sealed payload
        rw [hempty] at hblank
        cases hblank
    | cons b bs =>
        rw [hsealed] at hfeed
        obtain rfl : b = 10 := Option.some.inj hfeed
        have hb : (10 : UInt8) ∈ Utf8.encode (sealed payload) := hsealed ▸ List.mem_cons_self
        exact absurd (toNat_ge_of_mem_sealed hplain hb) (by decide)

/-- **Behind an ended line** an added line is a line of its own. -/
theorem payloads_append_of_ended (h : Ended bytes) : ∃ n,
    payloads (bytes ++ sealedLine payload) = (payloads bytes).map (· ++ [(n, payload)]) := by
  have hended : ∀ b ∈ (dropReturns 13 10 bytes).getLast?, b = 10 := by
    rw [getLast?_dropReturns]
    exact h
  have hfeed : (10 : UInt8) ∉ Utf8.encode (sealed payload) := fun hmem =>
    absurd (toNat_ge_of_mem_sealed hplain hmem) (by decide)
  have hline : splitLines 10 (Utf8.encode (sealed payload) ++ [10]) =
      [Utf8.encode (sealed payload)] := splitLines_append hfeed []
  refine ⟨1 + (byteLines bytes).length, ?_⟩
  rw [payloads, byteLines, dropReturns_append_sealedLine hplain, splitLines_append_of_ended hended,
    hline, ← byteLines, payloadsFrom_append, payloads]
  have hlast := payloadsFrom_sealed (1 + (byteLines bytes).length) [payload]
  rw [List.map_singleton] at hlast
  rw [hlast]
  cases payloadsFrom 1 (byteLines bytes) <;> rfl

/-- Behind a blank line that is not ended nothing can be read. -/
theorem payloads_blank_append {cs : List Char} (hbytes : Utf8.decode? bytes = some cs)
    (hne : bytes ≠ []) (hblank : isBlankText cs = true) (hret : 13 ∉ bytes) (hfeed : 10 ∉ bytes) :
    payloads (bytes ++ sealedLine payload) = .error (.checksumMismatch 1) := by
  have hline : (10 : UInt8) ∉ bytes ++ Utf8.encode (sealed payload) := fun hmem =>
    (List.mem_append.mp hmem).elim hfeed fun hmem =>
      absurd (toNat_ge_of_mem_sealed hplain hmem) (by decide)
  have hlines : splitLines 10 (bytes ++ Utf8.encode (sealed payload) ++ [10]) =
      [bytes ++ Utf8.encode (sealed payload)] := splitLines_append hline []
  rw [payloads, byteLines, dropReturns_append_sealedLine hplain, dropReturns_of_notMem hret,
    ← List.append_assoc, hlines]
  exact payloadsFrom_blank_append hbytes hne hblank payload

/-- Where the last line is not ended, an added line goes on with it. -/
theorem exists_byteLines_append (h : ¬Ended bytes) : ∃ ls l, l ≠ [] ∧
    byteLines bytes = ls ++ [l] ∧
    byteLines (bytes ++ sealedLine payload) = ls ++ [l ++ Utf8.encode (sealed payload)] := by
  simp only [Ended, not_forall] at h
  obtain ⟨b, hlast, hb⟩ := h
  have hend : (dropReturns 13 10 bytes).getLast? = bytes.getLast? := getLast?_dropReturns bytes
  rw [Option.mem_def, ← hend] at hlast
  obtain ⟨ls, l, hne, hlines, happend⟩ := exists_splitLines_append hlast hb
  have hfeed : (10 : UInt8) ∉ Utf8.encode (sealed payload) := fun hmem =>
    absurd (toNat_ge_of_mem_sealed hplain hmem) (by decide)
  refine ⟨ls, l, hne, hlines, ?_⟩
  rw [byteLines, dropReturns_append_sealedLine hplain, happend _ hfeed]

/-- **Behind a line that is not ended** there is no further payload. -/
theorem length_payloads_append_le (h : ¬Ended bytes) {ps qs : List (Nat × List Char)}
    (hps : payloads bytes = .ok ps) (hqs : payloads (bytes ++ sealedLine payload) = .ok qs) :
    qs.length ≤ ps.length := by
  obtain ⟨ls, l, hne, hlines, hlonger⟩ := exists_byteLines_append hplain bytes h
  rw [payloads, hlines, payloadsFrom_append] at hps
  rw [payloads, hlonger, payloadsFrom_append] at hqs
  obtain ⟨before, hbefore, hps⟩ := bind_eq_ok_iff.mp hps
  obtain ⟨mine, hmine, hps⟩ := bind_eq_ok_iff.mp hps
  obtain ⟨before', hbefore', hqs⟩ := bind_eq_ok_iff.mp hqs
  obtain ⟨both, hboth, hqs⟩ := bind_eq_ok_iff.mp hqs
  cases hps
  cases hqs
  obtain rfl := Except.ok.inj (hbefore.symm.trans hbefore')
  rw [List.length_append, List.length_append]
  refine Nat.add_le_add_left ?_ _
  -- The line that both make holds one payload at most, and none if the last line was blank.
  rw [payloadsFrom] at hmine
  split at hmine
  · cases hmine
  · rename_i cs hcs
    split at hmine
    · rename_i hblank
      rw [payloadsFrom_blank_append hcs hne hblank] at hboth
      cases hboth
    · split at hmine
      · cases hmine
      · cases hmine
        exact length_payloadsFrom_singleton_le hboth

end Added

/-! ## Entries -/

section Entries

variable {α : Type} {f : File α} {bytes : List UInt8} {es : List (Entry α)}

theorem entries_eq_ok_iff {L : Json.Layout α} : entries L bytes = .ok es ↔
    ∃ ps, payloads bytes = .ok ps ∧ ps.mapM (readEntry L) = .ok es := bind_eq_ok_iff

theorem plain_payload (principal : String) (record : α) :
    Plain ((Entry.layout f.layout).write ⟨principal, record⟩) := fun _ hc =>
  Json.toNat_ge_of_mem_render _ hc

/-- **An added entry is there exactly if the file was ended.** What the file held is what can be
read of it, whoever wrote it. -/
theorem entries_append_line_iff (hf : Faithful f.layout) (hes : entries f.layout bytes = .ok es)
    (principal : String) (record : α) :
    entries f.layout (bytes ++ f.line principal record) = .ok (es ++ [⟨principal, record⟩]) ↔
      Ended bytes := by
  obtain ⟨ps, hps, hread⟩ := entries_eq_ok_iff.mp hes
  have hplain := plain_payload (f := f) principal record
  constructor
  · intro h
    by_contra hended
    obtain ⟨qs, hqs, hmore⟩ := entries_eq_ok_iff.mp h
    -- behind a line that is not ended the entry has no line of its own, so there is a payload too
    -- few
    have hfewer := length_payloads_append_le hplain bytes hended hps hqs
    have hlength := length_of_mapM hread
    have hlength' := length_of_mapM hmore
    rw [List.length_append, List.length_singleton] at hlength'
    omega
  · intro hended
    obtain ⟨n, hpayloads⟩ := payloads_append_of_ended hplain bytes hended
    have hlast : readEntry f.layout (n, (Entry.layout f.layout).write ⟨principal, record⟩) =
        .ok ⟨principal, record⟩ := by
      simp only [readEntry, hf.read_write]
    rw [hps] at hpayloads
    refine entries_eq_ok_iff.mpr ⟨_, hpayloads, ?_⟩
    rw [List.mapM_append, hread, List.mapM_cons, hlast]
    rfl

/-- The lines of entries are ended. -/
theorem File.ended_lines (f : File α) (es : List (String × α)) : Ended (f.lines es) := by
  rcases List.eq_nil_or_concat es with rfl | ⟨before, e, rfl⟩
  · intro b hb
    cases hb
  · have hline : f.lines [e] = f.line e.1 e.2 := List.append_nil _
    rw [List.concat_eq_append, f.lines_append, hline]
    exact ended_append_sealedLine (f.lines before) _

end Entries

end IndexAdvisor.Store
