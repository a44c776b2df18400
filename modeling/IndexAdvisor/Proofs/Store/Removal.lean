import IndexAdvisor.Proofs.Store.Refinement
import IndexAdvisor.Proofs.Text.Utf8
import Mathlib.Algebra.GroupWithZero.Nat

/-!
# Removing records

A file from which records have been removed is shorter than it was: each line that is kept is
written in as many octets as it had, or fewer, and at least one line is missing.
-/

set_option autoImplicit false

namespace IndexAdvisor.Text

/-! ## Lengths of lines -/

section Lines

variable {α : Type} [DecidableEq α] {ret feed : α}

theorem length_dropReturns_le (cs : List α) : (dropReturns ret feed cs).length ≤ cs.length := by
  induction cs with
  | nil => exact Nat.le_refl 0
  | cons c cs ih =>
      cases cs with
      | nil => exact Nat.le_refl 1
      | cons d cs =>
          rw [dropReturns]
          split
          · exact Nat.le_succ_of_le ih
          · exact Nat.succ_le_succ ih

/-- The lines of a text with their ends are no longer than the text and one more end. -/
theorem sum_length_splitLines_le (cs : List α) :
    ((splitLines feed cs).map fun l => l.length + 1).sum ≤ cs.length + 1 := by
  induction cs with
  | nil => exact Nat.zero_le 1
  | cons c cs ih =>
      rw [splitLines, List.length_cons]
      split
      · rw [List.map_cons, List.sum_cons, List.length_nil]
        omega
      · cases hlines : splitLines feed cs with
        | nil => simp
        | cons l ls =>
            rw [hlines, List.map_cons, List.sum_cons] at ih
            simp only [List.map_cons, List.sum_cons, List.length_cons]
            omega

end Lines

theorem sum_length_byteLines_le (bs : List UInt8) :
    ((byteLines bs).map fun l => l.length + 1).sum ≤ bs.length + 1 :=
  Nat.le_trans (sum_length_splitLines_le _) (Nat.succ_le_succ (length_dropReturns_le bs))

namespace Utf8

/-- A character takes an octet at least. -/
theorem length_le_length_encode (cs : List Char) : cs.length ≤ (encode cs).length := by
  induction cs with
  | nil => exact Nat.le_refl 0
  | cons c cs ih =>
      rw [encode, List.flatMap_cons, List.length_append, ← encode, List.length_cons,
        String.length_utf8EncodeChar]
      have := c.utf8Size_pos
      omega

/-- A hexadecimal digit takes one octet. -/
theorem length_encode_hexDigits (n k : Nat) : (encode (hexDigits n k)).length = n := by
  have hdigit : ∀ d : Fin 16, (encode [hexDigit d.val]).length = 1 := by decide
  induction n generalizing k with
  | zero => rfl
  | succ n ih =>
      rw [hexDigits, encode_append, List.length_append, ih,
        hdigit ⟨k % 16, Nat.mod_lt k (by decide)⟩]

end Utf8

end IndexAdvisor.Text

namespace IndexAdvisor.Store

open IndexAdvisor.Text

/-! ## Lengths of files -/

theorem length_sealedLine (payload : List Char) :
    (sealedLine payload).length = (Utf8.encode payload).length + 10 := by
  rw [sealedLine_eq, sealed, Utf8.encode_append, List.length_append, List.length_append,
    Utf8.length_encode_hexDigits]
  show 8 + (Utf8.encode ([' '] ++ payload)).length + 1 = _
  rw [Utf8.encode_append, List.length_append]
  show 8 + (1 + (Utf8.encode payload).length) + 1 = _
  omega

theorem eq_append_of_splitAtFirst? {d : Char} {cs a b : List Char}
    (h : splitAtFirst? d cs = some (a, b)) : cs = a ++ d :: b := by
  induction cs generalizing a with
  | nil => cases h
  | cons c cs ih =>
      rw [splitAtFirst?] at h
      split at h
      · rename_i hc
        cases h
        rw [hc, List.nil_append]
      · cases hrest : splitAtFirst? d cs with
        | none => simp [hrest] at h
        | some r =>
            obtain ⟨a', b'⟩ := r
            simp only [hrest, Option.map_some, Option.some.injEq, Prod.mk.injEq] at h
            obtain ⟨rfl, rfl⟩ := h
            rw [List.cons_append, ← ih hrest]

/-- A line that gives a payload is a mark of eight characters, a space and the payload. -/
theorem exists_mark_of_opened? {cs payload : List Char} (h : opened? cs = some payload) :
    ∃ mark, mark.length = 8 ∧ cs = mark ++ ' ' :: payload := by
  simp only [opened?, bind, Option.bind_eq_some_iff] at h
  obtain ⟨⟨mark, rest⟩, hsplit, n, hn, hif⟩ := h
  have hlength : mark.length = 8 := by
    unfold sealNumber? at hn
    split at hn
    · assumption
    · cases hn
  split at hif
  · cases hif
    exact ⟨mark, hlength, eq_append_of_splitAtFirst? hsplit⟩
  · cases hif

/-- A line that gives a payload is no shorter than the one that is written for it. -/
theorem length_sealedLine_le {line : List UInt8} {cs payload : List Char}
    (hline : Utf8.decode? line = some cs) (h : opened? cs = some payload) :
    (sealedLine payload).length ≤ line.length + 1 := by
  obtain ⟨mark, hlength, rfl⟩ := exists_mark_of_opened? h
  have hmark := Utf8.length_le_length_encode mark
  rw [length_sealedLine, ← Utf8.encode_of_decode? hline, Utf8.encode_append, List.length_append]
  show _ ≤ _ + (Utf8.encode ([' '] ++ payload)).length + 1
  rw [Utf8.encode_append, List.length_append]
  show _ ≤ _ + (1 + (Utf8.encode payload).length) + 1
  omega

/-- The lines of all payloads are no longer than the lines that they are read from. -/
theorem sum_length_payloadsFrom_le {n : Nat} {lines : List (List UInt8)}
    {ps : List (Nat × List Char)} (h : payloadsFrom n lines = .ok ps) :
    (ps.map fun p => (sealedLine p.2).length).sum ≤ (lines.map fun l => l.length + 1).sum := by
  induction lines generalizing n ps with
  | nil =>
      cases h
      exact Nat.le_refl 0
  | cons line lines ih =>
      rw [payloadsFrom] at h
      rw [List.map_cons, List.sum_cons]
      split at h
      · cases h
      · rename_i cs hcs
        split at h
        · exact Nat.le_trans (ih h) (Nat.le_add_left _ _)
        · split at h
          · cases h
          · rename_i payload hpayload
            obtain ⟨more, hmore, heq⟩ := bind_eq_ok_iff.mp h
            cases heq
            rw [List.map_cons, List.sum_cons]
            exact Nat.add_le_add (length_sealedLine_le hcs hpayload) (ih hmore)

/-- Of some lines with their owners those that are kept are shorter by a line, if not all are. -/
theorem sum_length_filter_lt {α : Type} {f : α → Nat} {keep : α → Bool} (hf : ∀ a, 2 ≤ f a)
    {xs : List α} (h : (xs.filter keep).length < xs.length) :
    ((xs.filter keep).map f).sum + 2 ≤ (xs.map f).sum := by
  have hle (ys : List α) : ((ys.filter keep).map f).sum ≤ (ys.map f).sum := by
    induction ys with
    | nil => exact Nat.le_refl 0
    | cons y ys ih =>
        rw [List.filter_cons]
        split <;> simp only [List.map_cons, List.sum_cons] <;> omega
  -- from the first line that is removed the others need only be no longer
  induction xs with
  | nil => cases h
  | cons x xs ih =>
      rw [List.filter_cons] at h ⊢
      split at h
      · rename_i hx
        rw [if_pos hx, List.map_cons, List.sum_cons, List.map_cons, List.sum_cons]
        have := ih (Nat.lt_of_succ_lt_succ h)
        omega
      · rename_i hx
        rw [if_neg hx, List.map_cons, List.sum_cons]
        have := hle xs
        have := hf x
        omega

/-! ## Removing -/

section Clear

variable {α : Type} {f : File α} {principal : String} {d e : Disk} {n : Nat}

/-- What is read from a file by its lines is as long as the list of the lines. -/
theorem length_of_mapM {β γ : Type} {read : β → Except Error γ} {bs : List β} {cs : List γ}
    (h : bs.mapM read = .ok cs) : cs.length = bs.length := by
  induction bs generalizing cs with
  | nil =>
      cases h
      rfl
  | cons b bs ih =>
      rw [List.mapM_cons] at h
      obtain ⟨c, -, h⟩ := bind_eq_ok_iff.mp h
      obtain ⟨ds, hds, h⟩ := bind_eq_ok_iff.mp h
      cases h
      rw [List.length_cons, List.length_cons, ih hds]

/-- What is kept of the payloads of a file, each with its owner, where one owner's are removed. -/
def keptPayloads (principal : String) (ps : List (Nat × List Char)) (owners : List String) :
    List ((Nat × List Char) × String) := (ps.zip owners).filter fun e => e.2 != principal

/-- The steps of removing records: all is read, and what is kept is written, unless that is all. -/
theorem clear_eq_ok (h : f.clear principal d = .ok (n, e)) : ∃ old ps owners,
    f.content d = .ok old ∧ payloads old = .ok ps ∧
      ps.mapM (fun p => (readEntry .any p).map Entry.principal) = .ok owners ∧
      n = ps.length - (keptPayloads principal ps owners).length ∧ (n = 0 → e = d) ∧
      (n ≠ 0 → f.replace ((keptPayloads principal ps owners).flatMap fun e => sealedLine e.1.2) d =
        .ok e) := by
  obtain ⟨u, -, h⟩ := bind_eq_ok_iff.mp h
  obtain ⟨old, hold, h⟩ := bind_eq_ok_iff.mp h
  obtain ⟨ps, hps, h⟩ := bind_eq_ok_iff.mp h
  obtain ⟨owners, howners, h⟩ := bind_eq_ok_iff.mp h
  refine ⟨old, ps, owners, hold, hps, howners, ?_⟩
  dsimp only at h
  split at h
  · rename_i hnone
    cases h
    exact ⟨hnone.symm, fun _ => rfl, fun hn => absurd rfl hn⟩
  · rename_i hsome
    obtain ⟨e', hreplace, h⟩ := bind_eq_ok_iff.mp h
    cases h
    exact ⟨rfl, fun hn => absurd hn hsome, fun _ => hreplace⟩

/-- **Where records are removed the file gets shorter.** -/
theorem exists_of_clear (h : f.clear principal d = .ok (n, e)) (hn : n ≠ 0) :
    ∃ old new, f.content d = .ok old ∧ f.replace new d = .ok e ∧ new.length < old.length := by
  obtain ⟨old, ps, owners, hold, hps, howners, hcount, -, hreplace⟩ := clear_eq_ok h
  refine ⟨old, _, hold, hreplace hn, ?_⟩
  have hlength := length_of_mapM howners
  have hzip : (ps.zip owners).map Prod.fst = ps := List.map_fst_zip (by omega)
  have hfewer : (keptPayloads principal ps owners).length < (ps.zip owners).length := by
    rw [List.length_zip]
    omega
  have hlines := sum_length_filter_lt (f := fun e => (sealedLine e.1.2).length)
    (fun e => by rw [length_sealedLine]; omega) hfewer
  have hall : ((ps.zip owners).map fun e => (sealedLine e.1.2).length) =
      ps.map fun p => (sealedLine p.2).length := by
    rw [← hzip, List.map_map, hzip]
    rfl
  rw [hall] at hlines
  have hread := Nat.le_trans (sum_length_payloadsFrom_le hps) (sum_length_byteLines_le old)
  rw [List.length_flatMap, keptPayloads]
  omega

/-- Where no record is removed nothing is done. -/
theorem eq_of_clear_zero (h : f.clear principal d = .ok (0, e)) : e = d := by
  obtain ⟨old, ps, owners, -, -, -, -, hsame, -⟩ := clear_eq_ok h
  exact hsame rfl

theorem onDisk_eq_ok_iff {β : Type} {x : Except Disk.Fault β} {b : β} :
    onDisk x = .ok b ↔ x = .ok b := by
  cases x with
  | ok a => simp [onDisk]
  | error fault => simp [onDisk]

/-- A file is replaced by way of the one beside it, which is gone then. -/
theorem names_of_replace {new : List UInt8} (h : f.replace new d = .ok e) :
    ∃ l k, d.Names f.path l ∧ d.Names f.aside k ∧
      e = ((d.put k (.file new)).erase k).put l (.file new) ∧ d.SameDirectories e := by
  obtain ⟨a, ha, h⟩ := bind_eq_ok_iff.mp (onDisk_eq_ok_iff.mp h)
  obtain ⟨k, hk, rfl⟩ := Disk.names_of_change ha
  have hput := Disk.sameDirectories_put_file hk.node_ne new
  have hk' := hk.mono hput
  have hnode := d.node?_put_self (.file new) hk.ne_root
  have herase := Disk.sameDirectories_erase hk'.node_ne
  obtain ⟨bytes, hbytes, h⟩ := bind_eq_ok_iff.mp h
  obtain ⟨b, hb, h⟩ := bind_eq_ok_iff.mp h
  obtain rfl := Except.ok.inj (hbytes.symm.trans (hk'.readBytes hnode))
  obtain rfl := Except.ok.inj (hb.symm.trans (hk'.remove hnode))
  obtain ⟨l, hl, rfl⟩ := Disk.names_of_change h
  have hlast := Disk.sameDirectories_put_file hl.node_ne bytes
  exact ⟨l, k, hl.mono (hput.trans herase).symm, hk, rfl, (hput.trans herase).trans hlast⟩

/-- A file that has been replaced is found at the place that its path names. -/
theorem exists_of_replace {new : List UInt8} (h : f.replace new d = .ok e) :
    ∃ l, d.Names f.path l ∧ e.Names f.path l ∧ e.node? l = some (.file new) := by
  obtain ⟨l, k, hl, -, rfl, hsame⟩ := names_of_replace h
  exact ⟨l, hl, hl.mono hsame, Disk.node?_put_self _ _ hl.ne_root⟩

/-- **Where records are removed the file is another one** than before. -/
theorem file_ne_of_clear (h : f.clear principal d = .ok (n, e)) (hn : n ≠ 0) :
    ∃ l new, e.Names f.path l ∧ e.node? l = some (.file new) ∧ d.node? l ≠ some (.file new) := by
  obtain ⟨old, new, hold, hreplace, hshorter⟩ := exists_of_clear h hn
  obtain ⟨l, hl, hl', hnew⟩ := exists_of_replace hreplace
  refine ⟨l, new, hl', hnew, fun hsame => ?_⟩
  rw [content_of_names hl, Disk.bytesAt, hsame] at hold
  cases hold
  exact absurd hshorter (Nat.lt_irrefl _)

end Clear

end IndexAdvisor.Store
