import IndexAdvisor.Proofs.Analysis.Keys
import IndexAdvisor.Proofs.Command.Steps
import IndexAdvisor.Proofs.Log.Entry
import IndexAdvisor.Proofs.Store.Torn

/-!
# What the log tells about damage

Listing and clearing fail where a file is damaged, and the error names a line. If the checksum of
that line is wrong, the log names it as well, once. If all checksums are right and a line holds
something else than an entry, the log tells nothing.
-/

set_option autoImplicit false

namespace IndexAdvisor.Store

/-- The line that an error names, if it is about stored data. -/
def Error.line? : Error → Option Nat
  | .checksumMismatch n => some n
  | .corruptRecord n _ => some n
  | _ => none

/-! ## Payloads that are no entries -/

section Misread

variable {α β γ : Type} {f : File α} {d : Disk} {principal : String}

/-- All checksums of the file are right, but there is a payload that is no entry of such records. -/
def Misread (L : Json.Layout β) (f : File α) (d : Disk) : Prop :=
  ∃ bytes ps, f.content d = .ok bytes ∧ payloads bytes = .ok ps ∧
    ∃ p ∈ ps, (corruption? L p).isSome

/-- Reading lines fails at a checksum or at octets that are no text. -/
theorem ne_corruptRecord_of_payloadsFrom {n : Nat} {ls : List (List UInt8)} {e : Error}
    (h : payloadsFrom n ls = .error e) (line : Nat) (fault : Json.Fault) :
    e ≠ .corruptRecord line fault := by
  induction ls generalizing n with
  | nil => cases h
  | cons l ls ih =>
      rw [payloadsFrom] at h
      split at h
      · cases h
        exact fun heq => by cases heq
      split at h
      · exact ih h
      split at h
      · cases h
        exact fun heq => by cases heq
      cases hrest : payloadsFrom (n + 1) ls with
      | error e' =>
          rw [hrest] at h
          cases h
          exact ih hrest
      | ok more =>
          rw [hrest] at h
          cases h

theorem ne_corruptRecord_of_onDisk {r : Except Disk.Fault β} {e : Error} (h : onDisk r = .error e)
    (line : Nat) (fault : Json.Fault) : e ≠ .corruptRecord line fault := by
  cases r with
  | ok b => cases h
  | error fault =>
      cases h
      exact fun heq => by cases heq

theorem ne_corruptRecord_of_content {e : Error} (h : f.content d = .error e) (line : Nat)
    (fault : Json.Fault) : e ≠ .corruptRecord line fault := by
  rw [File.content] at h
  split at h
  · cases h
  · exact ne_corruptRecord_of_onDisk h line fault

/-- Reading a file and looking at each payload fails at a record just where one is no entry. -/
theorem reading_eq_corruptRecord_iff {L : Json.Layout γ} {look : Nat × List Char → Except Error β}
    (hlook : ∀ p, fault? (look p) = corruption? L p) {δ : Type}
    {after : List (Nat × List Char) → List β → Except Error δ}
    (hafter : ∀ ps bs line fault, after ps bs ≠ .error (.corruptRecord line fault)) :
    (∃ line fault, (do
        let ps ← payloads (← f.content d)
        after ps (← ps.mapM look)) = .error (.corruptRecord line fault)) ↔ Misread L f d := by
  cases hcontent : f.content d with
  | error e =>
      have hne := ne_corruptRecord_of_content hcontent
      simpa [Misread, hcontent, bind, Except.bind] using hne
  | ok bytes =>
  cases hps : payloads bytes with
  | error e =>
      have hne := ne_corruptRecord_of_payloadsFrom hps
      simpa [Misread, hcontent, hps, bind, Except.bind] using hne
  | ok ps =>
  -- all checksums are right from here on, and the first payload that is no entry decides
  have hmisread : Misread L f d ↔ (ps.findSome? (corruption? L)).isSome := by
    simp [Misread, hcontent, hps]
  rw [hmisread]
  simp only [bind, Except.bind, hps, mapM_eq_elim, hlook]
  cases hfirst : ps.findSome? (corruption? L) with
  | none => simpa using hafter ps _
  | some e =>
      obtain ⟨p, -, hp⟩ := List.exists_of_findSome?_eq_some hfirst
      rw [corruption?] at hp
      split at hp
      · cases hp
      · cases hp
        simp

variable (f d)

/-- Listing fails at a record just where a payload is no entry of the store. -/
theorem list_eq_corruptRecord_iff (hp : checkPrincipal principal = .ok ()) :
    (∃ line fault, f.list principal d = .error (.corruptRecord line fault)) ↔
      Misread f.layout f d := by
  have hlist : f.list principal d = (do
      let ps ← payloads (← f.content d)
      let es ← ps.mapM (readEntry f.layout)
      .ok ((es.filter fun e => e.principal == principal).map Entry.record)) := by
    simp only [File.list, hp, entries, bind_assoc]
    rfl
  rw [hlist]
  exact reading_eq_corruptRecord_iff (fault?_readEntry f.layout) fun _ _ _ _ h => by cases h

/-- Clearing fails at a record just where a payload is no entry of records of any form. -/
theorem clear_eq_corruptRecord_iff (hp : checkPrincipal principal = .ok ()) :
    (∃ line fault, f.clear principal d = .error (.corruptRecord line fault)) ↔
      Misread .any f d := by
  have hclear : f.clear principal d = (do
      let ps ← payloads (← f.content d)
      let owners ← ps.mapM fun p => (readEntry .any p).map Entry.principal
      let kept := (ps.zip owners).filter fun e => e.2 != principal
      let removed := ps.length - kept.length
      if removed = 0 then .ok (0, d)
      else (f.replace (kept.flatMap fun e => sealedLine e.1.2) d).map (removed, ·)) := by
    simp only [File.clear, hp]
    rfl
  -- behind the owners the file is only written anew, which fails in other ways
  rw [hclear]
  refine reading_eq_corruptRecord_iff (fun p => by rw [fault?_map, fault?_readEntry])
    fun ps owners line fault h => ?_
  dsimp only at h
  split at h
  · cases h
  · generalize hreplace : f.replace _ d = r at h
    cases r with
    | ok e => cases h
    | error e =>
        cases h
        exact ne_corruptRecord_of_onDisk hreplace line fault rfl

end Misread

end IndexAdvisor.Store

namespace IndexAdvisor.Command.Step

open Store (Misread)

variable {α β : Type} (f : Store.File α)

/-! ## What is logged -/

/-- The line with which the log tells of damage to a line of a file. -/
def alarm (n : Nat) : String :=
  String.ofList (Log.Entry.ofEvent .storeCorruption
    [("line", toString n), ("path", f.path.text)]).text

/-- An alarm tells the number of the line. -/
theorem alarm_injective {n m : Nat} (h : alarm f n = alarm f m) : n = m := by
  have hmembers := Log.Entry.members_eq_of_text_eq (String.ofList_inj.mp h)
  have hfields := (List.cons.inj (List.cons.inj hmembers).2).2
  -- the fields are in the order of their names, so the number is looked up by its name
  have hline := congrArg (List.filter (·.1 == "line")) hfields
  rw [Log.Entry.filter_sortedFields, Log.Entry.filter_sortedFields] at hline
  have hnumber : toString n = toString m := (Prod.mk.inj (List.cons.inj hline).1).2
  exact toDigits_injective (String.ofList_inj.mp hnumber)

/-- Damage to stored data is logged whatever the threshold is. -/
theorem lines_record_storeCorruption (j : Log.Journal) (fields : List (String × String)) :
    (j.record (.ofEvent .storeCorruption fields)).lines =
      j.lines ++ [String.ofList (Log.Entry.ofEvent .storeCorruption fields).text] := by
  have hthreshold : ¬Log.Severity.rank .error < j.threshold.rank := by
    cases j.threshold <;> decide
  rw [Log.Journal.record]
  exact congrArg Log.Journal.lines (if_neg hthreshold)

/-- The journal behind the answer of a store. -/
def reported (r : Except Store.Error β) (j : Log.Journal) : Log.Journal :=
  ((fault? r).bind f.report?).elim j j.record

theorem exec_orReport (r : Except Store.Error β) (s : Surroundings) (w : World) :
    (orReport f r).exec s w =
      (r.mapError .store, { w with journal := reported f r w.journal }) := by
  cases r with
  | ok b => rfl
  | error e => cases e <;> rfl

theorem exec_list (principal : String) (s : Surroundings) (w : World) :
    (list f principal).exec s w = ((f.list principal w.disk).mapError .store,
      { w with journal := reported f (f.list principal w.disk) w.journal }) := by
  rw [list, exec_bind_of_ok s w (exec_get s w), exec_orReport]

/-- Clearing logs what the store reports and nothing else. -/
theorem exec_clear (principal : String) (s : Surroundings) (w : World) :
    ((clear f principal).exec s w).1 =
        ((f.clear principal w.disk).mapError .store).map Prod.fst ∧
      ((clear f principal).exec s w).2.journal =
        reported f (f.clear principal w.disk) w.journal := by
  have hreport := exec_orReport f (f.clear principal w.disk) s w
  rw [clear, exec_bind_of_ok s w (exec_get s w)]
  cases hclear : f.clear principal w.disk with
  | ok r =>
      rw [hclear] at hreport
      rw [exec_bind_of_ok s w hreport]
      exact ⟨rfl, rfl⟩
  | error e =>
      rw [hclear] at hreport
      rw [exec_bind_of_error s w hreport]
      exact ⟨rfl, rfl⟩

/-! ## Alarms and failures -/

/-- The operation fails because stored data is damaged, and names this line. -/
def FailsAt (r : Except Error β) (n : Nat) : Prop :=
  ∃ e : Store.Error, r = .error (.store e) ∧ e.isCorruption = true ∧ e.line? = some n

/-- An operation fails at a line of the file exactly if the log has got one line, the alarm for that
line of the file. -/
def Alarmed (r : Except Error β) (before after : Log.Journal) : Prop :=
  ∀ n, FailsAt r n ↔ after.lines = before.lines ++ [alarm f n]

/-- What the log has got from the answer of a store: an alarm for a wrong checksum, else nothing. -/
theorem lines_reported (r : Except Store.Error β) (j : Log.Journal) :
    (∀ n, r = .error (.checksumMismatch n) → (reported f r j).lines = j.lines ++ [alarm f n]) ∧
      ((∀ n, r ≠ .error (.checksumMismatch n)) → reported f r j = j) := by
  constructor
  · rintro n rfl
    exact lines_record_storeCorruption j _
  · intro hne
    cases r with
    | ok b => rfl
    | error e =>
        cases e with
        | checksumMismatch n => exact absurd rfl (hne n)
        | _ => rfl

/-- The log gets the alarm for a line exactly from a wrong checksum of that line. -/
theorem lines_reported_eq_iff {r : Except Store.Error β} {j : Log.Journal} {n : Nat} :
    (reported f r j).lines = j.lines ++ [alarm f n] ↔ r = .error (.checksumMismatch n) := by
  obtain ⟨hmismatch, hquiet⟩ := lines_reported f r j
  refine ⟨fun h => ?_, hmismatch n⟩
  by_cases hwrong : ∃ m, r = .error (.checksumMismatch m)
  · obtain ⟨m, hm⟩ := hwrong
    rw [hmismatch m hm] at h
    obtain rfl := alarm_injective f (List.singleton_inj.mp (List.append_cancel_left h))
    exact hm
  · rw [hquiet fun m hm => hwrong ⟨m, hm⟩] at h
    simp at h

/-- A step that fails as a store does fails at the line that the store's error names. -/
theorem failsAt_error_iff {γ : Type} {e : Store.Error} {n : Nat} :
    FailsAt (.error (.store e) : Except Error γ) n ↔ e.isCorruption = true ∧ e.line? = some n := by
  constructor
  · rintro ⟨e', he, h⟩
    cases he
    exact h
  · exact fun h => ⟨e, rfl, h⟩

/-- The only failures that the log does not tell are those at records. -/
theorem alarmed_reported_iff {γ : Type} {r : Except Store.Error β} {r' : Except Error γ}
    (hok : ∀ b, r = .ok b → ∃ c, r' = .ok c) (herror : ∀ e, r = .error e → r' = .error (.store e))
    (j : Log.Journal) : Alarmed f r' j (reported f r j) ↔
      ¬∃ line fault, r = .error (.corruptRecord line fault) := by
  simp only [Alarmed, lines_reported_eq_iff]
  cases r with
  | ok b =>
      obtain ⟨c, rfl⟩ := hok b rfl
      simp [FailsAt]
  | error e =>
      obtain rfl := herror e rfl
      simp only [failsAt_error_iff]
      cases e <;> simp [Store.Error.isCorruption, Store.Error.line?]

/-- **Damage is logged unless a payload is no entry.** Whatever a file holds and whatever the
threshold of the log is, each of listing and clearing for a valid principal fails at a line exactly
if the log gets one line, the alarm for that line, unless all checksums of the file are right and a
payload is no entry: of the store for listing, of records of any form for clearing. There the
operation fails at a line and the log gets nothing. -/
theorem alarmed_iff_not_misread {principal : String}
    (hp : Store.checkPrincipal principal = .ok ()) (s : Surroundings) (w : World) :
    let listed := (list f principal).exec s w
    let cleared := (clear f principal).exec s w
    (Alarmed f listed.1 w.journal listed.2.journal ↔ ¬Misread f.layout f w.disk) ∧
      (Alarmed f cleared.1 w.journal cleared.2.journal ↔ ¬Misread .any f w.disk) ∧
      (Misread f.layout f w.disk → (∃ n, FailsAt listed.1 n) ∧ listed.2.journal = w.journal) ∧
      (Misread .any f w.disk → (∃ n, FailsAt cleared.1 n) ∧ cleared.2.journal = w.journal) := by
  intro listed cleared
  obtain ⟨hanswer, hjournal⟩ := exec_clear f principal s w
  have hlisted : listed = ((f.list principal w.disk).mapError .store,
      { w with journal := reported f (f.list principal w.disk) w.journal }) :=
    exec_list f principal s w
  have hsilent {γ : Type} {r : Except Store.Error γ} {line : Nat} {fault : Json.Fault}
      (h : r = .error (.corruptRecord line fault)) : reported f r w.journal = w.journal :=
    (lines_reported f r w.journal).2 fun n hn => by
      rw [h] at hn
      cases hn
  refine ⟨?_, ?_, fun hmisread => ?_, fun hmisread => ?_⟩
  · rw [hlisted, ← Store.list_eq_corruptRecord_iff f w.disk hp]
    refine alarmed_reported_iff f (fun b h => ⟨b, ?_⟩) (fun e h => ?_) w.journal
    · rw [h, Except.mapError]
    · rw [h, Except.mapError]
  · rw [hjournal, hanswer, ← Store.clear_eq_corruptRecord_iff f w.disk hp]
    refine alarmed_reported_iff f (fun b h => ⟨b.1, ?_⟩) (fun e h => ?_) w.journal
    · rw [h, Except.mapError, Except.map]
    · rw [h, Except.mapError, Except.map]
  · obtain ⟨line, fault, h⟩ := (Store.list_eq_corruptRecord_iff f w.disk hp).mpr hmisread
    rw [hlisted, hsilent h, h]
    exact ⟨⟨line, failsAt_error_iff.mpr ⟨rfl, rfl⟩⟩, rfl⟩
  · obtain ⟨line, fault, h⟩ := (Store.clear_eq_corruptRecord_iff f w.disk hp).mpr hmisread
    rw [hjournal, hanswer, hsilent h, h]
    exact ⟨⟨line, failsAt_error_iff.mpr ⟨rfl, rfl⟩⟩, rfl⟩

/-! ## Two files -/

/-- The world of a file of texts. -/
def worldOf (bytes : List UInt8) : World := ⟨Store.logOf bytes, .empty, 0⟩

/-- Surroundings that do not matter. -/
def anySurroundings : Surroundings := ⟨"", "0", fun _ => "", 0⟩

/-- A line without a checksum is told by both operations. -/
theorem alarmed_of_unsealed :
    let f := Store.textLog
    let w := worldOf (Text.Utf8.encode ['x', '\n'])
    ((list f "ada").exec anySurroundings w).2.journal.lines = [alarm f 1] ∧
      ((clear f "ada").exec anySurroundings w).2.journal.lines = [alarm f 1] := by
  intro f w
  have hread {β : Type} (L : Json.Layout β) : ¬Misread L f w.disk := by
    rintro ⟨bytes, ps, hcontent, hps, -⟩
    have hbytes : f.content w.disk = .ok (Text.Utf8.encode ['x', '\n']) := by decide +kernel
    rw [hbytes] at hcontent
    cases hcontent
    have hwrong : Store.payloads (Text.Utf8.encode ['x', '\n']) = .error (.checksumMismatch 1) := by
      decide +kernel
    rw [hwrong] at hps
    cases hps
  have hp : Store.checkPrincipal "ada" = .ok () := rfl
  obtain ⟨hlist, hclear, -, -⟩ := alarmed_iff_not_misread f hp anySurroundings w
  have hlisted : f.list "ada" w.disk = .error (.checksumMismatch 1) := by decide +kernel
  have hcleared : f.clear "ada" w.disk = .error (.checksumMismatch 1) := by decide +kernel
  constructor
  · refine (hlist.mpr (hread _) 1).mp ?_
    rw [exec_list, hlisted]
    exact failsAt_error_iff.mpr ⟨rfl, rfl⟩
  · refine (hclear.mpr (hread _) 1).mp ?_
    rw [(exec_clear f "ada" anySurroundings w).1, hcleared]
    exact failsAt_error_iff.mpr ⟨rfl, rfl⟩

/-- **A sealed line without an entry** makes both operations fail at it, and the log is silent. -/
theorem not_alarmed_of_sealed :
    let f := Store.textLog
    let w := worldOf (Store.sealedLine ['x'])
    let listed := (list f "ada").exec anySurroundings w
    let cleared := (clear f "ada").exec anySurroundings w
    (FailsAt listed.1 1 ∧ listed.2.journal.lines = [] ∧
        ¬Alarmed f listed.1 w.journal listed.2.journal) ∧
      FailsAt cleared.1 1 ∧ cleared.2.journal.lines = [] ∧
        ¬Alarmed f cleared.1 w.journal cleared.2.journal := by
  intro f w listed cleared
  let fault : Store.Error := .corruptRecord 1 ⟨.flaw .noValue, 1, 1⟩
  have hlist : f.list "ada" w.disk = .error fault := by decide +kernel
  have hclear : f.clear "ada" w.disk = .error fault := by decide +kernel
  have hsilent {β : Type} {r : Except Error β} {j : Log.Journal} (hfails : FailsAt r 1)
      (hlines : j.lines = []) : ¬Alarmed f r w.journal j := by
    intro halarmed
    have hlogged := (halarmed 1).mp hfails
    rw [hlines] at hlogged
    cases hlogged
  have hlisted : FailsAt listed.1 1 ∧ listed.2.journal.lines = [] := by
    rw [show listed = _ from exec_list f "ada" anySurroundings w, hlist]
    exact ⟨failsAt_error_iff.mpr ⟨rfl, rfl⟩, rfl⟩
  have hcleared : FailsAt cleared.1 1 ∧ cleared.2.journal.lines = [] := by
    obtain ⟨hanswer, hjournal⟩ := exec_clear f "ada" anySurroundings w
    rw [hanswer, hjournal, hclear]
    exact ⟨failsAt_error_iff.mpr ⟨rfl, rfl⟩, rfl⟩
  exact ⟨⟨hlisted.1, hlisted.2, hsilent hlisted.1 hlisted.2⟩,
    hcleared.1, hcleared.2, hsilent hcleared.1 hcleared.2⟩

end IndexAdvisor.Command.Step
