import IndexAdvisor.Proofs.Analysis.Application
import IndexAdvisor.Proofs.Analysis.Keys
import IndexAdvisor.Proofs.Command.Sessions

/-!
# Nothing is applied twice

A recommendation is put on record only if it is not among what its principal has applied, and the
record is of that recommendation. So the records of a principal are of different ones, whatever has
been uploaded, analyzed, applied and cleared, and by whom.
-/

set_option autoImplicit false

namespace IndexAdvisor.Command

open IndexAdvisor.Analysis
open IndexAdvisor.Store

namespace Ledger

/-- What is offered is not applied yet, and is chosen from the last analysis. -/
theorem offer_eq_some {L : Ledger} {principal queryKey now : String} {id : UInt32}
    {a : AppliedIndex} (h : L.offer principal queryKey id now = .ok (some a)) :
    (queryKey, id) ∉ (L.appliedOf principal).map AppliedIndex.key ∧
      ∃ b, L.batch = .ok b ∧ b.application queryKey id now = .ok a := by
  obtain ⟨b, hb, hrest⟩ := bind_eq_ok_iff.mp h
  by_cases happlied : (AppliedSet.ofRecords (L.appliedOf principal)).contains queryKey id
  · simp only [happlied, if_true] at hrest
    cases hrest
  · refine ⟨fun hmem => happlied (AppliedSet.contains_ofRecords.mpr hmem), b, hb, ?_⟩
    simp only [happlied] at hrest
    cases hrecord : b.application queryKey id now with
    | error e =>
        rw [hrecord] at hrest
        cases hrest
    | ok a' =>
        rw [hrecord] at hrest
        cases hrest
        rfl

/-- The last analysis is in step, for it is made from bundles. -/
theorem inStep_of_batch {L : Ledger} {b : Batch} (h : L.batch = .ok b) : b.InStep := by
  unfold batch at h
  split at h
  · cases h
  split at h
  · cases h
  split at h
  · cases h
  obtain rfl := Except.ok.inj h
  exact Batch.inStep_ofBundles _

/-- What is kept of an analysis is the last analysis. -/
theorem batch_of_analysis (L : Ledger) (c : Config) (entropy : UInt64) (qs : List LoggedQuery) :
    let r := analysis c entropy qs
    { L with analysis? := some (Text.Utf8.encode (Bundle.layout.list.write r.1.bundles)) }.batch =
      .ok r.1 := by
  intro r
  have hbatch : Batch.ofBundles r.1.bundles = r.1 :=
    (Analyzer.inStep_analyzeBatch qs _).ofBundles_bundles
  simp only [batch, Text.Utf8.decode?_encode, read_write_bundles, hbatch]

/-- The records of each principal are of different recommendations. -/
def AppliedOnce (L : Ledger) : Prop :=
  ∀ principal, ((L.appliedOf principal).map AppliedIndex.key).Nodup

theorem appliedOnce_empty : AppliedOnce .empty := fun _ => List.nodup_nil

section Act

variable {c : Config} {s : Surroundings} {L : Ledger} {a : Action}
variable {load : Path → Except QueryLog.Error (List LoggedQuery)}

/-- An action of its own principal leaves different records. -/
theorem AppliedOnce.nodup_act (h : L.AppliedOnce) :
    (((L.act c s load a).2.appliedOf c.principal).map AppliedIndex.key).Nodup := by
  cases a with
  | upload file =>
      simp only [Ledger.act]
      cases load file with
      | error e => exact h c.principal
      | ok qs => exact h c.principal
  | apply queryKey id =>
      simp only [Ledger.act]
      cases hoffer : L.offer c.principal queryKey id s.now with
      | error e => exact h c.principal
      | ok r =>
          cases r with
          | none => exact h c.principal
          | some record =>
              -- only what is not on record yet is offered
              obtain ⟨hnew, b, -, hrecord⟩ := offer_eq_some hoffer
              have hadded : recordsOf (L.applied ++ [(c.principal, record)]) c.principal =
                  L.appliedOf c.principal ++ [record] := recordsOf_append_self L.applied [record]
              simp only [appliedOf, hadded, List.map_append, List.map_cons, List.map_nil]
              rw [Batch.key_of_application hrecord]
              exact List.nodup_append.mpr ⟨h c.principal, List.nodup_singleton _,
                fun x hx y hy heq => hnew (List.mem_singleton.mp hy ▸ heq ▸ hx)⟩
  | clear appliedIndexes =>
      cases appliedIndexes with
      | false => exact h c.principal
      | true =>
          simp only [Ledger.act, appliedOf, recordsOf_filter_self]
          exact List.nodup_nil
  | _ => exact h c.principal

/-- **One action** leaves the records of everybody different. -/
theorem AppliedOnce.act (h : L.AppliedOnce) : (L.act c s load a).2.AppliedOnce := by
  intro principal
  by_cases hp : c.principal = principal
  · exact hp ▸ h.nodup_act
  · rw [(sameFor_act_other hp).applied]
    exact h principal

end Act

end Ledger

/-- **No recommendation is applied twice.** After every session in a data directory that was empty at
first, whoever the principals are and whatever they do, the store of the applied indexes opens and
lists for each principal records of different recommendations, and the set made from them has as
many elements as there are records. -/
theorem nodup_applied_after {d e : Disk} {c : Config} {m : Place}
    (h : Opens d e c.dataPath m .empty) {vs : List Visit}
    (hvs : Under (fun c' => c'.dataPath = c.dataPath) d vs) {principal : String}
    (hp : isPrincipal principal = true) :
    ∃ d' records, (appliedFile c).prepare (after d vs) = (.ok (), d') ∧
      (appliedFile c).list principal d' = .ok records ∧
      (records.map AppliedIndex.key).Nodup ∧
      (AppliedSet.ofRecords records).size = records.length := by
  have honce : (Ledger.empty.after d vs).AppliedOnce :=
    Ledger.after_induction (fun _ _ _ _ _ _ _ hL => hL.act) Ledger.appliedOnce_empty hvs
  obtain ⟨d', hopens, -⟩ := (h.leaves_after hvs).opens h
  have hcheck : checkPrincipal principal = .ok () := by rw [checkPrincipal, if_pos hp]
  have hmade : (after d vs).makeDirectories c.appliedPath.parent = (.ok (), d') :=
    hopens.makeDirectories_parent (by decide)
  refine ⟨d', _, ?_, hopens.listApplied hcheck, honce principal,
    AppliedSet.size_ofRecords (honce principal)⟩
  simp only [File.prepare, appliedFile, hmade]
  rfl

/-- Ada applies a recommendation twice, Bob applies it after her, and Ada analyzes again. -/
theorem nodup_applied_after_log :
    let vs := [pairVisit "ada" (.upload ⟨"log.txt"⟩), pairVisit "ada" .analyze,
      pairVisit "ada" (.apply "id-0" 1), pairVisit "ada" (.apply "id-0" 1),
      pairVisit "bob" (.apply "id-0" 1), pairVisit "ada" .analyze]
    ∃ d' records, (appliedFile (pairConfig "ada")).prepare (after logDisk vs) = (.ok (), d') ∧
      (appliedFile (pairConfig "ada")).list "ada" d' = .ok records ∧
      (records.map AppliedIndex.key).Nodup ∧
      (AppliedSet.ofRecords records).size = records.length := by
  intro vs
  have hunder : Under (fun c => c.dataPath = ⟨"data"⟩ ∧ True) logDisk vs :=
    under_log (by simp [vs, pairVisit])
  exact nodup_applied_after opens_log (hunder.mono fun c hc => hc.1) (by decide)

end IndexAdvisor.Command
