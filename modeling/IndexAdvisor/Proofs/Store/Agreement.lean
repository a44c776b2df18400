import IndexAdvisor.Proofs.Json.Followed
import IndexAdvisor.Proofs.Store.Clearing

/-!
# Listing and clearing

Both read the whole file. A list reads each record in its own form and passes over what that does
not know; clearing keeps records of any form. So whatever can be listed has owners for whoever
clears, unless a record holds what can be passed over, but not kept.
-/

set_option autoImplicit false

namespace IndexAdvisor.Store

open IndexAdvisor.Text

/-! ## Entries of any form -/

section Entries

variable {α : Type} {L : Json.Layout α} {R : Json.Stop → Prop}

/-- If records of any form follow those of a layout, so do their entries. -/
theorem follows_entry
    (h : Json.Follows R (L.shape.read recordNesting) (Json.Shape.any.read recordNesting)) :
    Json.Follows R ((Entry.layout L).shape.read Json.maxNesting)
      ((Entry.layout .any).shape.read Json.maxNesting) := by
  have hfields : Json.Fields.Follow R recordNesting
      (.cons "principal" [] .required .text (.cons "record" [] .required L.shape .nil))
      (.cons "principal" [] .required .text (.cons "record" [] .required .any .nil)) :=
    .cons (Json.Follows.refl R _) (.cons h .nil)
  exact hfields.record "Envelope" "Envelope"

/-- What is an entry of a store is one of any form, up to refusals, and has the same owner then. -/
theorem upTo_read_any
    (h : Json.Follows R (L.shape.read recordNesting) (Json.Shape.any.read recordNesting))
    {payload : List Char} {e : Entry α} (hentry : entryOf? L payload = some e) :
    Json.UpTo (fun fault => ∃ s, R s ∧ fault = s.inText payload)
      (fun e' : Entry Json => e'.principal = e.principal) ((Entry.layout .any).read payload) := by
  obtain ⟨v, hwhole, -⟩ := map_eq_ok_iff.mp (entryOf?_eq_some_iff.mp hentry)
  have hfollow := (follows_entry h).readWhole hwhole
  cases hany : (Entry.layout .any).read payload with
  | ok e' =>
      -- the first field of an entry is read alike whatever the second one is
      exact (principal_of_entryOf? hentry (owner?_of_read hany)).symm
  | error fault =>
      rw [Json.Layout.read] at hany
      cases hwhole' : Json.readWhole ((Entry.layout .any).shape.read Json.maxNesting) payload with
      | ok v' =>
          rw [hwhole'] at hany
          cases hany
      | error fault' =>
          rw [hwhole'] at hany hfollow
          cases hany
          exact hfollow

/-- A fault of a record that can be passed over, but not kept. -/
def IsUnkept (fault : Json.Fault) : Prop := fault.reason.isUnkept = true

/-- **An entry of a store is one of any form** with the same owner, unless it holds what can be
passed over, but not kept. -/
theorem upTo_read_any_of_entryOf? {payload : List Char} {e : Entry α}
    (h : entryOf? L payload = some e) :
    Json.UpTo IsUnkept (fun e' : Entry Json => e'.principal = e.principal)
      ((Entry.layout .any).read payload) := by
  refine (upTo_read_any (Json.Shape.follows_any L.shape recordNesting) h).imp ?_
  rintro fault ⟨s, hs, rfl⟩
  exact hs

/-- If records of any form follow those of a store without exception, its entries have owners. -/
theorem isSome_owner?_of_follows
    (h : Json.Follows (fun _ => False) (L.shape.read recordNesting)
      (Json.Shape.any.read recordNesting))
    {payload : List Char} {e : Entry α} (hentry : entryOf? L payload = some e) :
    (owner? payload).isSome := by
  have hany := upTo_read_any h hentry
  cases hread : (Entry.layout .any).read payload with
  | ok e' => rw [owner?_of_read hread, Option.isSome_some]
  | error fault =>
      rw [hread] at hany
      obtain ⟨s, hs, -⟩ := hany
      exact hs.elim

/-- What the store writes has an owner. -/
theorem owner?_write (h : Faithful L) (e : Entry α) :
    owner? ((Entry.layout L).write e) = some e.principal := by
  obtain ⟨j, hj⟩ := h.any_read_write e
  exact owner?_of_read hj

end Entries

/-! ## Counting and refusing -/

section Clear

variable {α : Type} {f : File α} {d : Disk} {principal : String} {old : List UInt8}
  {ps : List (Nat × List Char)}

/-- Each payload has an owner for whoever clears. -/
def Owned (ps : List (Nat × List Char)) : Prop := ∀ p ∈ ps, (owner? p.2).isSome

instance (ps : List (Nat × List Char)) : Decidable (Owned ps) :=
  inferInstanceAs (Decidable (∀ p ∈ ps, _))

/-- Where each payload has an owner, clearing counts those of the principal and keeps the others. -/
theorem clear_of_owners (hcheck : checkPrincipal principal = .ok ())
    (hold : f.content d = .ok old) (hps : payloads old = .ok ps)
    (hsome : ∀ payload ∈ ps.map Prod.snd, (owner? payload).isSome) :
    let n := ((ps.map Prod.snd).filter fun payload => owner? payload == some principal).length
    f.clear principal d = if n = 0 then .ok (0, d) else
      (f.replace ((others principal (ps.map Prod.snd)).flatMap sealedLine) d).map (n, ·) := by
  intro n
  obtain ⟨owners, howners⟩ := exists_owners hsome
  have hkept := (others_of_owners principal howners).2
  have hlines : ((keptPayloads principal ps owners).flatMap fun e => sealedLine e.1.2) =
      (others principal (ps.map Prod.snd)).flatMap sealedLine := by
    rw [← hkept, List.flatMap_map]
  have hcount : ps.length - (keptPayloads principal ps owners).length = n := by
    have hlength := congrArg List.length hkept
    have hall : (ps.map Prod.snd).length = ps.length := List.length_map _
    rw [List.length_map] at hlength
    rw [hlength, ← hall, length_sub_length_others]
  simp only [File.clear, hcheck, hold, hps, howners, bind, Except.bind]
  rw [← keptPayloads, hcount, hlines]
  split
  · rfl
  · cases f.replace ((others principal (ps.map Prod.snd)).flatMap sealedLine) d <;> rfl

/-- Where a payload has no owner, clearing fails as the first one does that has none. -/
theorem exists_of_not_owned (hcheck : checkPrincipal principal = .ok ())
    (hold : f.content d = .ok old) (hps : payloads old = .ok ps) (howned : ¬Owned ps) :
    ∃ p ∈ ps, ∃ fault, (Entry.layout .any).read p.2 = .error fault ∧
      f.clear principal d = .error (.corruptRecord p.1 fault) := by
  have hfirst : ps.findSome? (corruption? .any) ≠ none := by
    intro hnone
    refine howned fun p hp => ?_
    have hsound := List.findSome?_eq_none_iff.mp hnone p hp
    rw [corruption?] at hsound
    split at hsound
    · rename_i e hread
      rw [owner?_of_read hread, Option.isSome_some]
    · cases hsound
  obtain ⟨fault, hfault⟩ := Option.ne_none_iff_exists'.mp hfirst
  obtain ⟨p, hp, hcorrupt⟩ := List.exists_of_findSome?_eq_some hfault
  rw [corruption?] at hcorrupt
  split at hcorrupt
  · cases hcorrupt
  rename_i unread hread
  cases hcorrupt
  refine ⟨p, hp, unread, hread, ?_⟩
  simp only [File.clear, hcheck, hold, hps, bind, Except.bind, mapM_eq_elim, fault?_map,
    fault?_readEntry, hfault, Option.elim]

/-- As many records are listed as there are payloads of the principal. -/
theorem length_entries {L : Json.Layout α} {payloads : List (List Char)}
    (hread : ∀ payload ∈ payloads, (entryOf? L payload).isSome)
    (hsome : ∀ payload ∈ payloads, (owner? payload).isSome) :
    ((payloads.filterMap (entryOf? L)).filter fun e => e.principal == principal).length =
      (payloads.filter fun payload => owner? payload == some principal).length := by
  induction payloads with
  | nil => rfl
  | cons payload payloads ih =>
      obtain ⟨hfirst, hothers⟩ := List.forall_mem_cons.mp hread
      obtain ⟨hfirst', hothers'⟩ := List.forall_mem_cons.mp hsome
      obtain ⟨e, he⟩ := Option.isSome_iff_exists.mp hfirst
      obtain ⟨q, hq⟩ := Option.isSome_iff_exists.mp hfirst'
      have hrest := ih hothers hothers'
      rw [List.filterMap_cons_some he, List.filter_cons, List.filter_cons, hq,
        principal_of_entryOf? he hq]
      by_cases hprincipal : q = principal
      · simp [hprincipal, hrest]
      · simp [hprincipal, hrest]

/-- **What can be listed can be cleared**, but for what can be passed over and not kept. In a file
that a principal can list, each payload is an entry of any form with the owner that the list sees,
unless it is refused for a number that is too large, a surrogate without its other half or too deep
a nesting. Where none is refused, clearing removes as many records as are listed, and writes the
payloads of the others; on a disk that can be written it succeeds just there. Otherwise it fails at
such a payload. What the store wrote is never refused, and no payload of a store of texts or of
numbers is. -/
theorem clear_of_list {rs : List α} (hlist : f.list principal d = .ok rs) :
    ∃ old ps, f.content d = .ok old ∧ payloads old = .ok ps ∧
      (∀ p ∈ ps, ∃ e, entryOf? f.layout p.2 = some e ∧
        Json.UpTo IsUnkept (fun e' : Entry Json => e'.principal = e.principal)
          ((Entry.layout .any).read p.2)) ∧
      (Owned ps → f.clear principal d = if rs.length = 0 then .ok (0, d) else
        (f.replace ((others principal (ps.map Prod.snd)).flatMap sealedLine) d).map
          (rs.length, ·)) ∧
      (∀ e₁ e₂, d.append f.path [] = .ok e₁ → d.write (f.path.withExtension "tmp") [] = .ok e₂ →
        ((∃ e, f.clear principal d = .ok (rs.length, e)) ↔ Owned ps)) ∧
      (¬Owned ps → ∃ p ∈ ps, ∃ fault, IsUnkept fault ∧
        (Entry.layout .any).read p.2 = .error fault ∧
        f.clear principal d = .error (.corruptRecord p.1 fault)) ∧
      (Faithful f.layout → (∀ p ∈ ps, ∃ e, p.2 = (Entry.layout f.layout).write e) → Owned ps) ∧
      ((f.layout.shape = .text ∨ ∃ bits, f.layout.shape = .count bits) → Owned ps) := by
  have hcheck : checkPrincipal principal = .ok () := by
    obtain ⟨u, hu, -⟩ := bind_eq_ok_iff.mp hlist
    exact hu
  obtain ⟨old, es, hold, hes, rfl⟩ := exists_entries_of_list hlist
  obtain ⟨ps, hps, -⟩ := entries_eq_ok_iff.mp hes
  obtain ⟨hread, rfl⟩ := (entries_eq_ok_iff_of_payloads hps).mp hes
  have hentry : ∀ p ∈ ps, ∃ e, entryOf? f.layout p.2 = some e := fun p hp =>
    Option.isSome_iff_exists.mp (hread p.2 (List.mem_map_of_mem hp))
  have hlength (howned : Owned ps) :
      (((ps.map Prod.snd).filterMap (entryOf? f.layout)).filter fun e =>
          e.principal == principal).length =
        ((ps.map Prod.snd).filter fun payload => owner? payload == some principal).length :=
    length_entries hread (List.forall_mem_map.mpr howned)
  rw [List.length_map]
  -- how many are listed: from here on both counts are this number
  generalize (((ps.map Prod.snd).filterMap (entryOf? f.layout)).filter fun e =>
    e.principal == principal).length = n at hlength ⊢
  have hcleared (howned : Owned ps) : f.clear principal d = if n = 0 then .ok (0, d) else
      (f.replace ((others principal (ps.map Prod.snd)).flatMap sealedLine) d).map (n, ·) := by
    rw [hlength howned]
    exact clear_of_owners hcheck hold hps (List.forall_mem_map.mpr howned)
  have hrefused (howned : ¬Owned ps) : ∃ p ∈ ps, ∃ fault, IsUnkept fault ∧
      (Entry.layout .any).read p.2 = .error fault ∧
      f.clear principal d = .error (.corruptRecord p.1 fault) := by
    obtain ⟨p, hp, fault, hfault, hclear⟩ := exists_of_not_owned hcheck hold hps howned
    obtain ⟨e, he⟩ := hentry p hp
    have hunkept := upTo_read_any_of_entryOf? he
    rw [hfault] at hunkept
    exact ⟨p, hp, fault, hunkept, hfault, hclear⟩
  refine ⟨old, ps, hold, hps, fun p hp => ?_, hcleared, fun e₁ e₂ happend hwrite =>
    ⟨fun hclear => ?_, fun howned => ?_⟩, hrefused, fun hf hwritten p hp => ?_,
    fun hshape p hp => ?_⟩
  · obtain ⟨e, he⟩ := hentry p hp
    exact ⟨e, he, upTo_read_any_of_entryOf? he⟩
  · obtain ⟨e, he⟩ := hclear
    by_contra howned
    obtain ⟨p, -, fault, -, -, hfails⟩ := hrefused howned
    rw [hfails] at he
    cases he
  · obtain ⟨l, hl, -⟩ := Disk.names_of_change happend
    obtain ⟨k, hk, -⟩ := Disk.names_of_change hwrite
    rw [hcleared howned, replace_of_names hl hk]
    split
    · rename_i hzero
      exact ⟨d, by rw [hzero]⟩
    · exact ⟨_, rfl⟩
  · obtain ⟨e, hpayload⟩ := hwritten p hp
    rw [hpayload, owner?_write hf]
    rfl
  · -- nothing is passed over in a text or a number
    obtain ⟨e, he⟩ := hentry p hp
    refine isSome_owner?_of_follows ?_ he
    generalize f.layout.shape = s at hshape
    rcases hshape with rfl | ⟨bits, rfl⟩
    · exact Json.follows_text _ recordNesting
    · exact Json.follows_count _ bits recordNesting

end Clear

/-! ## Two files -/

/-- A log of queries. -/
def queryLog : File LoggedQuery := ⟨LoggedQuery.layout "now", ⟨"log.jsonl"⟩⟩

/-- A payload with a query of Ada that has another member as well. -/
def queryWith (value : String) : List Char :=
  ("\x7b\"principal\":\"ada\",\"record\":\x7b\"query\":\"q\",\"x\":" ++ value ++ "\x7d\x7d").toList

/-- A disk with nothing but the log of such a query. -/
def diskWith (value : String) : Disk := logOf (sealedLine (queryWith value))

/-- What is a value of any form does not matter to either. -/
theorem clear_of_list_unknown :
    queryLog.list "ada" (diskWith "[7]") = .ok [⟨none, "q", "now", "Unknown File"⟩] ∧
      ∃ e, queryLog.clear "ada" (diskWith "[7]") = .ok (1, e) := by
  have hlist : queryLog.list "ada" (diskWith "[7]") = .ok [⟨none, "q", "now", "Unknown File"⟩] := by
    decide +kernel
  obtain ⟨old, ps, hold, hps, -, -, hiff, -⟩ := clear_of_list hlist
  have howned : Owned ps := by
    have hcontent : queryLog.content (diskWith "[7]") = .ok (sealedLine (queryWith "[7]")) := by
      decide +kernel
    have hpayloads : payloads (sealedLine (queryWith "[7]")) = .ok [(1, queryWith "[7]")] := by
      decide +kernel
    obtain rfl := Except.ok.inj (hcontent.symm.trans hold)
    obtain rfl := Except.ok.inj (hpayloads.symm.trans hps)
    decide +kernel
  exact ⟨hlist, (hiff _ _ rfl rfl).mpr howned⟩

/-- **A number that is too large for a double** is passed over by the list, but nobody can clear a
file that holds one. -/
theorem clear_of_list_tooLarge :
    queryLog.list "ada" (diskWith "1e999") = .ok [⟨none, "q", "now", "Unknown File"⟩] ∧
      queryLog.clear "ada" (diskWith "1e999") =
        .error (.corruptRecord 1 ⟨.flaw .tooLarge, 1, 50⟩) := by
  constructor
  · decide +kernel
  · decide +kernel

end IndexAdvisor.Store
