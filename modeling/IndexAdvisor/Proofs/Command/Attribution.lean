import IndexAdvisor.Proofs.Command.Applications

/-!
# Whose an applied index is

Somebody looks on while one principal works in a data directory, and keeps an account of the
commands and their answers alone: which statements have been uploaded, which key each analysis gave
to which of them, and which records have been answered to whom applied a key. A dashboard lists
under each statement exactly the records that were applied by a key of that statement.

The dashboard itself knows nothing of this. It cuts each record's key at the first hyphen and
compares what stands there with the ids of the statements that are stored at the time.
-/

set_option autoImplicit false

namespace IndexAdvisor.Command

open IndexAdvisor.Analysis

/-! ## Accounts -/

/-- The keys in the answer to an analysis. -/
def answeredKeys (answer : Json) : List String :=
  match member? "queryKeys" answer with
  | some (.array items) => items.filterMap text?
  | _ => []

/-- The statements that a visit uploads, with the ids that they are given. -/
def Visit.uploads (v : Visit) (d : Disk) : List LoggedQuery :=
  match v.command.action, Config.load v.command.config d with
  | .upload file, .ok c => (loadOn c v.surroundings d file).toOption.getD []
  | _, _ => []

/-- The statements that a session uploads. -/
def uploaded (d : Disk) : List Visit → List LoggedQuery
  | [] => []
  | v :: vs => v.uploads d ++ uploaded (v.run d).2 vs

/-- What an onlooker knows of a session. -/
structure Account where
  /-- The statements that have been uploaded since statements were last cleared. -/
  stored : List LoggedQuery
  /-- The keys that analyses have given to statements. -/
  assigned : List (String × LoggedQuery)
  /-- The records that have been answered since records were last cleared, each with the key that
  was asked for. -/
  applied : List (String × Json)

namespace Account

/-- Nothing is known. -/
def empty : Account := ⟨[], [], []⟩

/-- Takes note of a visit on the disk `d`, if its command succeeds. -/
def note (v : Visit) (d : Disk) (A : Account) : Account :=
  match (v.run d).1 with
  | .error _ => A
  | .ok answer =>
    match v.command.action with
    | .upload _ => { A with stored := A.stored ++ v.uploads d }
    | .analyze => { A with assigned := A.assigned ++ (answeredKeys answer).zip A.stored }
    | .apply queryKey _ => { A with applied := A.applied ++ [(queryKey, answer)] }
    | .clear false => { A with stored := [] }
    | .clear true => { A with applied := [] }
    | _ => A

/-- The account of a session that begins on the disk `d`. -/
def after (d : Disk) (A : Account) : List Visit → Account
  | [] => A
  | v :: vs => after (v.run d).2 (A.note v d) vs

/-- The records that were applied by a key of a statement. -/
def attributed (A : Account) (q : LoggedQuery) : List Json :=
  (A.applied.filter fun a => A.assigned.contains (a.1, q)).map Prod.snd

theorem after_concat (d : Disk) (A : Account) (vs : List Visit) (v : Visit) :
    A.after d (vs ++ [v]) = (A.after d vs).note v (Command.after d vs) := by
  induction vs generalizing d A with
  | nil => rfl
  | cons u vs ih => exact ih (u.run d).2 (A.note u d)

end Account

theorem uploaded_concat (d : Disk) (vs : List Visit) (v : Visit) :
    uploaded d (vs ++ [v]) = uploaded d vs ++ v.uploads (after d vs) := by
  induction vs generalizing d with
  | nil => exact List.append_nil _
  | cons u vs ih =>
      rw [List.cons_append, uploaded, ih, uploaded, List.append_assoc]
      rfl

/-- Logs and configurations that are apart from the data files are read as at first. -/
theorem Opens.uploaded_of_apart {d e : Disk} {dir : Path} {m : Place} {L : Ledger}
    (h : Opens d e dir m L) {vs : List Visit} (hvs : Under (fun c => c.dataPath = dir) d vs)
    (hconfig : ∀ v ∈ vs, Apart d e m v.command.config)
    (hlog : ∀ v ∈ vs, ∀ file, v.command.action = .upload file → Apart d e m file) :
    uploaded d vs = vs.flatMap fun v => v.uploads d := by
  induction vs using List.reverseRecOn with
  | nil => rfl
  | append_singleton vs v ih =>
      rw [under_concat] at hvs
      have hbefore := ih hvs.1 (fun u hu => hconfig u (List.mem_append_left _ hu))
        fun u hu => hlog u (List.mem_append_left _ hu)
      have hleaves := h.leaves_after hvs.1
      -- the visits before have changed data files only, and neither file is one of these
      have huploads : v.uploads (after d vs) = v.uploads d := by
        unfold Visit.uploads
        rw [hleaves.load (hconfig v (by simp))]
        cases haction : v.command.action with
        | upload file =>
            cases Config.load v.command.config d with
            | error fault => rfl
            | ok c =>
                have hload := hleaves.loadOn (c := c) (hlog v (by simp) file haction) v.surroundings
                simp only [hload]
        | _ => rfl
      rw [uploaded_concat, hbefore, huploads, List.flatMap_append, List.flatMap_singleton]

/-- The ids are there, have no hyphens and are different ones. -/
structure Fresh (qs : List LoggedQuery) : Prop where
  plain : ∀ q ∈ qs, ∃ id, q.id? = some id ∧ '-' ∉ id.toList
  nodup : (qs.map LoggedQuery.id?).Nodup

/-- A statement as a dashboard lists it, with these records under it. -/
def listing (q : LoggedQuery) (records : List Json) : Json := .object [
  ("id", match q.id? with
    | some id => .string id
    | none => .null),
  ("query", .string q.text),
  ("fileName", .string q.fileName),
  ("timestamp", .string q.timestamp),
  ("appliedIndexes", .array records)]

/-! ## Accounts and ledgers -/

theorem answeredKeys_analysisView (applied : AppliedSet) (b : Batch) (counters : Counters) :
    answeredKeys (analysisView applied b counters) = b.keys := by
  show (b.keys.map Json.string).filterMap text? = b.keys
  rw [List.filterMap_map]
  exact List.filterMap_some

/-- Each key of a batch with the query that has it. -/
theorem zip_keysFrom (n : Nat) (qs : List LoggedQuery) :
    (LoggedQuery.keysFrom n qs).zip qs = (qs.zipIdx n).map fun e => (e.1.key e.2, e.1) := by
  induction qs generalizing n with
  | nil => rfl
  | cons q qs ih =>
      rw [LoggedQuery.keysFrom_cons, List.zip_cons_cons, ih, List.zipIdx_cons, List.map_cons]

theorem exists_of_mem_zip_keysFrom {n : Nat} {qs : List LoggedQuery} {e : String × LoggedQuery}
    (h : e ∈ (LoggedQuery.keysFrom n qs).zip qs) : e.2 ∈ qs ∧ ∃ i, e.1 = e.2.key i := by
  rw [zip_keysFrom] at h
  obtain ⟨⟨q, i⟩, hmem, rfl⟩ := List.mem_map.mp h
  obtain ⟨-, -, hq⟩ := List.mem_zipIdx hmem
  exact ⟨hq ▸ List.getElem_mem _, i, rfl⟩

theorem exists_mem_zip_keysFrom {n : Nat} {qs : List LoggedQuery} {queryKey : String}
    (h : queryKey ∈ LoggedQuery.keysFrom n qs) :
    ∃ q, (queryKey, q) ∈ (LoggedQuery.keysFrom n qs).zip qs := by
  obtain ⟨e, he, rfl⟩ := List.mem_map.mp h
  refine ⟨e.1, ?_⟩
  rw [zip_keysFrom]
  exact List.mem_map_of_mem he

/-- The account of a session agrees with the ledger after it, for the principal whose session it is.
Every key in the last analysis and every record has a statement among those that `qs` lists. -/
structure Tallies (principal : String) (qs : List LoggedQuery) (L : Ledger) (A : Account) :
    Prop where
  stored : L.queriesOf principal = A.stored
  applied : (L.appliedOf principal).map (fun a => (a.queryKey, AppliedIndex.layout.toJson a)) =
    A.applied
  uploads : ∀ q ∈ A.stored, q ∈ qs
  assigned : ∀ e ∈ A.assigned, e.2 ∈ qs ∧ ∃ i, e.1 = e.2.key i
  known : ∀ a ∈ L.appliedOf principal, ∃ q, (a.queryKey, q) ∈ A.assigned
  batch : ∀ b, L.batch = .ok b → ∀ queryKey ∈ b.keys, ∃ q, (queryKey, q) ∈ A.assigned

namespace Tallies

theorem empty (principal : String) : Tallies principal [] .empty .empty where
  stored := rfl
  applied := rfl
  uploads _ hq := absurd hq List.not_mem_nil
  assigned _ he := absurd he List.not_mem_nil
  known _ ha := absurd ha List.not_mem_nil
  batch _ hb := by cases hb

variable {principal : String} {qs : List LoggedQuery} {L : Ledger} {A : Account}

/-- More statements do no harm. -/
theorem more (h : Tallies principal qs L A) (qs' : List LoggedQuery) :
    Tallies principal (qs ++ qs') L A where
  stored := h.stored
  applied := h.applied
  uploads q hq := List.mem_append_left _ (h.uploads q hq)
  assigned e he := ⟨List.mem_append_left _ (h.assigned e he).1, (h.assigned e he).2⟩
  known := h.known
  batch := h.batch

theorem upload (h : Tallies principal qs L A) (qs' : List LoggedQuery) :
    Tallies principal (qs ++ qs') { L with queries := L.queries ++ qs'.map fun q => (principal, q) }
      { A with stored := A.stored ++ qs' } where
  stored := by
    rw [Ledger.queriesOf, recordsOf_append_self, ← h.stored]
    rfl
  applied := h.applied
  uploads q hq := by
    rcases List.mem_append.mp hq with hq | hq
    · exact List.mem_append_left _ (h.uploads q hq)
    · exact List.mem_append_right _ hq
  assigned := (h.more qs').assigned
  known := h.known
  batch := h.batch

theorem analyze (h : Tallies principal qs L A) (c : Config) (entropy : UInt64) :
    let r := Ledger.analysis c entropy (L.queriesOf principal)
    Tallies principal qs
      { L with analysis? := some (Text.Utf8.encode (Bundle.layout.list.write r.1.bundles)) }
      { A with assigned := A.assigned ++ r.1.keys.zip A.stored } := by
  intro r
  -- the keys of an analysis are those of the stored statements, all of which were uploaded
  have hkeys : r.1.keys = LoggedQuery.keysFrom 0 A.stored := by
    rw [← h.stored]
    exact Analyzer.keys_analyzeBatch _ _
  refine ⟨h.stored, h.applied, h.uploads, ?_, ?_, ?_⟩
  · intro e he
    rcases List.mem_append.mp he with he | he
    · exact h.assigned e he
    · rw [hkeys] at he
      obtain ⟨hq, hkey⟩ := exists_of_mem_zip_keysFrom he
      exact ⟨h.uploads _ hq, hkey⟩
  · intro a ha
    obtain ⟨q, hq⟩ := h.known a ha
    exact ⟨q, List.mem_append_left _ hq⟩
  · intro b hb queryKey hmem
    rw [Ledger.batch_of_analysis] at hb
    obtain rfl := Except.ok.inj hb
    rw [hkeys] at hmem ⊢
    obtain ⟨q, hq⟩ := exists_mem_zip_keysFrom hmem
    exact ⟨q, List.mem_append_right _ hq⟩

theorem apply (h : Tallies principal qs L A) {queryKey now : String} {id : UInt32}
    {record : AppliedIndex} (hoffer : L.offer principal queryKey id now = .ok (some record)) :
    Tallies principal qs { L with applied := L.applied ++ [(principal, record)] }
      { A with applied := A.applied ++ [(queryKey, AppliedIndex.layout.toJson record)] } := by
  obtain ⟨-, b, hb, hrecord⟩ := Ledger.offer_eq_some hoffer
  obtain ⟨hkey, -⟩ := Prod.mk.inj (Batch.key_of_application hrecord)
  have hadded : recordsOf (L.applied ++ [(principal, record)]) principal =
      L.appliedOf principal ++ [record] := recordsOf_append_self L.applied [record]
  refine ⟨h.stored, ?_, h.uploads, h.assigned, ?_, h.batch⟩
  · rw [Ledger.appliedOf, hadded, List.map_append, h.applied, ← hkey]
    rfl
  · intro a ha
    rw [Ledger.appliedOf, hadded] at ha
    rcases List.mem_append.mp ha with ha | ha
    · exact h.known a ha
    · -- The key stands in the last analysis, so it has been assigned.
      obtain rfl := List.mem_singleton.mp ha
      obtain ⟨r, hchoose, -⟩ := Batch.application_eq_ok_iff.mp hrecord
      obtain ⟨x, hx, -⟩ := Batch.choose_eq_ok_iff.mp hchoose
      rw [hkey]
      exact h.batch b hb _ (((Ledger.inStep_of_batch hb).mem_keys_iff _).mpr
        (Option.isSome_of_eq_some hx))

theorem clearQueries (h : Tallies principal qs L A) :
    Tallies principal qs
      { L with queries := L.queries.filter fun e => e.1 != principal, analysis? := none }
      { A with stored := [] } where
  stored := recordsOf_filter_self L.queries
  applied := h.applied
  uploads _ hq := absurd hq List.not_mem_nil
  assigned := h.assigned
  known := h.known
  batch _ hb := by cases hb

theorem clearApplied (h : Tallies principal qs L A) :
    Tallies principal qs { L with applied := L.applied.filter fun e => e.1 != principal }
      { A with applied := [] } where
  stored := h.stored
  applied := by
    rw [Ledger.appliedOf, recordsOf_filter_self]
    rfl
  uploads := h.uploads
  assigned := h.assigned
  known a ha := by
    rw [Ledger.appliedOf, recordsOf_filter_self] at ha
    exact absurd ha List.not_mem_nil
  batch := h.batch

/-- **One visit** of the principal. -/
theorem visit (h : Tallies principal qs L A) {v : Visit} {d : Disk}
    (hv : v.Under (fun c => c.principal = principal) d)
    (hanswer : (v.run d).1 = (L.visit v d).1) :
    Tallies principal (qs ++ v.uploads d) (L.visit v d).2 (A.note v d) := by
  rw [Account.note, hanswer]
  cases hload : Config.load v.command.config d with
  | error fault =>
      rw [Ledger.visit, hload]
      exact h.more _
  | ok c =>
      obtain rfl := hv c hload
      rw [Ledger.visit_of_load hload]
      cases haction : v.command.action with
      | upload file =>
          simp only [Visit.uploads, haction, hload, Ledger.act]
          cases loadOn c v.surroundings d file with
          | error e => exact h.more _
          | ok qs' => exact h.upload qs'
      | analyze =>
          simp only [Ledger.act, answeredKeys_analysisView]
          exact (h.analyze c _).more _
      | apply queryKey id =>
          simp only [Ledger.act]
          cases hoffer : L.offer c.principal queryKey id v.surroundings.now with
          | error e => exact h.more _
          | ok r =>
              cases r with
              | none => exact h.more _
              | some record => exact (h.apply hoffer).more _
      | clear appliedIndexes =>
          cases appliedIndexes with
          | false => exact h.clearQueries.more _
          | true => exact h.clearApplied.more _
      | _ => exact h.more _

/-- **A session** of the principal. -/
theorem after {d e : Disk} {dir : Path} {m : Place} (hopens : Opens d e dir m .empty)
    {vs : List Visit} (hvs : Under (fun c => c.dataPath = dir ∧ c.principal = principal) d vs) :
    Tallies principal (uploaded d vs) (Ledger.empty.after d vs) (Account.empty.after d vs) := by
  induction vs using List.reverseRecOn with
  | nil => exact empty principal
  | append_singleton vs v ih =>
      have hanswer := hopens.answer_after (hvs.mono fun c hc => hc.1)
      rw [under_concat] at hvs
      rw [uploaded_concat, Ledger.after_concat, Account.after_concat]
      exact (ih hvs.1).visit (hvs.2.mono fun c hc => hc.2) hanswer

/-- With fresh ids, the key of a record begins with the id of a statement exactly if it is a key of
that statement. -/
theorem idOfKey_eq_iff (h : Tallies principal qs L A) (hfresh : Fresh qs) {q : LoggedQuery}
    (hq : q ∈ A.stored) {id : String} (hid : q.id? = some id) {a : AppliedIndex}
    (ha : a ∈ L.appliedOf principal) :
    idOfKey a.queryKey = id ↔ (a.queryKey, q) ∈ A.assigned := by
  have hkey {q' : LoggedQuery} (hq' : (a.queryKey, q') ∈ A.assigned) :
      q' ∈ qs ∧ q'.id? = some (idOfKey a.queryKey) := by
    obtain ⟨hmem, i, hi⟩ := h.assigned _ hq'
    obtain ⟨id', hid', hplain⟩ := hfresh.plain q' hmem
    refine ⟨hmem, ?_⟩
    rw [hid', show a.queryKey = q'.key i from hi, LoggedQuery.idOfKey_key hid' hplain]
  constructor
  · rintro rfl
    obtain ⟨q', hq'⟩ := h.known a ha
    obtain ⟨hmem, hid'⟩ := hkey hq'
    obtain rfl := List.inj_on_of_nodup_map hfresh.nodup hmem (h.uploads q hq) (hid'.trans hid.symm)
    exact hq'
  · intro hq
    exact Option.some.inj ((hkey hq).2.symm.trans hid)

/-- What is shown under a statement is what the account attributes to it. -/
theorem queryView_eq (h : Tallies principal qs L A) (hfresh : Fresh qs) {q : LoggedQuery}
    (hq : q ∈ A.stored) :
    queryView (L.appliedOf principal) q = listing q (A.attributed q) := by
  obtain ⟨id, hid, -⟩ := hfresh.plain q (h.uploads q hq)
  have hattributed : A.attributed q =
      ((L.appliedOf principal).filter fun a => idOfKey a.queryKey == id).map
        AppliedIndex.layout.toJson := by
    rw [Account.attributed, ← h.applied, List.filter_map, List.map_map]
    congr 1
    refine List.filter_congr fun a ha => ?_
    rw [Bool.eq_iff_iff, beq_iff_eq, h.idOfKey_eq_iff hfresh hq hid ha]
    exact List.contains_iff_mem
  rw [queryView, listing, hattributed, LoggedQuery.applied, hid, Json.Layout.list_toJson]

end Tallies

/-- **Applied indexes are listed under their own statements.** One principal works in a data
directory that was empty at first, and the statements that are uploaded get fresh ids. Then a
dashboard lists the statements that have been uploaded since statements were last cleared, and under
each of them the records, in the order in which they were applied, that were answered since records
were last cleared to whom applied a key that some analysis had given to that statement. -/
theorem dashboard_after {d e : Disk} {dir : Path} {m : Place} (h : Opens d e dir m .empty)
    {principal : String} {vs : List Visit} {v : Visit}
    (hvs : Under (fun c => c.dataPath = dir ∧ c.principal = principal) d (vs ++ [v]))
    (hfresh : Fresh (uploaded d vs)) (hv : v.command.action = .dashboard) {c : Config}
    (hload : Config.load v.command.config (after d vs) = .ok c) :
    let A := Account.empty.after d vs
    ∃ metrics, (v.run (after d vs)).1 = .ok (.object [
      ("metrics", metrics),
      ("queries", .array (A.stored.map fun q => listing q (A.attributed q)))]) := by
  intro A
  have hanswer := h.answer_after (hvs.mono fun c hc => hc.1)
  rw [under_concat] at hvs
  have htallies := Tallies.after h hvs.1
  obtain ⟨-, rfl⟩ := hvs.2 c hload
  have hviews := List.map_congr_left fun q hq => htallies.queryView_eq hfresh (q := q) hq
  rw [hanswer, Ledger.visit_of_load hload, hv]
  simp only [Ledger.act, dashboardView, htallies.stored, hviews]
  exact ⟨_, rfl⟩

/-! ### Ada and her log -/

/-- A visit of Ada in which fresh ids begin with a letter. -/
def letterVisit (letter : String) (action : Action) : Visit :=
  ⟨⟨⟨"ada"⟩, action⟩, ⟨"now", "0", fun k => letter ++ toString k, 0⟩⟩

/-- Ada clears her statements and uploads them again. -/
def twoUploads : List Visit :=
  [letterVisit "a" (.upload ⟨"log.txt"⟩), letterVisit "a" .analyze,
    letterVisit "a" (.apply "a0-0" 1), letterVisit "a" (.clear false),
    letterVisit "b" (.upload ⟨"log.txt"⟩), letterVisit "b" .analyze,
    letterVisit "b" (.apply "b1-1" 1)]

/-- Ada is the only one there. -/
theorem config_of_mem_twoUploads : ∀ v ∈ twoUploads, v.command.config = ⟨"ada"⟩ := by
  simp [twoUploads, letterVisit]

theorem under_twoUploads (v : Visit) (hv : v.command.config = ⟨"ada"⟩) :
    Under (fun c => c.dataPath = ⟨"data"⟩ ∧ c.principal = "ada") logDisk (twoUploads ++ [v]) := by
  refine under_log fun u hu => Or.inl ⟨?_, rfl⟩
  rcases List.mem_append.mp hu with hu | hu
  · exact config_of_mem_twoUploads u hu
  · exact List.mem_singleton.mp hu ▸ hv

theorem fresh_twoUploads : Fresh (uploaded logDisk twoUploads) := by
  have hids : ((twoUploads.flatMap fun v => v.uploads logDisk).map LoggedQuery.id?) =
      [some "a0", some "a1", some "b0", some "b1"] := by decide +kernel
  have hunder := (under_concat.mp (under_twoUploads (letterVisit "a" .analyze) rfl)).1
  rw [opens_log.uploaded_of_apart (hunder.mono fun c hc => hc.1)]
  · refine ⟨fun q hq => ?_, by rw [hids]; decide⟩
    have hid := List.mem_map_of_mem (f := LoggedQuery.id?) hq
    rw [hids] at hid
    simp only [List.mem_cons, List.not_mem_nil, or_false] at hid
    rcases hid with hid | hid | hid | hid <;> exact ⟨_, hid, by decide⟩
  · intro v hv
    rw [config_of_mem_twoUploads v hv]
    exact apart_log (by decide)
  · intro v hv file haction
    have hfile : file = ⟨"log.txt"⟩ := by
      revert v
      simp +contextual [twoUploads, letterVisit, eq_comm]
    rw [hfile]
    exact apart_log (by decide)

/-- After the second upload the dashboard lists two statements, and under the second one what was
applied by its key. -/
theorem dashboard_after_twoUploads :
    let A := Account.empty.after logDisk twoUploads
    ∃ metrics, ((letterVisit "b" .dashboard).run (after logDisk twoUploads)).1 = .ok (.object [
      ("metrics", metrics),
      ("queries", .array (A.stored.map fun q => listing q (A.attributed q)))]) := by
  have hunder := under_twoUploads (letterVisit "b" .dashboard) rfl
  have hload : Config.load ⟨"ada"⟩ (after logDisk twoUploads) = .ok (pairConfig "ada") := by
    have hleaves := opens_log.leaves_after ((under_concat.mp hunder).1.mono fun c hc => hc.1)
    rw [hleaves.load (apart_log (by decide))]
    decide +kernel
  exact dashboard_after opens_log hunder fresh_twoUploads rfl hload

end IndexAdvisor.Command
