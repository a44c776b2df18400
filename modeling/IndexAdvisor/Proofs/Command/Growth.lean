import IndexAdvisor.Proofs.Analysis.Growth
import IndexAdvisor.Proofs.Command.Shown
import IndexAdvisor.Proofs.Store.Additions

/-!
# Analyses of a log that grows

As long as nobody removes statements from a directory, its file of logged queries only gets further
lines. Under the same seed a later analysis then shows all that an earlier one has shown, in front
of what it shows besides. A key and a number that were applied still stand for the same
recommendation.
-/

set_option autoImplicit false

namespace IndexAdvisor.Command

open IndexAdvisor.Analysis
open IndexAdvisor.Random
open IndexAdvisor.Store

/-! ## Queries that are listed at different times -/

/-- An entry without the time at which its query was logged. -/
def undatedEntry (e : Entry LoggedQuery) : Entry LoggedQuery := ⟨e.principal, e.record.undated⟩

/-- A query that comes without a time gets that of the run that reads it. -/
theorem exists_readEntry_undated {now : String} (later : String) {p : Nat × List Char}
    {e : Entry LoggedQuery} (h : readEntry (LoggedQuery.layout now) p = .ok e) :
    ∃ e', readEntry (LoggedQuery.layout later) p = .ok e' ∧ undatedEntry e' = undatedEntry e := by
  obtain ⟨v, hread, rfl⟩ := map_eq_ok_iff.mp (readEntry_eq_ok_iff.mp h)
  -- both layouts have one shape
  have hlater : Json.readWhole
      ((Entry.layout (LoggedQuery.layout later)).shape.read Json.maxNesting) p.2 = .ok v := hread
  exact ⟨_, readEntry_eq_ok_iff.mpr (map_eq_ok_iff.mpr ⟨v, hlater, rfl⟩), rfl⟩

theorem exists_mapM_undated {now : String} (later : String) {ps : List (Nat × List Char)}
    {es : List (Entry LoggedQuery)} (h : ps.mapM (readEntry (LoggedQuery.layout now)) = .ok es) :
    ∃ es', ps.mapM (readEntry (LoggedQuery.layout later)) = .ok es' ∧
      es'.map undatedEntry = es.map undatedEntry := by
  induction ps generalizing es with
  | nil =>
      cases h
      exact ⟨[], rfl, rfl⟩
  | cons p ps ih =>
      rw [List.mapM_cons] at h
      obtain ⟨e, he, h⟩ := bind_eq_ok_iff.mp h
      obtain ⟨rest, hrest, h⟩ := bind_eq_ok_iff.mp h
      cases h
      obtain ⟨e', he', hsame⟩ := exists_readEntry_undated later he
      obtain ⟨rest', hrest', hsame'⟩ := ih hrest
      refine ⟨e' :: rest', ?_, ?_⟩
      · rw [List.mapM_cons, he', hrest']
        rfl
      · rw [List.map_cons, List.map_cons, hsame, hsame']

/-- The entries of a file are the same at any time, but for the times of their queries. -/
theorem exists_entries_undated {now : String} (later : String) {bytes : List UInt8}
    {es : List (Entry LoggedQuery)} (h : entries (LoggedQuery.layout now) bytes = .ok es) :
    ∃ es', entries (LoggedQuery.layout later) bytes = .ok es' ∧
      es'.map undatedEntry = es.map undatedEntry := by
  obtain ⟨ps, hps, hread⟩ := entries_eq_ok_iff.mp h
  obtain ⟨es', hread', hsame⟩ := exists_mapM_undated later hread
  exact ⟨es', entries_eq_ok_iff.mpr ⟨ps, hps, hread'⟩, hsame⟩

/-- The queries of a principal among some entries. -/
def queriesAmong (principal : String) (es : List (Entry LoggedQuery)) : List LoggedQuery :=
  (es.filter fun e => e.principal == principal).map Entry.record

theorem queriesAmong_undated (principal : String) (es : List (Entry LoggedQuery)) :
    queriesAmong principal (es.map undatedEntry) =
      (queriesAmong principal es).map LoggedQuery.undated := by
  rw [queriesAmong, queriesAmong, List.filter_map, List.map_map, List.map_map]
  rfl

/-- **A principal keeps the queries** of a file to which lines are added, in front of all others. -/
theorem queriesAmong_isPrefix (principal : String) {now later : String} {bytes : List UInt8}
    {ps : List (List Char)} (hplain : ∀ p ∈ ps, Plain p) {es es' : List (Entry LoggedQuery)}
    (hes : entries (LoggedQuery.layout now) bytes = .ok es)
    (hes' : entries (LoggedQuery.layout later) (bytes ++ ps.flatMap sealedLine) = .ok es') :
    (queriesAmong principal es).map LoggedQuery.undated <+:
      (queriesAmong principal es').map LoggedQuery.undated := by
  -- the second run reads at another time, so the entries are compared under the layout of the
  -- first
  obtain ⟨es₁, hes₁, hsame⟩ := exists_entries_undated now hes'
  have hfirst : es <+: es₁ := entries_isPrefix hplain hes hes₁
  rw [← queriesAmong_undated, ← queriesAmong_undated, ← hsame]
  exact ((hfirst.map undatedEntry).filter _).map _

/-! ## Batches -/

/-- The times at which queries were logged are not shown. -/
theorem batchShown_undated (qs : List LoggedQuery) (a : Analyzer Seeded) :
    batchShown (Analyzer.analyzeBatch (qs.map LoggedQuery.undated) a).1 =
      batchShown (Analyzer.analyzeBatch qs a).1 := by
  rw [batchShown, Analyzer.bundles_undated, List.map_map]
  rfl

/-- What is shown of some queries is shown of more queries. -/
theorem batchShown_isPrefix {xs ys : List LoggedQuery} {a b : Analyzer Seeded}
    (h : xs.map LoggedQuery.undated <+: ys.map LoggedQuery.undated)
    (hsource : a.source = b.source) :
    batchShown (Analyzer.analyzeBatch xs a).1 <+: batchShown (Analyzer.analyzeBatch ys b).1 := by
  rw [← batchShown_undated xs, ← batchShown_undated ys]
  obtain ⟨more, hmore⟩ := h
  rw [← hmore]
  exact (Analyzer.bundles_isPrefix _ more hsource).map _

section Prefix

variable {before later : List (String × List Recommendation)} (h : before <+: later)
  {queryKey : String} (hkey : queryKey ∈ before.map Prod.fst)

include h hkey

/-- A key that was shown stands for the same when more is shown behind it. -/
theorem lookup_of_isPrefix : later.lookup queryKey = before.lookup queryKey := by
  obtain ⟨more, rfl⟩ := h
  obtain ⟨recommendations, hfound⟩ : ∃ r, before.lookup queryKey = some r := by
    rw [← Option.ne_none_iff_exists']
    intro hnone
    rw [List.lookup_eq_none_iff] at hnone
    obtain ⟨x, hx, rfl⟩ := List.mem_map.mp hkey
    simpa using hnone x hx
  rw [List.lookup_append, hfound, Option.some_or]

/-- What was shown is applied as before. -/
theorem verdict_of_isPrefix (records : List AppliedIndex) (id : UInt32) (now : String) :
    verdict later records queryKey id now = verdict before records queryKey id now := by
  rw [verdict, verdict, lookup_of_isPrefix h hkey]

end Prefix

/-! ## Disks whose files grow -/

/-- The file at the place, if there is one, has only got sealed lines behind what it held. -/
def Lengthened (l : Place) (d e : Disk) : Prop :=
  ∀ bytes, d.node? l = some (.file bytes) → ∃ ps : List (List Char), (∀ p ∈ ps, Plain p) ∧
    e.node? l = some (.file (bytes ++ ps.flatMap sealedLine))

namespace Lengthened

variable {l : Place} {c d e : Disk}

theorem of_file_iff
    (h : ∀ {bytes}, e.node? l = some (.file bytes) ↔ d.node? l = some (.file bytes)) :
    Lengthened l d e := fun bytes hfile =>
  ⟨[], fun _ hp => (List.not_mem_nil hp).elim, by
    rw [List.flatMap_nil, List.append_nil]
    exact h.mpr hfile⟩

theorem refl (l : Place) (d : Disk) : Lengthened l d d := of_file_iff Iff.rfl

theorem of_sameFiles (h : d.SameFiles e) : Lengthened l d e := of_file_iff h.file_iff

theorem trans (h : Lengthened l c d) (k : Lengthened l d e) : Lengthened l c e := by
  intro bytes hfile
  obtain ⟨ps, hps, hd⟩ := h bytes hfile
  obtain ⟨qs, hqs, he⟩ := k _ hd
  refine ⟨ps ++ qs, fun p hp => (List.mem_append.mp hp).elim (hps p) (hqs p), ?_⟩
  rw [he, List.flatMap_append, List.append_assoc]

/-- Lines are added to a file, which need not be the one at the place. -/
theorem put {m : Place} (hm : d.node? m ≠ some .directory) {ps : List (List Char)}
    (hps : ∀ p ∈ ps, Plain p) :
    Lengthened l d (d.put m (.file (d.bytesAt m ++ ps.flatMap sealedLine))) := by
  by_cases hl : l = m
  · subst hl
    intro bytes hfile
    refine ⟨ps, hps, ?_⟩
    rw [Disk.node?_put_self d _ (Disk.ne_root_of_node? hm), Disk.bytesAt, hfile]
  · exact of_file_iff (by rw [Disk.node?_put_of_ne d _ hl])

end Lengthened

namespace Step

variable {α β : Type}

/-- The step adds sealed lines to files, if it changes any. -/
def Lengthens (x : Step α) : Prop :=
  ∀ (l : Place) (s : Surroundings) (w : World), Lengthened l w.disk (x.exec s w).2.disk

theorem Quiet.lengthens {x : Step α} (h : Quiet x) : Lengthens x := fun _ s w =>
  .of_sameFiles (h s w)

theorem Lengthens.bind {x : Step α} {f : α → Step β} (hx : Lengthens x)
    (hf : ∀ a, Lengthens (f a)) : Lengthens (x >>= f) := fun l s w =>
  exec_bind_induction (R := Lengthened l) Lengthened.trans (hx l s w) fun a v _ => hf a l s v

theorem lengthens_insertAll (f : Store.File α) (principal : String) (records : List α) :
    Lengthens (insertAll f principal records) := by
  intro l s w
  cases hinsert : f.insertAll principal records w.disk with
  | error fault =>
      rw [(yields_insertAll_error hinsert w rfl).2]
      exact .refl l w.disk
  | ok e =>
      rw [(yields_insertAll hinsert w rfl).2]
      by_cases hne : records = []
      · subst hne
        cases hinsert
        exact .refl l w.disk
      · obtain ⟨-, m, hm, rfl⟩ := names_of_insertAll hne hinsert
        rw [flatMap_line]
        exact .put hm.node_ne (plain_of_mem_payloads principal records)

end Step

open Step

theorem lengthens_upload (c : Config) (file : Path) : Lengthens (upload c file) := by
  refine quiet_get.lengthens.bind fun w => quiet_read.lengthens.bind fun s => ?_
  refine .bind (quiet_orFail _ _).lengthens fun queries => ?_
  refine .bind (quiet_modify fun _ => rfl).lengthens fun _ => ?_
  refine quiet_queryStore.lengthens.bind fun f => ?_
  refine (lengthens_insertAll f c.principal queries).bind fun _ => ?_
  exact ((quiet_logEvent _ _).bind fun _ => quiet_pure _).lengthens

/-! ## Sessions that remove no statements -/

/-- A visit that removes statements does so in another directory than `dir`. -/
def Visit.SparesLog (dir : Path) (v : Visit) (d : Disk) : Prop :=
  v.command.action = .clear false →
    v.Under (fun c => (v.run d).2.locate c.dataPath ≠ (v.run d).2.locate dir) d

/-- Nobody removes statements from the directory during a session. -/
def SparesLog (dir : Path) (d : Disk) : List Visit → Prop
  | [] => True
  | v :: vs => v.SparesLog dir d ∧ SparesLog dir (v.run d).2 vs

/-- The logged queries are changed where some are added or removed. -/
theorem logs_or_clears_of_touchedNames {a : Action} (h : "queries.jsonl" ∈ touchedNames a) :
    (∃ file, a = .upload file) ∨ a = .clear false := by
  cases a with
  | upload file => exact .inl ⟨file, rfl⟩
  | clear appliedIndexes =>
      cases appliedIndexes with
      | false => exact .inr rfl
      | true => simp [touchedNames] at h
  | _ => simp [touchedNames] at h

/-- **One visit** adds to the logged queries of a directory or leaves them alone. -/
theorem Visit.lengthened {dir : Path} {v : Visit} {d : Disk} (h : v.SparesLog dir d)
    (hdir : dir.text ≠ "") {l : Place}
    (hl : (v.run d).2.locate (dir.child "queries.jsonl") = .ok l) :
    Lengthened l d (v.run d).2 := by
  cases hload : Config.load v.command.config d with
  | error fault =>
      rw [Visit.run_of_error hload]
      exact .refl l d
  | ok c =>
      -- a visit that changes this file works in this directory, however that is spelled
      by_cases htouched : ∃ p ∈ touched c v.command.action, (v.run d).2.locate p = .ok l
      · obtain ⟨p, hp, hlocate⟩ := htouched
        obtain ⟨name, hname, rfl⟩ := List.mem_map.mp hp
        obtain ⟨rfl, hsame⟩ := Disk.eq_of_locate_child (dataPath_ne_of_load hload) hdir
          (isName_of_mem (mem_dataNames_of_touchedNames hname)) (isName_of_mem (by decide))
          hlocate hl
        rcases logs_or_clears_of_touchedNames hname with ⟨file, haction⟩ | haction
        · obtain ⟨journal, hrun⟩ := Visit.run_of_load hload
          rw [hrun, haction]
          exact lengthens_upload c file l v.surroundings ⟨d, journal, 0⟩
        · exact absurd hsame (h haction c hload)
      · push Not at htouched
        exact .of_file_iff ((Visit.sameBut hload).file_iff htouched)

/-- **The logged queries grow** while nobody removes any. -/
theorem lengthened_after {dir : Path} {d : Disk} {vs : List Visit} (h : SparesLog dir d vs)
    (hdir : dir.text ≠ "") {l : Place} (hl : d.locate (dir.child "queries.jsonl") = .ok l) :
    Lengthened l d (after d vs) := by
  induction vs generalizing d with
  | nil => exact .refl l d
  | cons v vs ih =>
      have hl' := (v.keeps d).locate hl
      exact (Visit.lengthened h.1 hdir hl').trans (ih h.2 hl')

/-! ## Analyses -/

/-- The visit analyzes on this disk, under this configuration, and this is what is answered. -/
structure Visit.Analyzes (v : Visit) (c : Config) (d : Disk) (answer : Json) : Prop where
  loaded : Config.load v.command.config d = .ok c
  analyzes : v.command.action = .analyze
  answered : (v.run d).1 = .ok answer

theorem content_of_locate {α : Type} {f : File α} {d : Disk} {l : Place} {bytes : List UInt8}
    (hl : d.locate f.path = .ok l) (hfile : d.node? l = some (.file bytes)) :
    f.content d = .ok bytes := by
  have hread : d.readBytes f.path = .ok bytes := by
    simp only [Disk.readBytes, hl, hfile, bind, Except.bind]
  rw [File.content, hread]
  rfl

/-- The content of a file that can be read is what is found at its place, or nothing. -/
theorem eq_nil_or_exists_of_content {α : Type} {f : File α} {d : Disk} {bytes : List UInt8}
    (h : f.content d = .ok bytes) :
    bytes = [] ∨ ∃ l, d.locate f.path = .ok l ∧ d.node? l = some (.file bytes) := by
  rw [File.content] at h
  cases hread : d.readBytes f.path with
  | error fault =>
      rw [hread] at h
      cases fault <;> cases h
      exact .inl rfl
  | ok more =>
      rw [hread] at h
      obtain rfl : more = bytes := Except.ok.inj h
      obtain ⟨l, hl, hnode⟩ := bind_eq_ok_iff.mp hread
      refine .inr ⟨l, hl, ?_⟩
      split at hnode <;> cases hnode
      assumption

namespace Visit.Analyzes

variable {v : Visit} {c : Config} {d : Disk} {answer : Json}

theorem sparesLog (h : v.Analyzes c d answer) (dir : Path) : v.SparesLog dir d := by
  intro hclear
  rw [h.analyzes] at hclear
  cases hclear

/-- An analysis shows what it finds out about the queries that were in the file before it. -/
theorem exists_log (h : v.Analyzes c d answer) :
    ∃ (e : Disk) (bytes : List UInt8) (es : List (Entry LoggedQuery)) (a : Analyzer Seeded),
      d.SameFiles e ∧ e.Keeps (v.run d).2 ∧
      (queryFile c v.surroundings.now).content e = .ok bytes ∧
      entries (LoggedQuery.layout v.surroundings.now) bytes = .ok es ∧
      a.source = .ofSeed (c.seed.getD v.surroundings.entropy) ∧
      shown answer = batchShown (Analyzer.analyzeBatch (queriesAmong c.principal es) a).1 := by
  obtain ⟨w, w', rfl, hdisk, hexec⟩ := Visit.exec_of_analyze h.loaded h.analyzes h.answered
  obtain ⟨d₁, d₂, queries, records, a, counters, hsource, rfl, ⟨hsame, hlist⟩, ⟨hkeeps, -⟩,
    hprepare, -⟩ := analyze_eq_ok hexec
  obtain ⟨u, -, hread⟩ := bind_eq_ok_iff.mp hlist
  obtain ⟨bytes, hbytes, hread⟩ := bind_eq_ok_iff.mp hread
  obtain ⟨es, hes, hqueries⟩ := bind_eq_ok_iff.mp hread
  obtain rfl : queriesAmong c.principal es = queries := Except.ok.inj hqueries
  have hgrows := grows_prepare (appliedFile c) d₂
  rw [hprepare, hdisk] at hgrows
  exact ⟨d₁, bytes, es, a, hsame, hkeeps.trans hgrows.keeps, hbytes, hes, hsource,
    shown_analysisView _ _ _⟩

/-- **A later analysis shows** what was shown before, in front of all else. -/
theorem shown_isPrefix (h : v.Analyzes c d answer) {vs : List Visit}
    (hspares : Command.SparesLog c.dataPath (v.run d).2 vs) {u : Visit} {c' : Config}
    {answer' : Json} (h' : u.Analyzes c' (after d (v :: vs)) answer')
    (hdir : c'.dataPath = c.dataPath) (hprincipal : c'.principal = c.principal) {seed : UInt64}
    (hseed : c.seed = some seed) (hseed' : c'.seed = some seed) :
    shown answer <+: shown answer' := by
  obtain ⟨e, bytes, es, a, hsame, hkeeps, hbytes, hes, hsource, hshown⟩ := h.exists_log
  obtain ⟨e', bytes', es', a', hsame', -, hbytes', hes', hsource', hshown'⟩ := h'.exists_log
  rw [hshown, hshown', hprincipal]
  refine batchShown_isPrefix ?_ (by rw [hsource, hsource', hseed, hseed']; rfl)
  -- a file that was missing held no queries, so there is nothing to be shown again
  rcases eq_nil_or_exists_of_content hbytes with rfl | ⟨l, hl, hfile⟩
  · cases hes
    exact List.nil_prefix
  · have hdirectory : c.dataPath.text ≠ "" := dataPath_ne_of_load h.loaded
    have hl₁ : (v.run d).2.locate (c.dataPath.child "queries.jsonl") = .ok l := hkeeps.locate hl
    have hgrown : Lengthened l d (after d (v :: vs)) :=
      (Visit.lengthened (h.sparesLog c.dataPath) hdirectory hl₁).trans
        (lengthened_after hspares hdirectory hl₁)
    obtain ⟨ps, hps, hmore⟩ := hgrown bytes (hsame.file_iff.mp hfile)
    have hl₂ : e'.locate (queryFile c' u.surroundings.now).path = .ok l := by
      have hpath : (queryFile c' u.surroundings.now).path = c.dataPath.child "queries.jsonl" :=
        congrArg (Path.child · "queries.jsonl") hdir
      rw [hpath]
      exact hsame'.keeps.locate ((keeps_after (v.run d).2 vs).locate hl₁)
    have hcontent := content_of_locate hl₂ (hsame'.file_iff.mpr hmore)
    obtain rfl : bytes ++ ps.flatMap sealedLine = bytes' :=
      Except.ok.inj (hcontent.symm.trans hbytes')
    exact queriesAmong_isPrefix c.principal hps hes hes'

end Visit.Analyzes

/-- In a directory that was intact at first an analysis is always answered. It shows what is found
out about the queries of the ledger. -/
theorem Opens.exists_analyzes {d e : Disk} {dir : Path} {m : Place} {L : Ledger}
    (h : Opens d e dir m L) {vs : List Visit} {u : Visit}
    (hvs : Under (fun c => c.dataPath = dir) d (vs ++ [u])) {c : Config}
    (hload : Config.load u.command.config (after d vs) = .ok c)
    (haction : u.command.action = .analyze) : ∃ answer, u.Analyzes c (after d vs) answer ∧
      shown answer = batchShown (Ledger.analysis c u.surroundings.entropy
        ((L.after d vs).queriesOf c.principal)).1 := by
  have hanswer := h.answer_after hvs
  rw [Ledger.visit_of_load hload, haction] at hanswer
  exact ⟨_, ⟨hload, haction, hanswer⟩, shown_analysisView _ _ _⟩

/-- **Analyses are stable while the log grows.** Queries that are added to a batch leave the keys and
the bundles of the others as they are. So if somebody has analyzed under a seed and nobody has
removed statements from the directory since, then the principal's next analysis shows what was
shown, in front of all else. A key that was shown stands for the same recommendations, and to apply
a number under it comes to the same. In a directory that was intact at first there is an answer. -/
theorem analyses_stable :
    (∀ (σ : Type) [Source σ] (xs ys : List LoggedQuery) (a b : Analyzer σ), a.source = b.source →
      let before := (Analyzer.analyzeBatch xs a).1
      let later := (Analyzer.analyzeBatch (xs ++ ys) b).1
      before.bundles.length = xs.length ∧ later.keys.take xs.length = before.keys ∧
        later.bundles.take xs.length = before.bundles) ∧
    (∀ (d : Disk) (v u : Visit) (vs : List Visit) (c c' : Config) (answer : Json) (seed : UInt64),
      v.Analyzes c d answer → SparesLog c.dataPath (v.run d).2 vs →
      Config.load u.command.config (after d (v :: vs)) = .ok c' → u.command.action = .analyze →
      c'.dataPath = c.dataPath → c'.principal = c.principal →
      c.seed = some seed → c'.seed = some seed →
      (∀ answer', (u.run (after d (v :: vs))).1 = .ok answer' →
        shown answer <+: shown answer' ∧ ∀ queryKey ∈ (shown answer).map Prod.fst,
          (shown answer').lookup queryKey = (shown answer).lookup queryKey ∧
          ∀ (records : List AppliedIndex) (id : UInt32) (now : String),
            verdict (shown answer') records queryKey id now =
              verdict (shown answer) records queryKey id now) ∧
      ∀ e m L, Opens d e c.dataPath m L →
        Under (fun c'' => c''.dataPath = c.dataPath) d (v :: vs) →
          ∃ answer', (u.run (after d (v :: vs))).1 = .ok answer') := by
  refine ⟨?batches, ?sessions⟩
  case batches =>
    intro σ _ xs ys a b hsource before later
    have hlength : before.bundles.length = xs.length := Analyzer.length_bundles xs a
    have hbundles : later.bundles.take xs.length = before.bundles := by
      rw [← hlength]
      exact (List.prefix_iff_eq_take.mp (Analyzer.bundles_isPrefix xs ys hsource)).symm
    refine ⟨hlength, ?_, hbundles⟩
    rw [Analyzer.keys_eq_map_queryKey, ← List.map_take, hbundles, ← Analyzer.keys_eq_map_queryKey]
  case sessions =>
    intro d v u vs c c' answer seed h hspares hload hanalyze hdir hprincipal hseed hseed'
    refine ⟨fun answer' hanswer' => ?shown, fun e m L hopens hvs => ?answered⟩
    case shown =>
      have hfirst := h.shown_isPrefix hspares ⟨hload, hanalyze, hanswer'⟩ hdir hprincipal hseed
        hseed'
      exact ⟨hfirst, fun queryKey hkey =>
        ⟨lookup_of_isPrefix hfirst hkey, verdict_of_isPrefix hfirst hkey⟩⟩
    case answered =>
      have hunder : Under (fun c'' => c''.dataPath = c.dataPath) d (v :: vs ++ [u]) :=
        under_concat.mpr ⟨hvs, Visit.under_of_load hload hdir⟩
      obtain ⟨answer', hanalyzes, -⟩ := hopens.exists_analyzes hunder hload hanalyze
      exact ⟨answer', hanalyzes.answered⟩

/-- Ada and Bob upload a log between two analyses of Ada. She is shown again what she was shown
before, and to apply a number under its first key comes to the same. -/
theorem analyses_stable_uploads :
    let d := after logDisk [pairVisit "ada" (.upload ⟨"log.txt"⟩)]
    let v := pairVisit "ada" .analyze
    let vs := [pairVisit "bob" (.upload ⟨"log.txt"⟩), pairVisit "ada" (.upload ⟨"log.txt"⟩)]
    let x : LoggedQuery := ⟨none, "SELECT * FROM t WHERE a = 1", "", ""⟩
    let a : Analyzer Seeded := .start (.ofSeed 7) .empty
    (Analyzer.analyzeBatch ([x] ++ [x]) a).1.keys.take 1 = (Analyzer.analyzeBatch [x] a).1.keys ∧
    ∃ answer answer', (v.run d).1 = .ok answer ∧ (v.run (after d (v :: vs))).1 = .ok answer' ∧
      (shown answer).map Prod.fst = ["id-0", "id-1"] ∧ shown answer <+: shown answer' ∧
      verdict (shown answer') [] "id-0" 1 "now" = verdict (shown answer) [] "id-0" 1 "now" := by
  intro d v vs x a
  obtain ⟨hbatches, hsessions⟩ := analyses_stable
  refine ⟨(hbatches Seeded [x] [x] a a rfl).2.1, ?_⟩
  have hunder : Under (fun c => c.dataPath = ⟨"data"⟩) logDisk
      ([pairVisit "ada" (.upload ⟨"log.txt"⟩)] ++ v :: vs) :=
    (under_log (P := fun _ => True) (by simp [v, vs, pairVisit])).mono fun c hc => hc.1
  obtain ⟨hupload, hvs⟩ := under_append.mp hunder
  have hbefore := opens_log.leaves_after hupload
  have hload : Config.load ⟨"ada"⟩ d = .ok (pairConfig "ada") :=
    (hbefore.load (apart_log (by decide))).trans (by decide +kernel)
  have hload' : Config.load ⟨"ada"⟩ (after d (v :: vs)) = .ok (pairConfig "ada") := by
    have hafter : after logDisk ([pairVisit "ada" (.upload ⟨"log.txt"⟩)] ++ v :: vs) =
        after d (v :: vs) := List.foldl_append
    rw [← hafter, (opens_log.leaves_after hunder).load (apart_log (by decide))]
    decide +kernel
  obtain ⟨e, hopens, -⟩ := hbefore.opens opens_log
  have hfirst : Under (fun c => c.dataPath = ⟨"data"⟩) d ([] ++ [v]) := ⟨hvs.1, trivial⟩
  obtain ⟨answer, hanalyzes, hanswer⟩ := hopens.exists_analyzes hfirst hload rfl
  have hkeys : (shown answer).map Prod.fst = ["id-0", "id-1"] := by
    rw [hanswer]
    decide +kernel
  have hspares : SparesLog ⟨"data"⟩ (v.run d).2 vs := by
    simp [SparesLog, Visit.SparesLog, vs, pairVisit]
  obtain ⟨hshown, hanswered⟩ := hsessions d v v vs (pairConfig "ada") (pairConfig "ada") answer 1
    hanalyzes hspares hload' rfl rfl rfl rfl rfl
  obtain ⟨answer', hanswer'⟩ := hanswered e _ _ hopens hvs
  obtain ⟨hagain, hsame⟩ := hshown answer' hanswer'
  have hkey : "id-0" ∈ (shown answer).map Prod.fst := by simp [hkeys]
  exact ⟨answer, answer', hanalyzes.answered, hanswer', hkeys, hagain,
    (hsame "id-0" hkey).2 [] 1 "now"⟩

end IndexAdvisor.Command
