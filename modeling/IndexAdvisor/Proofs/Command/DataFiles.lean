import IndexAdvisor.Command.Run
import IndexAdvisor.Proofs.Disk.Children
import IndexAdvisor.Proofs.Store.Refinement

/-!
# The files of a data directory

A data directory holds the logged queries and the applied indexes, each with a file beside it for
the time of a replacement, and the last analysis. A `Ledger` says what is in these files, and
`Holds d dir m L` that the directory `dir`, found at the place `m` of the disk `d`, holds it. Each
operation of a command on the files is an operation on the ledger, and leaves the rest of the disk
as it is.
-/

set_option autoImplicit false

namespace IndexAdvisor.Command

open IndexAdvisor.Store

/-! ## Places -/

/-- The names of the files in a data directory. -/
def dataNames : List String :=
  ["queries.jsonl", "queries.tmp", "applied_indexes.jsonl", "applied_indexes.tmp",
    "last_analysis.json"]

/-- The places of the files in a data directory. -/
def dataPlaces (m : Place) : List Place := dataNames.map m.below

theorem below_mem_dataPlaces {name : String} (h : name ∈ dataNames) (m : Place) :
    m.below name ∈ dataPlaces m := List.mem_map_of_mem h

theorem below_ne_below {name other : String} (h : name ≠ other) (m : Place) :
    m.below name ≠ m.below other := fun heq => h (List.cons.inj (congrArg Place.way heq)).1

theorem isName_of_mem {name : String} (h : name ∈ dataNames) : Path.IsName name := by
  simp only [dataNames, List.mem_cons, List.not_mem_nil, or_false] at h
  rcases h with rfl | rfl | rfl | rfl | rfl <;> constructor <;> decide

/-- All names fit where the longest one does. -/
theorem short_of_mem {name : String} (h : name ∈ dataNames) :
    Char.ofNat 0 ∉ name.toList ∧ name.utf8ByteSize ≤ "applied_indexes.jsonl".utf8ByteSize := by
  simp only [dataNames, List.mem_cons, List.not_mem_nil, or_false] at h
  rcases h with rfl | rfl | rfl | rfl | rfl <;> decide

/-- The data directory is at a place of the disk, and all its files can be there. -/
structure Home (d : Disk) (dir : Path) (m : Place) : Prop extends d.IsHome dir m where
  accepted : Disk.accept (dir.child "applied_indexes.jsonl") = .ok ()
  node_ne : ∀ l ∈ dataPlaces m, d.node? l ≠ some .directory

namespace Home

variable {d e : Disk} {dir : Path} {m : Place} {name : String}

theorem accept_child (h : Home d dir m) (hname : name ∈ dataNames) :
    Disk.accept (dir.child name) = .ok () :=
  Disk.accept_child h.text_ne h.accepted (isName_of_mem (by decide)) (isName_of_mem hname)
    (short_of_mem hname).1 (short_of_mem hname).2

/-- The paths of the files name their places. -/
theorem names_child (h : Home d dir m) (hname : name ∈ dataNames) :
    d.Names (dir.child name) (m.below name) :=
  h.toIsHome.names (isName_of_mem hname) (h.accept_child hname)
    (Nat.le_trans (short_of_mem hname).2 (by decide)) (h.node_ne _ (below_mem_dataPlaces hname m))

theorem makeDirectories_dir (h : Home d dir m) : d.makeDirectories dir = (.ok (), d) :=
  h.toIsHome.makeDirectories
    (Disk.accept_of_child h.text_ne (isName_of_mem (by decide)) h.accepted)

theorem makeDirectories_parent (h : Home d dir m) (hname : name ∈ dataNames) :
    d.makeDirectories (dir.child name).parent = (.ok (), d) :=
  h.toIsHome.makeDirectories_parent (isName_of_mem hname) (h.accept_child hname)

/-- Changed files leave the directory there. -/
theorem mono (h : Home d dir m) (hsame : d.SameOutside (dataPlaces m) e) : Home e dir m where
  toIsHome := h.toIsHome.mono hsame.keeps
  accepted := h.accepted
  node_ne l hl := (hsame.ne_directory l hl).2

theorem sameOutside_refl (h : Home d dir m) : d.SameOutside (dataPlaces m) d :=
  Disk.SameOutside.refl h.node_ne

/-- What differs at the places of some files differs at those of all. -/
theorem sameOutside (h : Home d dir m) {places : List Place} (hsame : d.SameOutside places e)
    (hplaces : ∀ l ∈ places, l ∈ dataPlaces m) : d.SameOutside (dataPlaces m) e :=
  hsame.mono hplaces h.node_ne

theorem sameOutside_two (h : Home d dir m) {a b : String} (ha : a ∈ dataNames)
    (hb : b ∈ dataNames) (hsame : d.SameOutside [m.below a, m.below b] e) :
    d.SameOutside (dataPlaces m) e := by
  refine h.sameOutside hsame fun l hl => ?_
  rcases List.mem_cons.mp hl with rfl | hl
  · exact below_mem_dataPlaces ha m
  · exact List.mem_singleton.mp hl ▸ below_mem_dataPlaces hb m

theorem sameOutside_one (h : Home d dir m) {a b : String} (ha : a ∈ dataNames)
    (hb : b ∈ dataNames) (hsame : d.SameOutside [m.below a] e) :
    d.SameOutside [m.below a, m.below b] e := by
  refine hsame.mono (fun l hl => List.mem_singleton.mp hl ▸ List.mem_cons_self) fun l hl => ?_
  rcases List.mem_cons.mp hl with rfl | hl
  · exact h.node_ne _ (below_mem_dataPlaces ha m)
  · exact List.mem_singleton.mp hl ▸ h.node_ne _ (below_mem_dataPlaces hb m)

end Home

/-! ## What is in the files -/

/-- The records of a principal among some entries. -/
def recordsOf {α : Type} (es : List (String × α)) (principal : String) : List α :=
  (es.filter fun e => e.1 == principal).map Prod.snd

section RecordsOf

variable {α : Type} (es : List (String × α)) {principal other : String}

theorem recordsOf_append_self (rs : List α) :
    recordsOf (es ++ rs.map fun r => (principal, r)) principal = recordsOf es principal ++ rs := by
  rw [recordsOf, List.filter_append, List.map_append, List.filter_map, List.map_map, ← recordsOf]
  simp [Function.comp_def]

theorem recordsOf_append_other (h : other ≠ principal) (rs : List α) :
    recordsOf (es ++ rs.map fun r => (other, r)) principal = recordsOf es principal := by
  rw [recordsOf, List.filter_append, List.map_append]
  simp [recordsOf, h]

theorem recordsOf_filter_self : recordsOf (es.filter fun e => e.1 != principal) principal = [] := by
  simp [recordsOf, List.filter_filter]

theorem recordsOf_filter_other (h : other ≠ principal) :
    recordsOf (es.filter fun e => e.1 != other) principal = recordsOf es principal := by
  rw [recordsOf, List.filter_filter, recordsOf]
  congr 2
  funext e
  by_cases he : e.1 = principal
  · simp [he, h.symm]
  · simp [he]

end RecordsOf

/-- What a data directory holds: entries with their owners, and the octets of the last analysis. -/
structure Ledger where
  queries : List (String × LoggedQuery)
  applied : List (String × AppliedIndex)
  analysis? : Option (List UInt8)
  deriving DecidableEq

/-- The logged queries as a run that is told the time sees them. -/
def queryFile (c : Config) (now : String) : File LoggedQuery :=
  ⟨LoggedQuery.layout now, c.queriesPath⟩

/-- The applied indexes. -/
def appliedFile (c : Config) : File AppliedIndex := ⟨AppliedIndex.layout, c.appliedPath⟩

namespace Ledger

/-- Nothing is held. -/
def empty : Ledger := ⟨[], [], none⟩

/-- The lines of the logged queries. -/
def queryLines (L : Ledger) : List UInt8 :=
  L.queries.flatMap fun e => sealedLine ((Entry.layout (LoggedQuery.layout "")).write ⟨e.1, e.2⟩)

/-- The lines of the applied indexes. -/
def appliedLines (L : Ledger) : List UInt8 :=
  L.applied.flatMap fun e => sealedLine ((Entry.layout AppliedIndex.layout).write ⟨e.1, e.2⟩)

/-- The logged queries of a principal. -/
def queriesOf (L : Ledger) (principal : String) : List LoggedQuery :=
  recordsOf L.queries principal

/-- The applied indexes of a principal. -/
def appliedOf (L : Ledger) (principal : String) : List AppliedIndex :=
  recordsOf L.applied principal

end Ledger

/-- The data directory holds what the ledger says. -/
structure Holds (d : Disk) (dir : Path) (m : Place) (L : Ledger) : Prop extends Home d dir m where
  queries : d.bytesAt (m.below "queries.jsonl") = L.queryLines
  applied : d.bytesAt (m.below "applied_indexes.jsonl") = L.appliedLines
  analysis : d.node? (m.below "last_analysis.json") = L.analysis?.map .file

namespace Holds

variable {d e : Disk} {c : Config} {m : Place} {L : Ledger}

theorem names_queries (h : Holds d c.dataPath m L) :
    d.Names c.queriesPath (m.below "queries.jsonl") := h.names_child (by decide)

theorem names_applied (h : Holds d c.dataPath m L) :
    d.Names c.appliedPath (m.below "applied_indexes.jsonl") := h.names_child (by decide)

theorem names_analysis (h : Holds d c.dataPath m L) :
    d.Names c.analysisPath (m.below "last_analysis.json") := h.names_child (by decide)

theorem names_aside_queries (h : Holds d c.dataPath m L) (now : String) :
    d.Names (queryFile c now).aside (m.below "queries.tmp") := by
  have haside : (queryFile c now).aside = c.dataPath.child "queries.tmp" :=
    Path.withExtension_child h.text_ne (isName_of_mem (by decide)) (isName_of_mem (by decide))
      (by decide)
  rw [haside]
  exact h.names_child (by decide)

theorem names_aside_applied (h : Holds d c.dataPath m L) :
    d.Names (appliedFile c).aside (m.below "applied_indexes.tmp") := by
  have haside : (appliedFile c).aside = c.dataPath.child "applied_indexes.tmp" :=
    Path.withExtension_child h.text_ne (isName_of_mem (by decide)) (isName_of_mem (by decide))
      (by decide)
  rw [haside]
  exact h.names_child (by decide)

/-- The store of the logged queries holds their entries. -/
theorem stands_queries (h : Holds d c.dataPath m L) (now : String) :
    Stands (queryFile c now) d L.queries where
  opened := ⟨d, d, h.makeDirectories_parent (by decide), Disk.Keeps.refl d⟩
  names := ⟨_, h.names_queries⟩
  aside := ⟨_, h.names_aside_queries now⟩
  content := by
    rw [content_of_names h.names_queries, h.queries]
    rfl

/-- The store of the applied indexes holds their entries. -/
theorem stands_applied (h : Holds d c.dataPath m L) : Stands (appliedFile c) d L.applied where
  opened := ⟨d, d, h.makeDirectories_parent (by decide), Disk.Keeps.refl d⟩
  names := ⟨_, h.names_applied⟩
  aside := ⟨_, h.names_aside_applied⟩
  content := by
    rw [content_of_names h.names_applied, h.applied]
    rfl

/-! ## Changes -/

/-- A change at the places of two files leaves the other files as they are. -/
theorem node?_of_two {a b name : String} (hsame : d.SameOutside [m.below a, m.below b] e)
    (ha : name ≠ a) (hb : name ≠ b) : e.node? (m.below name) = d.node? (m.below name) := by
  refine hsame.node? _ fun hmem => ?_
  rcases List.mem_cons.mp hmem with heq | hmem
  · exact below_ne_below ha m heq
  · exact below_ne_below hb m (List.mem_singleton.mp hmem)

/-- The store of the logged queries now holds other entries. -/
theorem setQueries (h : Holds d c.dataPath m L) {now : String} {es : List (String × LoggedQuery)}
    (hstands : Stands (queryFile c now) e es)
    (hsame : d.SameOutside [m.below "queries.jsonl", m.below "queries.tmp"] e) :
    Holds e c.dataPath m { L with queries := es } ∧ d.SameOutside (dataPlaces m) e := by
  have hall := h.sameOutside_two (by decide) (by decide) hsame
  have hhome := h.toHome.mono hall
  refine ⟨⟨hhome, ?_, ?_, ?_⟩, hall⟩
  · have hcontent := hstands.content
    rw [content_of_names (hhome.names_child (by decide))] at hcontent
    exact Except.ok.inj hcontent
  · exact (Disk.bytesAt_congr (node?_of_two hsame (by decide) (by decide))).trans h.applied
  · exact (node?_of_two hsame (by decide) (by decide)).trans h.analysis

/-- The store of the applied indexes now holds other entries. -/
theorem setApplied (h : Holds d c.dataPath m L) {es : List (String × AppliedIndex)}
    (hstands : Stands (appliedFile c) e es)
    (hsame : d.SameOutside [m.below "applied_indexes.jsonl", m.below "applied_indexes.tmp"] e) :
    Holds e c.dataPath m { L with applied := es } ∧ d.SameOutside (dataPlaces m) e := by
  have hall := h.sameOutside_two (by decide) (by decide) hsame
  have hhome := h.toHome.mono hall
  refine ⟨⟨hhome, ?_, ?_, ?_⟩, hall⟩
  · exact (Disk.bytesAt_congr (node?_of_two hsame (by decide) (by decide))).trans h.queries
  · have hcontent := hstands.content
    rw [content_of_names (hhome.names_child (by decide))] at hcontent
    exact Except.ok.inj hcontent
  · exact (node?_of_two hsame (by decide) (by decide)).trans h.analysis

/-- The file of the last analysis now is another one, or missing. -/
theorem setAnalysis (h : Holds d c.dataPath m L) {analysis? : Option (List UInt8)}
    (hnode : e.node? (m.below "last_analysis.json") = analysis?.map .file)
    (hsame : d.SameOutside [m.below "last_analysis.json"] e) :
    Holds e c.dataPath m { L with analysis? := analysis? } ∧ d.SameOutside (dataPlaces m) e := by
  have htwo : d.SameOutside [m.below "last_analysis.json", m.below "last_analysis.json"] e :=
    hsame.mono (fun _ hl => List.mem_cons_of_mem _ hl) fun l hl => by
      rw [List.mem_cons, List.mem_singleton, or_self] at hl
      exact h.node_ne l (hl ▸ below_mem_dataPlaces (by decide) m)
  have hall := h.sameOutside_two (by decide) (by decide) htwo
  refine ⟨⟨h.toHome.mono hall, ?_, ?_, hnode⟩, hall⟩
  · exact (Disk.bytesAt_congr (node?_of_two htwo (by decide) (by decide))).trans h.queries
  · exact (Disk.bytesAt_congr (node?_of_two htwo (by decide) (by decide))).trans h.applied

/-! ## Operations -/

section Operations

variable {principal : String} (hp : checkPrincipal principal = .ok ())

include hp

theorem listQueries (h : Holds d c.dataPath m L) (now : String) :
    (queryFile c now).list principal d = .ok (L.queriesOf principal) :=
  (h.stands_queries now).list (faithful_loggedQuery now) hp

theorem listApplied (h : Holds d c.dataPath m L) :
    (appliedFile c).list principal d = .ok (L.appliedOf principal) :=
  h.stands_applied.list faithful_appliedIndex hp

theorem insertQueries (h : Holds d c.dataPath m L) (now : String) (qs : List LoggedQuery) :
    ∃ e, (queryFile c now).insertAll principal qs d = .ok e ∧
      Holds e c.dataPath m { L with queries := L.queries ++ qs.map fun q => (principal, q) } ∧
        d.SameOutside (dataPlaces m) e := by
  obtain ⟨e, he, hstands, hsame⟩ := (h.stands_queries now).insertAll h.names_queries hp qs
  exact ⟨e, he, h.setQueries hstands (h.sameOutside_one (by decide) (by decide) hsame)⟩

theorem insertApplied (h : Holds d c.dataPath m L) (a : AppliedIndex) :
    ∃ e, (appliedFile c).insert principal a d = .ok e ∧
      Holds e c.dataPath m { L with applied := L.applied ++ [(principal, a)] } ∧
        d.SameOutside (dataPlaces m) e := by
  obtain ⟨e, he, hstands, hsame⟩ := h.stands_applied.insert h.names_applied hp a
  exact ⟨e, he, h.setApplied hstands (h.sameOutside_one (by decide) (by decide) hsame)⟩

theorem clearQueries (h : Holds d c.dataPath m L) (now : String) :
    ∃ e, (queryFile c now).clear principal d = .ok ((L.queriesOf principal).length, e) ∧
      Holds e c.dataPath m { L with queries := L.queries.filter fun e => e.1 != principal } ∧
        d.SameOutside (dataPlaces m) e := by
  obtain ⟨e, he, hstands, hsame⟩ := (h.stands_queries now).clear (faithful_loggedQuery now)
    h.names_queries (h.names_aside_queries now) hp
  refine ⟨e, ?_, h.setQueries hstands hsame⟩
  rw [he, Ledger.queriesOf, recordsOf, List.length_map]

theorem clearApplied (h : Holds d c.dataPath m L) :
    ∃ e, (appliedFile c).clear principal d = .ok ((L.appliedOf principal).length, e) ∧
      Holds e c.dataPath m { L with applied := L.applied.filter fun e => e.1 != principal } ∧
        d.SameOutside (dataPlaces m) e := by
  obtain ⟨e, he, hstands, hsame⟩ := h.stands_applied.clear faithful_appliedIndex
    h.names_applied h.names_aside_applied hp
  refine ⟨e, ?_, h.setApplied hstands hsame⟩
  rw [he, Ledger.appliedOf, recordsOf, List.length_map]

end Operations

theorem writeAnalysis (h : Holds d c.dataPath m L) (bytes : List UInt8) :
    ∃ e, d.write c.analysisPath bytes = .ok e ∧
      Holds e c.dataPath m { L with analysis? := some bytes } ∧ d.SameOutside (dataPlaces m) e := by
  have hnames := h.names_analysis
  exact ⟨_, hnames.write bytes, h.setAnalysis (d.node?_put_self _ hnames.ne_root)
    (Disk.SameOutside.put_file hnames.node_ne bytes)⟩

theorem eraseAnalysis (h : Holds d c.dataPath m L) {bytes : List UInt8}
    (hbytes : L.analysis? = some bytes) :
    ∃ e, d.remove c.analysisPath = .ok e ∧ Holds e c.dataPath m { L with analysis? := none } ∧
      d.SameOutside (dataPlaces m) e := by
  have hnames := h.names_analysis
  have hnode := h.analysis
  rw [hbytes] at hnode
  exact ⟨_, hnames.remove hnode, h.setAnalysis (d.node?_erase_self hnames.ne_root)
    (Disk.SameOutside.erase hnames.node_ne)⟩

end Holds

end IndexAdvisor.Command
