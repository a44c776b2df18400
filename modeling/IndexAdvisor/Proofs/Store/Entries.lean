import IndexAdvisor.AppliedIndex
import IndexAdvisor.LoggedQuery
import IndexAdvisor.Proofs.Fallible
import IndexAdvisor.Proofs.Store.Lines

/-!
# Stored entries read back

The lines that a store adds hold the entries that were added, in order, with their owners. A layout
is `Faithful` if entries survive being written and read, both by its own reader and by the one that
looks at owners only. The layouts of the records that are kept are.
-/

set_option autoImplicit false

namespace IndexAdvisor.Store

variable {α : Type} {L : Json.Layout α}

/-- What is read of a line is the entry that its payload writes. -/
theorem readEntry_eq_ok_iff {p : Nat × List Char} {e : Entry α} :
    readEntry L p = .ok e ↔ (Entry.layout L).read p.2 = .ok e := by
  rw [readEntry]
  cases (Entry.layout L).read p.2 <;> simp

/-! ## Faithful layouts -/

/-- Reading undoes writing: what is written for an entry reads back as the entry, and as one of the
same owner with a record of any form. -/
structure Faithful (L : Json.Layout α) : Prop where
  read_write : ∀ e, (Entry.layout L).read ((Entry.layout L).write e) = .ok e
  any_read_write : ∀ e, ∃ j,
    (Entry.layout .any).read ((Entry.layout L).write e) = .ok ⟨e.principal, j⟩

/-- How deep a record may be nested, with its entry around it. -/
def recordNesting : Nat := Json.maxNesting - 1

/-- The field of an entry that holds a record of any form. -/
def anyRecord : Json.Fields := .cons "record" [] .required .any .nil

/-- The fields of an entry with such a record. -/
def anyEntry : Json.Fields := .cons "principal" [] .required .text anyRecord

/-- An entry with a record of any form reads back, if its record does. -/
theorem any_read_write {j : Json} (h : Json.fits recordNesting j = true) (principal : String) :
    (Entry.layout .any).read ((Entry.layout .any).write ⟨principal, j⟩) = .ok ⟨principal, j⟩ := by
  have hrecord : Json.Reads (anyRecord.readMember recordNesting) anyRecord.noSlots
      (anyRecord.texts (j, ())) (anyRecord.slots (j, ())) :=
    Json.Fields.reads_cons (fun x hx => by
      cases hx
      exact Json.readValue_render h) (Or.inl rfl) rfl rfl
  have hentry : Json.Reads (anyEntry.readMember recordNesting) anyEntry.noSlots
      (anyEntry.texts (principal, j, ())) (anyEntry.slots (principal, j, ())) :=
    Json.Fields.reads_cons (fun x _ => Json.Shape.readsBack .text rfl x) (Or.inl rfl)
      (by decide) hrecord
  have hread : Json.ReadsBack ((Entry.layout .any).shape.read Json.maxNesting)
      (fun v => Json.render ((Entry.layout .any).shape.toJson v)) (principal, j, ()) :=
    ⟨rfl, fun rest _ => Json.Shape.read_record hentry rest⟩
  exact congrArg (Except.map _) (Json.readWhole_of_readsBack hread)

/-- A layout is faithful if its shape fits inside an entry. -/
theorem faithful_of_fits (h : L.shape.fits recordNesting = true) : Faithful L where
  read_write := Json.Layout.read_write (by
    show Json.Fields.fits recordNesting (.cons "principal" [] .required .text <|
      .cons "record" [] .required L.shape .nil) = true
    rw [Json.Fields.fits, Json.Fields.fits, h]
    rfl)
  any_read_write e := ⟨_, any_read_write (Json.Shape.fits_toJson L.shape h _) e.principal⟩

theorem faithful_loggedQuery (now : String) : Faithful (LoggedQuery.layout now) :=
  faithful_of_fits (by cbv)

theorem faithful_appliedIndex : Faithful AppliedIndex.layout := faithful_of_fits (by decide)

theorem faithful_text : Faithful Json.Layout.text := faithful_of_fits (by decide)

theorem faithful_word : Faithful Json.Layout.word := faithful_of_fits (by decide)

/-! ## Lines of entries -/

/-- The octets of a file that holds these records, each with its owner in front. -/
def File.lines (f : File α) (es : List (String × α)) : List UInt8 :=
  es.flatMap fun e => f.line e.1 e.2

theorem File.lines_append (f : File α) (es more : List (String × α)) :
    f.lines (es ++ more) = f.lines es ++ f.lines more := List.flatMap_append

/-- The payload of the line of an entry. -/
def File.payload (f : File α) (e : String × α) : List Char :=
  (Entry.layout f.layout).write ⟨e.1, e.2⟩

/-- The payloads of a file that holds these records, each with the number of its line. -/
def File.numbered (f : File α) (n : Nat) (es : List (String × α)) : List (Nat × List Char) :=
  ((es.map f.payload).zipIdx n).map Prod.swap

theorem File.numbered_cons (f : File α) (n : Nat) (e : String × α) (es : List (String × α)) :
    f.numbered n (e :: es) = (n, f.payload e) :: f.numbered (n + 1) es := rfl

@[simp] theorem File.length_numbered (f : File α) (n : Nat) (es : List (String × α)) :
    (f.numbered n es).length = es.length := by
  simp [File.numbered]

/-- The payloads of the lines of entries are read, whatever the layout is. -/
theorem File.payloads_lines (f : File α) (es : List (String × α)) :
    payloads (f.lines es) = .ok (f.numbered 1 es) := by
  have hlines : f.lines es = (es.map f.payload).flatMap sealedLine := by
    rw [List.flatMap_map]
    rfl
  rw [hlines]
  refine payloads_sealedLines fun p hp => ?_
  obtain ⟨e, -, rfl⟩ := List.mem_map.mp hp
  exact fun c hc => Json.toNat_ge_of_mem_render _ hc

/-- What is read of each payload is read of all of them, whatever the numbers of the lines. -/
theorem File.mapM_numbered {β : Type} (f : File α) {read : Nat × List Char → Except Error β}
    {value : String × α → β} (h : ∀ n e, read (n, f.payload e) = .ok (value e)) (n : Nat)
    (es : List (String × α)) : (f.numbered n es).mapM read = .ok (es.map value) := by
  induction es generalizing n with
  | nil => rfl
  | cons e es ih =>
      rw [File.numbered_cons, List.mapM_cons, h, ih]
      rfl

/-- **The entries that were added are read**, in order. -/
theorem File.entries_lines {f : File α} (h : Faithful f.layout) (es : List (String × α)) :
    entries f.layout (f.lines es) = .ok (es.map fun e => ⟨e.1, e.2⟩) := by
  rw [entries, f.payloads_lines]
  refine f.mapM_numbered (fun n e => ?_) 1 es
  simp only [readEntry, File.payload, h.read_write]

/-- The owners of the entries that were added are read, without a look at the records. -/
theorem File.owners_lines {f : File α} (h : Faithful f.layout) (n : Nat)
    (es : List (String × α)) :
    ((f.numbered n es).mapM fun p => (readEntry .any p).map Entry.principal) =
      .ok (es.map Prod.fst) := by
  refine f.mapM_numbered (fun n e => ?_) n es
  obtain ⟨j, hj⟩ := h.any_read_write ⟨e.1, e.2⟩
  simp only [readEntry, File.payload, hj, Except.map]

/-- The lines that are kept by their owners are those of the entries that are. -/
theorem File.filter_numbered (f : File α) (keep : String → Bool) (n : Nat)
    (es : List (String × α)) :
    (((f.numbered n es).zip (es.map Prod.fst)).filter fun e => keep e.2).map (fun e => e.1.2) =
      (es.filter fun e => keep e.1).map f.payload := by
  induction es generalizing n with
  | nil => rfl
  | cons e es ih =>
      rw [File.numbered_cons, List.map_cons, List.zip_cons_cons, List.filter_cons, List.filter_cons]
      cases keep e.1 with
      | false => exact ih (n + 1)
      | true => exact congrArg (f.payload e :: ·) (ih (n + 1))

end IndexAdvisor.Store
