import IndexAdvisor.Analysis.Batch
import IndexAdvisor.Proofs.Store.Entries

/-!
# Records read back

Every record that is stored or exchanged is read from what is written for it, by itself and inside
the entry of a store. A text that is accepted need not be one that is written: it may lack fields,
hold null, name the id otherwise or list its fields in an array. What has been read of it is written
in full, so that writing and reading it again changes nothing, whatever the time is by then.
-/

set_option autoImplicit false

namespace IndexAdvisor

open IndexAdvisor.Store

/-- The records that are stored or exchanged. -/
inductive RecordKind where
  | loggedQuery
  | appliedIndex
  | recommendation
  | planNode
  | bundle
  | predicate
  | joinPair
  deriving DecidableEq, Repr

namespace RecordKind

/-- The records of a kind. -/
def Value : RecordKind → Type
  | loggedQuery => LoggedQuery
  | appliedIndex => AppliedIndex
  | recommendation => Recommendation
  | planNode => Plan.Node
  | bundle => Analysis.Bundle
  | predicate => Sql.Predicate
  | joinPair => Sql.JoinPair

/-- How the records of a kind are written, and read at the time `now`. -/
def layout (now : String) : (k : RecordKind) → Json.Layout k.Value
  | loggedQuery => LoggedQuery.layout now
  | appliedIndex => AppliedIndex.layout
  | recommendation => Recommendation.layout
  | planNode => Plan.Node.layout
  | bundle => Analysis.Bundle.layout
  | predicate => Sql.Predicate.layout
  | joinPair => Sql.JoinPair.layout

/-- No two fields of a record are read under one name, no field that may be null is written like
null, and no record is nested too deep. -/
theorem fits_layout (now : String) (k : RecordKind) (room : Nat) :
    (k.layout now).shape.fits (room + 4) = true := by
  cases k <;> rfl

/-- The time does not matter to what is written. -/
theorem write_layout (now later : String) (k : RecordKind) (v : k.Value) :
    (k.layout later).write v = (k.layout now).write v := by
  cases k <;> rfl

theorem write_entry (now later : String) (k : RecordKind) (e : Entry k.Value) :
    (Entry.layout (k.layout later)).write e = (Entry.layout (k.layout now)).write e := by
  cases k <;> rfl

theorem read_write_layout (now later : String) (k : RecordKind) (v : k.Value) :
    (k.layout later).read ((k.layout now).write v) = .ok v := by
  rw [← write_layout now later]
  exact Json.Layout.read_write (fits_layout later k 123) v

theorem read_write_entry (now later : String) (k : RecordKind) (e : Entry k.Value) :
    (Entry.layout (k.layout later)).read ((Entry.layout (k.layout now)).write e) = .ok e := by
  rw [← write_entry now later]
  exact (faithful_of_fits (fits_layout later k 122)).read_write e

/-- **Reading undoes writing** for every record of every kind and for its entry in a store. So a
text that is accepted is read as a value that, written and read again at any later time, is the
same. -/
theorem read_written (k : RecordKind) (now later : String) :
    (∀ v, (k.layout later).read ((k.layout now).write v) = .ok v) ∧
    (∀ e, (Entry.layout (k.layout later)).read ((Entry.layout (k.layout now)).write e) = .ok e) ∧
    (∀ cs v, (k.layout now).read cs = .ok v →
      (k.layout later).read ((k.layout now).write v) = .ok v) ∧
    ∀ cs e, (Entry.layout (k.layout now)).read cs = .ok e →
      (Entry.layout (k.layout later)).read ((Entry.layout (k.layout now)).write e) = .ok e :=
  ⟨read_write_layout now later k, read_write_entry now later k,
    fun _ v _ => read_write_layout now later k v, fun _ e _ => read_write_entry now later k e⟩

/-- A statement under the other name of its id, without a time and a file. -/
theorem read_written_statement :
    let cs := "\x7b\"_id\":\"r\",\"query\":\"SELECT 1\"\x7d".toList
    let q : LoggedQuery := ⟨some "r", "SELECT 1", "T", LoggedQuery.unknownFile⟩
    (loggedQuery.layout "T").read cs = .ok q ∧
    (loggedQuery.layout "U").read ((loggedQuery.layout "T").write q) = .ok q := by
  intro cs q
  have hread : (LoggedQuery.layout "T").read cs = .ok q := by rfl
  exact ⟨hread, (read_written loggedQuery "T" "U").2.2.1 cs q hread⟩

end RecordKind

end IndexAdvisor
