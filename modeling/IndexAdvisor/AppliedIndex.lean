import IndexAdvisor.LoggedQuery
import IndexAdvisor.Recommendation
import IndexAdvisor.Text.Split

/-!
# Applied indexes

A recommendation that was put into effect, on record. The id of the recommendation is unique only
together with the key of its query.
-/

set_option autoImplicit false

namespace IndexAdvisor

/-- The record of an applied recommendation. -/
structure AppliedIndex where
  id : UInt32
  /-- The key of the query that the recommendation was made for. -/
  queryKey : String
  indexName : String
  table : String
  columns : List String
  /-- The name of the kind of the index, which need not be one of the known ones. -/
  kind : String
  improvement : UInt8
  timestamp : String
  deriving DecidableEq, Repr

namespace AppliedIndex

/-- The record of applying a recommendation now. -/
def ofRecommendation (queryKey : String) (r : Recommendation) (now : String) : AppliedIndex where
  id := r.id
  queryKey := queryKey
  indexName := r.indexName
  table := r.table
  columns := r.columns
  kind := r.kind.text
  improvement := r.improvement
  timestamp := now

/-- What a record is known by. -/
def key (a : AppliedIndex) : String × UInt32 := (a.queryKey, a.id)

/-- How a record is written. -/
def layout : Json.Layout AppliedIndex where
  shape := .record "AppliedIndex" <| .cons "id" [] .required (.count 32) <|
    .cons "queryId" [] .required .text <| .cons "indexName" [] .required .text <|
    .cons "tableName" [] .required .text <| .cons "columns" [] .required (.list .text) <|
    .cons "type" [] .defaulted .text <| .cons "improvement" [] .defaulted (.count 8) <|
    .cons "timestamp" [] .defaulted .text .nil
  ofCarrier c :=
    { id := .ofNat c.1.val
      queryKey := c.2.1
      indexName := c.2.2.1
      table := c.2.2.2.1
      columns := c.2.2.2.2.1
      kind := c.2.2.2.2.2.1.getD ""
      improvement :=
        match c.2.2.2.2.2.2.1 with
        | some v => .ofNat v.val
        | none => 0
      timestamp := c.2.2.2.2.2.2.2.1.getD "" }
  toCarrier a :=
    (⟨a.id.toNat, a.id.toNat_lt⟩, a.queryKey, a.indexName, a.table, a.columns, some a.kind,
      some ⟨a.improvement.toNat, a.improvement.toNat_lt⟩, some a.timestamp, ())
  ofCarrier_toCarrier a := by
    simp only [UInt32.ofNat_toNat, UInt8.ofNat_toNat]
    rfl

end AppliedIndex

/-! ## Sets of applied recommendations -/

/-- The keys and ids of applied recommendations, each pair once. -/
structure AppliedSet where
  pairs : List (String × UInt32)
  deriving DecidableEq, Repr

namespace AppliedSet

/-- Nothing is applied. -/
def empty : AppliedSet := ⟨[]⟩

/-- The recommendation is applied. -/
def contains (s : AppliedSet) (queryKey : String) (id : UInt32) : Bool :=
  s.pairs.contains (queryKey, id)

/-- Adds a recommendation. -/
def insert (s : AppliedSet) (queryKey : String) (id : UInt32) : AppliedSet :=
  if s.contains queryKey id then s else ⟨(queryKey, id) :: s.pairs⟩

/-- Adding a recommendation makes it applied and changes no other. -/
theorem contains_insert (s : AppliedSet) (k k' : String) (i i' : UInt32) :
    (s.insert k i).contains k' i' = ((k', i') == (k, i) || s.contains k' i') := by
  by_cases h : s.contains k i
  · by_cases he : (k', i') = (k, i)
    · obtain ⟨rfl, rfl⟩ := Prod.mk.inj he
      simp [insert, h]
    · have hb : ((k', i') == (k, i)) = false := beq_eq_false_iff_ne.mpr he
      simp only [insert, h, if_true, hb, Bool.false_or]
  · rw [insert, if_neg h]
    exact List.contains_cons

/-- How many recommendations are applied. -/
def size (s : AppliedSet) : Nat := s.pairs.length

/-- Nothing is applied. -/
def isEmpty (s : AppliedSet) : Bool := s.pairs.isEmpty

/-- The recommendations of some records. -/
def ofRecords (records : List AppliedIndex) : AppliedSet :=
  records.foldl (fun s a => s.insert a.queryKey a.id) empty

end AppliedSet

/-! ## Records of a query -/

/-- The part of a key before its first hyphen: the id that the key was made from. -/
def idOfKey (key : String) : String :=
  match Text.splitAtFirst? '-' key.toList with
  | some (id, _) => String.ofList id
  | none => key

/-- The records that belong to a query; a query without an id has none. -/
def LoggedQuery.applied (q : LoggedQuery) (records : List AppliedIndex) : List AppliedIndex :=
  match q.id? with
  | none => []
  | some id => records.filter fun a => idOfKey a.queryKey == id

end IndexAdvisor
