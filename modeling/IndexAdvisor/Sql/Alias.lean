import IndexAdvisor.Sql.Join

/-!
# Aliases

The names under which FROM entries and joins make their tables known. The last binding of a name
holds, and a name that nothing binds stands for itself.
-/

set_option autoImplicit false

namespace IndexAdvisor.Sql

open IndexAdvisor.Text

/-- Bindings of names to tables, the latest first. -/
structure Aliases where
  bindings : List (String × String)
  deriving DecidableEq, Repr

namespace Aliases

/-- No binding. -/
def empty : Aliases := ⟨[]⟩

/-- Binds `name` to `table`. -/
def insert (m : Aliases) (name table : String) : Aliases := ⟨(name, table) :: m.bindings⟩

/-- The table that a name stands for. -/
def resolve (m : Aliases) (n : String) : String := (m.bindings.lookup n).getD n

/-- How many names are bound. -/
def size (m : Aliases) : Nat := (m.bindings.map Prod.fst).eraseDups.length

/-- Nothing is bound. -/
def isEmpty (m : Aliases) : Bool := m.bindings.isEmpty

@[simp] theorem resolve_empty (n : String) : empty.resolve n = n := rfl

@[simp] theorem resolve_insert_self (m : Aliases) (a t : String) :
    (m.insert a t).resolve a = t := by
  simp [resolve, insert]

theorem resolve_insert_of_ne (m : Aliases) {a n : String} (t : String) (h : n ≠ a) :
    (m.insert a t).resolve n = m.resolve n := by
  have hb : (n == a) = false := beq_eq_false_iff_ne.mpr h
  simp [resolve, insert, List.lookup_cons, hb]

end Aliases

/-! ## Bindings of a statement -/

/-- Words that may follow a table without being its alias. -/
def nonAliasWords : List String :=
  ["on", "join", "inner", "left", "right", "full", "outer", "cross", "natural", "where", "group",
   "order", "limit", "having", "using", "union"]

/-- The word may be an alias. -/
def mayBeAlias (w : List Char) : Bool := !nonAliasWords.any fun k => k.toList == w

/-- The name that one FROM entry, cut into words, binds and its table. -/
def entryBinding? : List (List Char) → Option (List Char × List Char)
  | [] => none
  | [table] => some (table, table)
  | table :: second :: more =>
    if second = "as".toList then some (more.head?.getD table, table)
    else if mayBeAlias second then some (second, table)
    else some (table, table)

/-- The name that a join target binds and its table. -/
def targetBinding : List Char × Option (List Char) → List Char × List Char
  | (table, some word) => if mayBeAlias word then (word, table) else (table, table)
  | (table, none) => (table, table)

/-- The bindings of a FROM text, if there is one, and of the joins of the whole text, in order. -/
def clauseBindings (fromText : Option (List Char)) (cs : List Char) :
    List (List Char × List Char) :=
  (match fromText with
    | some t => (t.splitOn ',').filterMap fun entry => entryBinding? (words entry)
    | none => []) ++
  (joinTargets cs).map targetBinding

/-- The aliases of a statement. Both texts are in lower case already. -/
def Aliases.ofClauses (fromText : Option (List Char)) (cs : List Char) : Aliases :=
  (clauseBindings fromText cs).foldl
    (fun m b => m.insert (String.ofList b.1) (String.ofList b.2)) .empty

end IndexAdvisor.Sql
