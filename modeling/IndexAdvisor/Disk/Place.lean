/-!
# Places

A place on a disk is known by the names that lead to it. Most places differ in how many names there
are, so that is compared first.
-/

set_option autoImplicit false

namespace IndexAdvisor

/-- A place on a disk. -/
structure Place where
  /-- The names on the way from the place up to the root, its own name first. -/
  way : List String
  /-- How many names there are. -/
  depth : Nat := way.length
  depth_eq : depth = way.length := by rfl
  deriving Repr

namespace Place

@[ext] theorem ext {l k : Place} (h : l.way = k.way) : l = k := by
  obtain ⟨ns, m, hm⟩ := l
  obtain ⟨ms, n, hn⟩ := k
  subst hm hn
  cases h
  rfl

instance : DecidableEq Place := fun l k =>
  if hd : l.depth = k.depth then
    if hw : l.way = k.way then isTrue (ext hw)
    else isFalse fun h => hw (h ▸ rfl)
  else isFalse fun h => hd (h ▸ rfl)

/-- The place to which some names lead from the root. -/
def ofNames (names : List String) : Place := { way := names.reverse }

/-- The names that lead to the place from the root. -/
def names (l : Place) : List String := l.way.reverse

/-- The place at which all paths from the root begin. -/
def root : Place := ⟨[], 0, rfl⟩

/-- The place with a name in a directory. -/
def below (l : Place) (name : String) : Place :=
  ⟨name :: l.way, l.depth + 1, congrArg Nat.succ l.depth_eq⟩

/-- The directory around a place; the root is in itself. -/
def above (l : Place) : Place where
  way := l.way.tail
  depth := l.depth - 1
  depth_eq := by rw [l.depth_eq, List.length_tail]

/-- The directories around a place and the place itself, from the root on. -/
def line (l : Place) : List Place :=
  (List.range (l.depth + 1)).map fun k => { way := l.way.drop (l.depth - k) }

@[simp] theorem names_ofNames (names : List String) : (ofNames names).names = names :=
  List.reverse_reverse names

@[simp] theorem ofNames_names (l : Place) : ofNames l.names = l := ext (List.reverse_reverse l.way)

@[simp] theorem names_below (l : Place) (name : String) :
    (l.below name).names = l.names ++ [name] := List.reverse_cons

@[simp] theorem above_below (l : Place) (name : String) : (l.below name).above = l := ext rfl

theorem below_ne_root (l : Place) (name : String) : l.below name ≠ root := fun h =>
  absurd (congrArg depth h) (Nat.succ_ne_zero l.depth)

end Place

end IndexAdvisor
