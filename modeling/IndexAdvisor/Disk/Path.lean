import IndexAdvisor.Text.Split

/-!
# Paths

A path is a text of names with slashes between them, from the root or from the working directory.
Empty pieces and single points lead nowhere; two points lead to the directory above.
-/

set_option autoImplicit false

namespace IndexAdvisor

/-- A path as it is written. -/
structure Path where
  text : String
  deriving DecidableEq, Repr

namespace Path

/-- The path begins at the root. -/
def isAbsolute (p : Path) : Bool := p.text.toList.head? == some '/'

/-- What stands between the slashes, unless nothing does. -/
def pieces (p : Path) : List String :=
  ((p.text.toList.splitOn '/').filter fun w => !w.isEmpty).map String.ofList

/-- The path ends in a slash: the place has to be a directory. -/
def endsInSlash (p : Path) : Bool := p.text.toList.getLast? == some '/'

/-- The steps of the path. A slash at the end is a step as well, which stays where it is. -/
def steps (p : Path) : List String := p.pieces ++ if p.endsInSlash then ["."] else []

/-- The name that the last step gives to the place, unless it stays or leads up. -/
def lastName? (p : Path) : Option String :=
  p.pieces.getLast?.filter fun s => s != "." && s != ".."

/-- The last name, unless a slash follows it. -/
def bareName? (p : Path) : Option String := if p.endsInSlash then none else p.lastName?

/-- The steps that lead somewhere. -/
def names (p : Path) : List String := p.pieces.filter fun s => s != "."

/-- The path of a name in a directory. A name that begins at the root is a path by itself. -/
def child (dir : Path) (name : String) : Path :=
  match dir.text.toList.getLast? with
  | none => ⟨name⟩
  | some c =>
    if (Path.mk name).isAbsolute then ⟨name⟩
    else ⟨dir.text ++ (if c = '/' then "" else "/") ++ name⟩

/-! ## Directories around a place

A path keeps its spelling when it is cut: what stands in front of the cut stays as it is written.
-/

/-- The mark of the directory at which a path begins (the slash of the root, the point of the
working directory, or nothing), and what follows it. -/
def cutMark : List Char → List Char × List Char
  | '/' :: cs => (['/'], cs)
  | ['.'] => (['.'], [])
  | '.' :: '/' :: cs => (['.'], '/' :: cs)
  | cs => ([], cs)

/-- Nothing is lost. -/
theorem cutMark_append (cs : List Char) : (cutMark cs).1 ++ (cutMark cs).2 = cs := by
  unfold cutMark
  split <;> rfl

/-- Nothing between two slashes, or a single point. -/
def isIdle (w : List Char) : Bool := w.isEmpty || w == ['.']

/-- The pieces that lead to the place, from the last one to the first; those behind the last one
that is not idle are left out. -/
def way (p : Path) : List (List Char) :=
  ((cutMark p.text.toList).2.splitOn '/').reverse.dropWhile isIdle

/-- The path of some pieces, from the last one to the first, that begins where this one does. -/
def ofWay (p : Path) (way : List (List Char)) : Path :=
  ⟨String.ofList ((cutMark p.text.toList).1 ++ ['/'].intercalate way.reverse)⟩

/-- The path of the directory around the place. The text is empty where the path begins there and
does not say so. -/
def parent (p : Path) : Path := p.ofWay ((p.way.drop 1).dropWhile isIdle)

/-- The last name, unless it leads up. -/
def fileName? (p : Path) : Option String := p.names.getLast?.filter fun s => s != ".."

/-! ## Extensions -/

/-- A file name cut at its last point. A point in front of the whole name does not count. -/
def cutExtension (name : List Char) : List Char × Option (List Char) :=
  match Text.splitAtLast? '.' name with
  | some (c :: stem, extension) => (c :: stem, some extension)
  | _ => (name, none)

/-- What follows the last point of the file name. -/
def extension? (p : Path) : Option String := do
  let name ← p.fileName?
  let e ← (cutExtension name.toList).2
  some (String.ofList e)

/-- A name with another extension. Where nothing but two points is left of a name without its
extension, it is the step to the directory above, and takes none. -/
def changeExtension (name extension : List Char) : List Char :=
  match cutExtension name with
  | (['.'], some _) => ['.', '.']
  | (stem, _) => stem ++ '.' :: extension

/-- The path of the file beside this one whose name ends in `extension` instead. -/
def withExtension (p : Path) (extension : String) : Path :=
  match p.way with
  | [] => p
  | name :: before =>
    if name = ['.', '.'] then p
    else p.ofWay (changeExtension name extension.toList :: before)

end Path

end IndexAdvisor
