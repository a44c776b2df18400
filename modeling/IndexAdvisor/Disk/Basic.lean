import IndexAdvisor.Disk.Path
import IndexAdvisor.Disk.Place
import IndexAdvisor.Text.Utf8

/-!
# Disks

The files and directories that a run works on, as a value. A path is followed step by step through
directories, and its names are limited in length. An operation that cannot be done tells why and
leaves the disk as it was; `makeDirectories` alone keeps what it has made by then.
-/

set_option autoImplicit false

namespace IndexAdvisor

namespace Disk

/-- What is found at a place. -/
inductive Node where
  | file (bytes : List UInt8)
  | directory
  deriving DecidableEq, Repr

/-- Why an operation cannot be done. -/
inductive Fault where
  | missing
  | present
  | notDirectory
  | isDirectory
  | notText
  /-- A name has more octets than a name may have, or the whole path has. -/
  | nameTooLong
  /-- The path holds the character U+0000. -/
  | nulInName
  deriving DecidableEq, Repr

/-- The words for a fault. -/
def Fault.message : Fault → String
  | missing => "No such file or directory (os error 2)"
  | present => "File exists (os error 17)"
  | notDirectory => "Not a directory (os error 20)"
  | isDirectory => "Is a directory (os error 21)"
  | notText => "stream did not contain valid UTF-8"
  | nameTooLong => "File name too long (os error 36)"
  | nulInName => "file name contained an unexpected NUL byte"

end Disk

/-- Files and directories, and the directory at which relative paths begin. -/
structure Disk where
  workingDirectory : Place
  /-- What is found at each place. The root is always a directory. -/
  nodes : List (Place × Disk.Node)
  deriving DecidableEq, Repr

namespace Disk

/-! ## Places -/

/-- What is found at a place. -/
def node? (d : Disk) (l : Place) : Option Node :=
  if l = .root then some .directory
  else (d.nodes.find? fun e => e.1 == l).map Prod.snd

/-- Puts something at a place. -/
def put (d : Disk) (l : Place) (n : Node) : Disk :=
  { d with nodes := (l, n) :: d.nodes.filter fun e => e.1 != l }

/-- Removes what is at a place. -/
def erase (d : Disk) (l : Place) : Disk :=
  { d with nodes := d.nodes.filter fun e => e.1 != l }

@[simp] theorem node?_root (d : Disk) : d.node? .root = some .directory := rfl

/-- What is put at a place is found there. -/
theorem node?_put_self (d : Disk) {l : Place} (n : Node) (h : l ≠ .root) :
    (d.put l n).node? l = some n := by
  simp [node?, put, h]

theorem find?_filter_of_ne {l k : Place} (h : k ≠ l) (es : List (Place × Node)) :
    (es.filter fun e => e.1 != l).find? (fun e => e.1 == k) = es.find? fun e => e.1 == k := by
  rw [List.find?_filter]
  congr 1
  funext e
  by_cases he : e.1 = k
  · simp [he, h]
  · simp [he]

/-- What is put at a place changes no other place. -/
theorem node?_put_of_ne (d : Disk) {l k : Place} (n : Node) (h : k ≠ l) :
    (d.put l n).node? k = d.node? k := by
  have hb : (l == k) = false := beq_eq_false_iff_ne.mpr h.symm
  simp only [node?, put, List.find?, hb, find?_filter_of_ne h]

/-- Nothing is found at a place from which it was removed. -/
theorem node?_erase_self (d : Disk) {l : Place} (h : l ≠ .root) : (d.erase l).node? l = none := by
  simp [node?, erase, h]

/-- What is removed from a place changes no other place. -/
theorem node?_erase_of_ne (d : Disk) {l k : Place} (h : k ≠ l) :
    (d.erase l).node? k = d.node? k := by
  simp only [node?, erase, find?_filter_of_ne h]

/-- The place one step away from a directory. -/
def next (l : Place) (step : String) : Place :=
  if step = "." then l else if step = ".." then l.above else l.below step

/-- How many octets a name may have. -/
def nameLimit : Nat := 255

/-- How many octets a path may have. -/
def pathLimit : Nat := 4095

/-- Refuses what is no path of any place. -/
def accept (p : Path) : Except Fault Unit :=
  if p.text.toList.contains (Char.ofNat 0) then .error .nulInName
  else if p.text = "" then .error .missing
  else if pathLimit < p.text.utf8ByteSize then .error .nameTooLong
  else .ok ()

/-- Goes one step, from a place that has to be a directory. -/
def follow (d : Disk) (l : Place) (step : String) : Except Fault Place :=
  match d.node? l with
  | none => .error .missing
  | some (.file _) => .error .notDirectory
  | some .directory =>
    if nameLimit < step.utf8ByteSize then .error .nameTooLong else .ok (next l step)

/-- The place where a path begins. -/
def origin (d : Disk) (p : Path) : Place := if p.isAbsolute then .root else d.workingDirectory

/-- The place to which steps lead from a place. Nothing need be there. -/
def walk (d : Disk) (l : Place) (steps : List String) : Except Fault Place :=
  steps.foldlM d.follow l

/-- The directory to which steps lead from a place. -/
def enter (d : Disk) (l : Place) (steps : List String) : Except Fault Place := do
  let l ← d.walk l steps
  match d.node? l with
  | none => .error .missing
  | some (.file _) => .error .notDirectory
  | some .directory => .ok l

/-- The place that a path leads to. Nothing need be there. -/
def locate (d : Disk) (p : Path) : Except Fault Place := do
  accept p
  d.walk (d.origin p) p.steps

/-- The directory in which the last step of a path is taken. -/
def enclosing (d : Disk) (p : Path) : Except Fault Place := do
  accept p
  d.enter (d.origin p) p.pieces.dropLast

/-- The place with a name in the directory around a path; `unnamed` is the fault of having none. -/
def locateNamed (d : Disk) (p : Path) (name : Option String) (unnamed : Fault) :
    Except Fault Place := do
  let l ← d.enclosing p
  match name with
  | none => .error unnamed
  | some name => d.follow l name

/-! ## Files -/

/-- The content of a file. -/
def readBytes (d : Disk) (p : Path) : Except Fault (List UInt8) := do
  match d.node? (← d.locate p) with
  | none => .error .missing
  | some .directory => .error .isDirectory
  | some (.file bytes) => .ok bytes

/-- The content of a file that holds a text. -/
def readText (d : Disk) (p : Path) : Except Fault (List Char) := do
  match Text.Utf8.decode? (← d.readBytes p) with
  | some cs => .ok cs
  | none => .error .notText

/-- Something is at the place. -/
def isPresent (d : Disk) (p : Path) : Bool :=
  match d.locate p with
  | .ok l => (d.node? l).isSome
  | .error _ => false

/-- Sets the content of a file from what it was; a missing file was empty. -/
def change (d : Disk) (p : Path) (f : List UInt8 → List UInt8) : Except Fault Disk := do
  let l ← d.locateNamed p p.bareName? .isDirectory
  match d.node? l with
  | none => .ok (d.put l (.file (f [])))
  | some .directory => .error .isDirectory
  | some (.file bytes) => .ok (d.put l (.file (f bytes)))

/-- Sets the content of a file. -/
def write (d : Disk) (p : Path) (bytes : List UInt8) : Except Fault Disk :=
  d.change p fun _ => bytes

/-- Adds to the end of a file. -/
def append (d : Disk) (p : Path) (bytes : List UInt8) : Except Fault Disk :=
  d.change p fun old => old ++ bytes

/-- Removes a file. -/
def remove (d : Disk) (p : Path) : Except Fault Disk := do
  let l ← d.locateNamed p p.lastName? .isDirectory
  match d.node? l with
  | none => .error .missing
  | some .directory => .error .isDirectory
  | some (.file _) => if p.endsInSlash then .error .notDirectory else .ok (d.erase l)

/-- Moves a file over another one. -/
def rename (d : Disk) (source target : Path) : Except Fault Disk := do
  let bytes ← d.readBytes source
  (← d.remove source).write target bytes

/-! ## Directories -/

/-- Takes a step in a directory and makes a directory there, unless one is there. -/
def makeStep (d : Disk) (l : Place) (step : String) : Except Fault Place × Disk :=
  match d.follow l step with
  | .error fault => (.error fault, d)
  | .ok l =>
    match d.node? l with
    | none => (.ok l, d.put l .directory)
    | some (.file _) => (.error .present, d)
    | some .directory => (.ok l, d)

/-- Makes the directory to which steps lead from a place, and the ones on the way to it that are
missing. The last step stands first. -/
def makeAlong (d : Disk) (start : Place) : List String → Except Fault Place × Disk
  | [] => (.ok start, d)
  | step :: before =>
    match d.enter start before.reverse with
    | .ok l => d.makeStep l step
    | .error .missing =>
      match d.makeAlong start before with
      | (.ok l, d) => d.makeStep l step
      | r => r
    | .error fault => (.error fault, d)

/-- The steps to the directory around the place of a path, the last one first. -/
def stepsAround (p : Path) : List String := (p.pieces.reverse.dropWhile fun s => s == ".").drop 1

/-- Makes the directory of a path and the ones around it, unless they are there. Steps behind the
last name are taken only when it is there. -/
def makeDirectories (d : Disk) (p : Path) : Except Fault Unit × Disk :=
  let make (d : Disk) (enclosing : Except Fault Place) : Except Fault Unit × Disk :=
    match enclosing with
    | .error fault => (.error fault, d)
    | .ok l =>
      match p.pieces.getLast? with
      | none => (.ok (), d)
      | some step =>
        let (r, d) := d.makeStep l step
        (r.map fun _ => (), d)
  if p.text = "" then (.ok (), d)
  else
    match d.enclosing p with
    | .error .missing =>
      match d.makeAlong (d.origin p) (stepsAround p) with
      | (.ok _, d) => make d (d.enclosing p)
      | (.error fault, d) => (.error fault, d)
    | r => make d r

/-- The names below a place in order, relative to it; the name of a directory ends in a slash. -/
def namesBelow (d : Disk) (l : Place) : List String :=
  let shown (e : Place × Node) : Option String :=
    match l.names.isPrefixOf? e.1.names with
    | none => none
    | some [] => none
    | some names =>
      some ("/".intercalate names ++ match e.2 with
        | .file _ => ""
        | .directory => "/")
  (d.nodes.filterMap shown).mergeSort fun a b => decide (a ≤ b)

end Disk

end IndexAdvisor
