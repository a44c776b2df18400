import IndexAdvisor.Json.Shape
import IndexAdvisor.Log.Entry
import IndexAdvisor.Store.Error
import IndexAdvisor.Store.Sealed
import IndexAdvisor.Text.Lines

/-!
# Stores in files

A file of sealed lines, one for each record, each line naming the owner of its record. A missing
file holds no record. Every line is verified whenever the file is read, whoever asks: a damaged
checksum anywhere is found before any line that does not hold a record. Blank lines count as lines
but hold nothing.

Adding a record adds a line. Removing the records of a principal writes the lines of the others to
a file beside this one, which then takes its place.
-/

set_option autoImplicit false

namespace IndexAdvisor.Store

open IndexAdvisor.Text

/-! ## Entries -/

/-- A record and its owner. -/
structure Entry (α : Type) where
  principal : String
  record : α
  deriving Repr

/-- How an entry is written: the owner, then the record. -/
def Entry.layout {α : Type} (L : Json.Layout α) : Json.Layout (Entry α) where
  shape := .record "Envelope" <| .cons "principal" [] .required .text <|
    .cons "record" [] .required L.shape .nil
  ofCarrier c := ⟨c.1, L.ofCarrier c.2.1⟩
  toCarrier e := (e.principal, L.toCarrier e.record, ())
  ofCarrier_toCarrier e := by
    simp only [L.ofCarrier_toCarrier]

/-- The line of an entry, as octets. -/
def sealedLine (payload : List Char) : List UInt8 := Utf8.encode (sealed payload ++ ['\n'])

/-! ## Reading lines -/

/-- The payloads of some lines with the numbers of their lines, the first of which is `n`. -/
def payloadsFrom (n : Nat) : List (List UInt8) → Except Error (List (Nat × List Char))
  | [] => .ok []
  | line :: lines =>
    match Utf8.decode? line with
    | none => .error (.disk .notText)
    | some cs =>
      if isBlankText cs then payloadsFrom (n + 1) lines
      else
        match opened? cs with
        | none => .error (.checksumMismatch n)
        | some payload => do
          let more ← payloadsFrom (n + 1) lines
          .ok ((n, payload) :: more)

/-- The payloads of a file's content. -/
def payloads (bytes : List UInt8) : Except Error (List (Nat × List Char)) :=
  payloadsFrom 1 (byteLines bytes)

/-- The entry that a payload writes. -/
def readEntry {α : Type} (L : Json.Layout α) (payload : Nat × List Char) : Except Error (Entry α) :=
  match (Entry.layout L).read payload.2 with
  | .ok e => .ok e
  | .error fault => .error (.corruptRecord payload.1 fault)

/-- The entries of a file's content. -/
def entries {α : Type} (L : Json.Layout α) (bytes : List UInt8) :
    Except Error (List (Entry α)) := do
  (← payloads bytes).mapM (readEntry L)

/-! ## Stores -/

/-- A file that holds records of one type. -/
structure File (α : Type) where
  layout : Json.Layout α
  path : Path

/-- Fails as a store where the disk fails. -/
def onDisk {β : Type} : Except Disk.Fault β → Except Error β
  | .ok b => .ok b
  | .error fault => .error (.disk fault)

namespace File

variable {α : Type}

/-- Makes the directory of the file. -/
def prepare (f : File α) (d : Disk) : Except Error Unit × Disk :=
  let (r, d) := d.makeDirectories f.path.parent
  (onDisk r, d)

/-- The content of the file. -/
def content (f : File α) (d : Disk) : Except Error (List UInt8) :=
  match d.readBytes f.path with
  | .error .missing => .ok []
  | r => onDisk r

/-- The line of a record of a principal. -/
def line (f : File α) (principal : String) (record : α) : List UInt8 :=
  sealedLine ((Entry.layout f.layout).write ⟨principal, record⟩)

/-- Adds a record of a principal. -/
def insert (f : File α) (principal : String) (record : α) (d : Disk) : Except Error Disk := do
  checkPrincipal principal
  onDisk (d.append f.path (f.line principal record))

/-- Adds records of a principal, one after the other. Without records nothing is looked at. -/
def insertAll (f : File α) (principal : String) (records : List α) (d : Disk) :
    Except Error Disk :=
  if records.isEmpty then .ok d
  else do
    checkPrincipal principal
    onDisk (d.append f.path (records.flatMap (f.line principal)))

theorem insertAll_nil (f : File α) (principal : String) (d : Disk) :
    f.insertAll principal [] d = .ok d := rfl

theorem insertAll_singleton (f : File α) (principal : String) (record : α) (d : Disk) :
    f.insertAll principal [record] d = f.insert principal record d := by
  simp [insertAll, insert]

/-- The records of a principal. -/
def list (f : File α) (principal : String) (d : Disk) : Except Error (List α) := do
  checkPrincipal principal
  let es ← entries f.layout (← f.content d)
  .ok ((es.filter fun e => e.principal == principal).map Entry.record)

/-- Writes the content by way of the file beside this one. -/
def replace (f : File α) (bytes : List UInt8) (d : Disk) : Except Error Disk := onDisk do
  let aside := f.path.withExtension "tmp"
  (← d.write aside bytes).rename aside f.path

/-- Removes the records of a principal and tells how many there were. The records themselves are
not looked at, only their owners. -/
def clear (f : File α) (principal : String) (d : Disk) : Except Error (Nat × Disk) := do
  checkPrincipal principal
  let ps ← payloads (← f.content d)
  let owners ← ps.mapM fun p => (readEntry .any p).map Entry.principal
  let kept := (ps.zip owners).filter fun e => e.2 != principal
  let removed := ps.length - kept.length
  if removed = 0 then .ok (0, d)
  else do
    let d ← f.replace (kept.flatMap fun e => sealedLine e.1.2) d
    .ok (removed, d)

/-- What the log tells about a failure: a wrong checksum is damage to the file. -/
def report? (f : File α) : Error → Option Log.Entry
  | .checksumMismatch line =>
    some (.ofEvent .storeCorruption [("line", toString line), ("path", f.path.text)])
  | _ => none

end File

end IndexAdvisor.Store
