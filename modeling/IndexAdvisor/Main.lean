import IndexAdvisor.Command.Program
import IndexAdvisor.Random.Identifier
import Std.Time.Format

/-!
# The command line

The program on the files of the machine. What stands at the places that a command may touch is read
into a disk, the command runs on that disk, and what it has changed there is written back.
-/

set_option autoImplicit false

namespace IndexAdvisor.Machine

/-! ## Places that a command may touch -/

/-- The files that the command line names. -/
def namedPaths (cmd : Command) : List Path :=
  cmd.config :: match cmd.action with
    | .upload file => [file]
    | _ => []

/-- The files in the data directory of a configuration, and the ones beside them. -/
def dataPaths (c : Config) : List Path :=
  let files := [c.queriesPath, c.appliedPath, c.analysisPath]
  files ++ files.map fun p => p.withExtension "tmp"

/-- The places that steps lead through. -/
def placesFrom (l : Place) : List String → List Place
  | [] => [l]
  | s :: steps => l :: placesFrom (Disk.next l s) steps

/-- The places on the way of a path and the ones above them, from the root down. -/
def placesOf (d : Disk) (p : Path) : List Place :=
  (placesFrom (d.origin p) p.steps).flatMap Place.line

/-! ## Reading and writing -/

/-- The path of a place on the machine. -/
def pathOf (l : Place) : String := "/" ++ "/".intercalate l.names

/-- What stands at a place whose parent is a directory. -/
def look (l : Place) : IO (Option Disk.Node) := do
  try
    return some (.file (← IO.FS.readBinFile (pathOf l)).toList)
  catch e =>
    match e with
    | .noFileOrDirectory .. => return none
    | .inappropriateType .. => return some .directory
    | e => throw e

/-- A name that something can have. -/
def isName (name : String) : Bool :=
  decide (name.utf8ByteSize ≤ Disk.nameLimit) && !name.toList.contains (Char.ofNat 0)

/-- Reads what stands at a place into a disk, unless the place is known. -/
def readPlace (d : Disk) (l : Place) : IO Disk := do
  if (d.node? l).isSome || d.node? l.above != some .directory || !l.names.all isName then return d
  match ← look l with
  | some n => return d.put l n
  | none => return d

/-- Reads what stands on the way of some paths into a disk. -/
def readPaths (d : Disk) (ps : List Path) : IO Disk := (ps.flatMap (placesOf d)).foldlM readPlace d

/-- Brings the file at a place from one content to another: adds to its end where that is enough,
else writes a file beside it that takes its place. -/
def writeFile (l : Place) (old : Option Disk.Node) (bytes : List UInt8) : IO Unit := do
  let path := pathOf l
  let known := match old with
    | some (.file known) => known
    | _ => []
  match known.isPrefixOf? bytes with
  | some more => IO.FS.withFile path .append fun h => h.write ⟨more.toArray⟩
  | none =>
    let aside := path ++ ".new"
    IO.FS.writeBinFile aside ⟨bytes.toArray⟩
    IO.FS.rename aside path

/-- Writes back what has changed from one disk to another. -/
def writeBack (old new : Disk) : IO Unit := do
  let changed := new.nodes.filter fun e => old.node? e.1 != some e.2
  for (l, n) in changed.mergeSort fun a b => decide (a.1.depth ≤ b.1.depth) do
    match n with
    | .directory => IO.FS.createDirAll (pathOf l)
    | .file bytes => writeFile l (old.node? l) bytes
  for (l, _) in old.nodes do
    if (new.node? l).isNone then IO.FS.removeFile (pathOf l)

/-! ## Surroundings -/

/-- The place of the working directory. -/
def workingDirectory : IO Place := do
  let p : Path := ⟨toString (← IO.currentDir)⟩
  return Place.ofNames p.names

/-- The time, ids and draws for one run that began at `begun`. -/
def surroundings (begun : Nat) : IO Command.Surroundings := do
  let now ← Std.Time.Timestamp.now
  let bytes ← IO.getRandomBytes 40
  let word (k : Nat) : UInt32 :=
    (List.range 4).foldl (fun w i => w * 256 + (bytes.get! (4 * k + i)).toUInt32) 0
  return {
    now := (Std.Time.DateTime.ofTimestamp now .UTC).format "uuuu-MM-dd'T'HH:mm:ss.SSSSSSSSSxxx"
    elapsedMs := toString ((← IO.monoMsNow) - begun)
    freshId := Random.identifierAt (Vector.ofFn fun i => word i.val)
    entropy := (word 8).toUInt64 <<< 32 ||| (word 9).toUInt64 }

/-! ## Command lines that give no command -/

/-- How the program is called. -/
def usageText : String :=
  "Usage: dboptima COMMAND [--config PATH]\n\n" ++
  "Commands:\n" ++
  "  upload FILE\n" ++
  "  analyze\n" ++
  "  explain --sql TEXT\n" ++
  "  apply --query KEY --recommendation ID\n" ++
  "  applied\n" ++
  "  clear [--applied]\n" ++
  "  dashboard"

/-- Tells why there is no command, or what was asked for instead. -/
def report (u : Command.Usage) : IO Unit :=
  match u with
  | .displayHelp => IO.println usageText
  | .displayVersion => IO.println "dboptima 0.1.0"
  | .displayHelpOnMissing => IO.eprintln usageText
  | u => IO.eprintln ("error: " ++ u.name ++ "\n\n" ++ usageText)

/-- Runs the program on the machine. -/
def run (arguments : List String) : IO Nat := do
  let begun ← IO.monoMsNow
  let mut disk : Disk := ⟨← workingDirectory, []⟩
  if let .ok cmd := Command.ofArguments arguments then
    disk ← readPaths disk (namedPaths cmd)
    if let .ok c := Config.load cmd.config disk then
      disk ← readPaths disk (dataPaths c)
  let (r, w) := Command.program arguments (← surroundings begun) ⟨disk, .empty, 0⟩
  writeBack disk w.disk
  match r with
  | .error u =>
    report u
    return u.exitCode
  | .ok o =>
    for line in o.lines do
      IO.eprintln line
    IO.print o.output
    return o.exitCode

end IndexAdvisor.Machine

def main (arguments : List String) : IO UInt32 := do
  return (← IndexAdvisor.Machine.run arguments).toUInt32
