import IndexAdvisor.Command.Basic
import IndexAdvisor.Text.Decimal
import IndexAdvisor.Text.Split

/-!
# Command lines

A command line names a command and then gives its values: `--option value`, `--option=value`, a
flag, or a value that stands alone. The words are read from left to right. A value that follows
its option as a word of its own is looked at only when the next option or value comes, or at the
end; a word that fits nowhere is refused at once.
-/

set_option autoImplicit false

namespace IndexAdvisor.Command

/-- Why a command line gives no command. -/
inductive Usage where
  | unknownArgument
  | missingRequiredArgument
  | invalidSubcommand
  | invalidValue
  | valueValidation
  | tooManyValues
  | argumentConflict
  | displayHelp
  | displayHelpOnMissing
  | displayVersion
  deriving DecidableEq, Repr

namespace Usage

/-- The name of the kind. -/
def name : Usage → String
  | unknownArgument => "UnknownArgument"
  | missingRequiredArgument => "MissingRequiredArgument"
  | invalidSubcommand => "InvalidSubcommand"
  | invalidValue => "InvalidValue"
  | valueValidation => "ValueValidation"
  | tooManyValues => "TooManyValues"
  | argumentConflict => "ArgumentConflict"
  | displayHelp => "DisplayHelp"
  | displayHelpOnMissing => "DisplayHelpOnMissingArgumentOrSubcommand"
  | displayVersion => "DisplayVersion"

/-- The exit code: asking for help or the version is no error. -/
def exitCode : Usage → Nat
  | displayHelp => 0
  | displayVersion => 0
  | _ => 2

end Usage

/-! ## What may be given -/

/-- The commands by name. -/
inductive Verb where
  | upload
  | analyze
  | explain
  | apply
  | applied
  | clear
  | dashboard
  deriving DecidableEq, Repr

/-- Reads the name of a command. -/
def Verb.ofText? : String → Option Verb
  | "upload" => some upload
  | "analyze" => some analyze
  | "explain" => some explain
  | "apply" => some apply
  | "applied" => some applied
  | "clear" => some clear
  | "dashboard" => some dashboard
  | _ => none

/-- What a word of a command line may say. -/
inductive Slot where
  | file
  | config
  | sql
  | query
  | recommendation
  | applied
  | help
  deriving DecidableEq, Repr

namespace Slot

/-- The slot takes a value. -/
def takesValue (s : Slot) : Bool := s != applied && s != help

/-- The slot that a long option of a command stands for. -/
def ofOption? (verb : Verb) (option : String) : Option Slot :=
  match verb, option with
  | _, "config" => some config
  | _, "help" => some help
  | .explain, "sql" => some sql
  | .apply, "query" => some query
  | .apply, "recommendation" => some recommendation
  | .clear, "applied" => some applied
  | _, _ => none

end Slot

/-- Reads a number of 32 bits; a sign may stand in front. -/
def readWord? (cs : List Char) : Option UInt32 :=
  let n := match cs with
    | '-' :: ds => (Text.natural? ds).filter fun n => n == 0
    | '+' :: ds => Text.natural? ds
    | ds => Text.natural? ds
  (n.filter fun n => n < UInt32.size).map UInt32.ofNat

/-- Looks at the value of a slot: a path must not be empty, a recommendation is a number. -/
def checkValue (slot : Slot) (value : String) : Except Usage Unit :=
  match slot with
  | .file => if value = "" then .error .invalidValue else .ok ()
  | .config => if value = "" then .error .invalidValue else .ok ()
  | .recommendation => if (readWord? value.toList).isSome then .ok () else .error .valueValidation
  | _ => .ok ()

/-! ## Reading the words of a command -/

/-- The words so far: what has been given, and an option or value that has not been looked at. -/
structure Words where
  given : List (Slot × String)
  pending : Option (Slot × Option String)
  /-- Only values may follow. -/
  valuesOnly : Bool
  deriving DecidableEq, Repr

namespace Words

/-- No word yet. -/
def start : Words := ⟨[], none, false⟩

/-- Gives a slot its value; it may have one only. -/
def give (w : Words) (slot : Slot) (value : String) : Except Usage Words := do
  if (w.given.lookup slot).isSome then .error .argumentConflict
  checkValue slot value
  .ok { w with given := (slot, value) :: w.given }

/-- Looks at what is pending. -/
def settle (w : Words) : Except Usage Words :=
  match w.pending with
  | none => .ok w
  | some (_, none) => .error .invalidValue
  | some (slot, some value) => ({ w with pending := none }).give slot value

/-- The file has been given or is pending. -/
def hasFile (w : Words) : Bool :=
  (w.given.lookup .file).isSome || (w.pending.map Prod.fst) == some .file

/-- Reads a value that stands alone. -/
def readValue (verb : Verb) (w : Words) (word : String) : Except Usage Words :=
  if verb = .upload && !w.hasFile then do
    .ok { ← w.settle with pending := some (.file, some word) }
  else .error .unknownArgument

/-- Reads an option, with the value behind its equals sign if there is one. -/
def readOption (w : Words) (slot : Slot) (value : Option String) : Except Usage Words :=
  if slot.takesValue then do
    let w ← w.settle
    match value with
    | none => .ok { w with pending := some (slot, none) }
    | some v => w.give slot v
  else if value.isSome then .error .tooManyValues
  else do
    let w ← w.settle
    if slot = .help then .error .displayHelp else w.give slot ""

/-- A word with two hyphens in front, cut at its first equals sign. -/
def longOption? (word : String) : Option (String × Option String) :=
  match word.toList with
  | '-' :: '-' :: cs =>
    match Text.splitAtFirst? '=' cs with
    | some (option, value) => some (String.ofList option, some (String.ofList value))
    | none => some (String.ofList cs, none)
  | _ => none

/-- Reads one word. -/
def read (verb : Verb) (w : Words) (word : String) : Except Usage Words :=
  if w.valuesOnly then w.readValue verb word
  else if word = "--" then .ok { w with valuesOnly := true }
  else
    match longOption? word with
    | some (option, value) =>
      match Slot.ofOption? verb option with
      | some slot => w.readOption slot value
      | none => .error .unknownArgument
    | none =>
      match word.toList with
      | '-' :: 'h' :: _ => w.readOption .help none
      | '-' :: _ :: _ => .error .unknownArgument
      | _ =>
        match w.pending with
        | some (slot, none) => .ok { w with pending := some (slot, some word) }
        | _ => w.readValue verb word

/-- The value of a slot that has to be given. -/
def need (w : Words) (slot : Slot) : Except Usage String :=
  match w.given.lookup slot with
  | some v => .ok v
  | none => .error .missingRequiredArgument

/-- The action that the words of a command ask for. -/
def action (verb : Verb) (w : Words) : Except Usage Action :=
  match verb with
  | .upload => do .ok (.upload ⟨← w.need .file⟩)
  | .analyze => .ok .analyze
  | .explain => do .ok (.explain (← w.need .sql))
  | .apply => do
    let query ← w.need .query
    let id ← w.need .recommendation
    .ok (.apply query ((readWord? id.toList).getD 0))
  | .applied => .ok .applied
  | .clear => .ok (.clear (w.given.lookup .applied).isSome)
  | .dashboard => .ok .dashboard

end Words

/-- Where the configuration is looked for unless another place is given. -/
def defaultConfig : String := "./dboptima.json"

/-- The command that words after the name of a command ask for. -/
def ofWords (verb : Verb) (words : List String) : Except Usage Command := do
  let w ← words.foldlM (Words.read verb) Words.start
  let w ← w.settle
  let action ← w.action verb
  .ok ⟨⟨(w.given.lookup .config).getD defaultConfig⟩, action⟩

/-! ## Reading a command line -/

/-- What asking for help about some words gives: help for the whole or for one command. -/
def help : List String → Usage
  | [] => .displayHelp
  | [w] => if w = "help" || (Verb.ofText? w).isSome then .displayHelp else .invalidSubcommand
  | _ => .invalidSubcommand

/-- What a first word that names no command gives. -/
def refuse (word : String) : Usage :=
  match Words.longOption? word with
  | some ("help", none) => .displayHelp
  | some ("version", none) => .displayVersion
  | some ("help", some _) => .tooManyValues
  | some ("version", some _) => .tooManyValues
  | some _ => .unknownArgument
  | none =>
    match word.toList with
    | '-' :: 'h' :: _ => .displayHelp
    | '-' :: 'V' :: _ => .displayVersion
    | '-' :: _ :: _ => .unknownArgument
    | _ => .invalidSubcommand

/-- The command that a command line asks for. -/
def ofArguments : List String → Except Usage Command
  | [] => .error .displayHelpOnMissing
  | ["--"] => .error .displayHelpOnMissing
  | "--" :: word :: _ =>
    .error (if word = "help" || (Verb.ofText? word).isSome then .unknownArgument
      else .invalidSubcommand)
  | "help" :: words => .error (help words)
  | word :: words =>
    match Verb.ofText? word with
    | some verb => ofWords verb words
    | none => .error (refuse word)

end IndexAdvisor.Command
