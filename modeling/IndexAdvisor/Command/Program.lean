import IndexAdvisor.Command.Arguments
import IndexAdvisor.Command.Run

/-!
# The program

A whole run of the program on a command line: what it writes and the code it ends with.
-/

set_option autoImplicit false

namespace IndexAdvisor.Command

/-- How a run of the program ends. -/
structure Outcome where
  /-- What is written as the answer. -/
  output : String
  /-- The lines of the journal, which are written beside it. -/
  log : List String
  /-- Why the command failed, if it did. -/
  failure : Option Error
  deriving DecidableEq, Repr

/-- The code that the run ends with. -/
def Outcome.exitCode (o : Outcome) : Nat := if o.failure.isSome then 1 else 0

/-- The lines that are written beside the answer: a failure is reported after the journal. -/
def Outcome.lines (o : Outcome) : List String := o.log ++ o.failure.toList.map Error.text

/-- Runs the program on a command line. The lines of the journal are new ones. -/
def program (arguments : List String) (s : Surroundings) (w : World) :
    Except Usage Outcome × World :=
  match ofArguments arguments with
  | .error u => (.error u, w)
  | .ok cmd =>
    let (r, w) := cmd.run s { w with journal := .empty }
    let failure : Option Error := match r with
      | .ok _ => none
      | .error e => some e
    (.ok ⟨response r, w.journal.lines, failure⟩, w)

end IndexAdvisor.Command
