/-
# Running a command line

The report of a command line holds all that can be seen of it beside the files:
the exit code, what was shown, and the failure that ended it, if one did.  A
command line that is misused exits with two and shows nothing.

Source: `idlforge.cli` (`main_callback`, `main`).
-/

import AnchorIdl.Command.Arguments
import AnchorIdl.Command.Generate
import AnchorIdl.Command.Inspect

namespace AnchorIdl

/-- What is seen of a command line. -/
structure CommandReport where
  code : Nat
  verbose : Bool := false
  transcript : Transcript := []
  failure : Option Failure := none

namespace Command

variable {m : Type → Type} [Monad m] [FileAccess m]

/-- Run a command. -/
def run : Command → Run m Stop Unit
  | generate idl output flags project => runGenerate idl output flags project
  | lookup idl instruction format => runLookup idl instruction format
  | inspect idl => runInspect idl

/-- The report of a run. -/
def report (verbose : Bool) (outcome : Except Stop Unit) (transcript : Transcript) :
    CommandReport :=
  match outcome with
  | .ok () => ⟨0, verbose, transcript, none⟩
  | .error (.exit code) => ⟨code, verbose, transcript, none⟩
  | .error (.failure f) => ⟨1, verbose, transcript, some f⟩

/-- Run a command line. -/
def runWords (words : List Text) : m CommandReport := do
  match CommandLine.read words with
  | none => return { code := 2 }
  | some invocation =>
    let (outcome, transcript) ← (invocation.command.run.run).run []
    return report invocation.verbose outcome transcript

end Command
end AnchorIdl
